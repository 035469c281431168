import SourceStamp.Stamp.Stamper

/-! Stamping a program. A pass goes down from the root and stops at each target, so what a target
holds is left for the next pass. -/

set_option autoImplicit false

namespace SourceStamp

structure Report where
  program : Node
  events : List Event
  diagnostics : List Diagnostic

namespace Stamper

/-- A node, given what the pass makes of its children; a target has no use for them. -/
def passNode (stamper : Stamper) (node : Node)
    (parts : List (Except LookupError (Node × List Event))) :
    Except LookupError (Node × List Event) :=
  match node.target? with
  | some target => do
    let (stamped, event) ← stamper.stamp target
    return (stamped, [event])
  | none => do
    let parts ← parts.mapM id
    let here := node.emptyDebug?.toList.map Event.emptyDebug
    return (node.withChildren (parts.map Prod.fst), here ++ parts.flatMap Prod.snd)

def pass (stamper : Stamper) : Node → Except LookupError (Node × List Event) :=
  Node.fold stamper.passNode

theorem pass_eq (stamper : Stamper) (node : Node) :
    stamper.pass node = stamper.passNode node (node.children.map stamper.pass) :=
  Node.fold_eq _ node

/-- Runs a pass. If diagnostics are collected, warnings that point at a place go there, and none is
reported a second time. -/
def run (stamper : Stamper) (collects : Bool) (program : Node) : Except LookupError Report := do
  let (program, events) ← stamper.pass program
  if collects then
    return ⟨program, events.filter fun event => event.diagnostic?.isNone,
      (events.filterMap Event.diagnostic?).eraseDups⟩
  else return ⟨program, events, []⟩

def runTimes (stamper : Stamper) (collects : Bool) :
    Nat → Node → Except LookupError (List Report)
  | 0, _ => .ok []
  | passes + 1, program => do
    let report ← stamper.run collects program
    return report :: (← stamper.runTimes collects passes report.program)

end Stamper

end SourceStamp
