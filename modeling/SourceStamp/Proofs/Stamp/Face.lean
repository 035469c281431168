import SourceStamp.Proofs.Stamp.Rules
import SourceStamp.Proofs.Syntax.Children

/-! What a node shows to the one above it. A call looks at the identifier in its callee, a throw at the
kind of its argument, and neither looks further. A change of the tree that keeps the faces of its
nodes makes no target and unmakes none, and the rules of stamping do not notice it.
-/

set_option autoImplicit false

namespace SourceStamp

namespace Node

/-- The identifier that a node is, and whether a throw of it is a target. -/
def face : Node → Option Ident × Bool
  | .ident id => (some id, true)
  | .string _ | .template _ _ _ => (none, true)
  | _ => (none, false)

theorem isTarget_throwStmt (span : Span) (argument : Node) :
    (throwStmt span argument).isTarget = argument.face.2 := by
  cases argument <;> rfl

theorem face_withChildren (node : Node) (parts : List Node) :
    (node.withChildren parts).face = node.face := by
  unfold withChildren
  split <;> rfl

end Node

theorem Rule.face_eq {debugCallee text : String} {node new : Node}
    (rule : Rule debugCallee text node new) : new.face = node.face := by
  induction rule with
  | chain _ ih => exact ih
  | _ => rfl

namespace Call

theorem isOf_eq_face (c : Call Node) (name : String) :
    c.isOf name = c.callee.face.1.any fun id => id.name = name := by
  unfold Call.isOf
  cases c.callee <;> simp [Node.face]

theorem intrinsic?_eq_face (c : Call Node) :
    c.intrinsic? = c.callee.face.1.bind fun id => Intrinsic.ofName? id.name := by
  unfold Call.intrinsic?
  cases c.callee <;> simp [Node.face]

structure Alike (c d : Call Node) : Prop where
  callee : d.callee.face = c.callee.face
  args : d.args.isEmpty = c.args.isEmpty

theorem Alike.isOf_eq {c d : Call Node} (alike : c.Alike d) (name : String) :
    d.isOf name = c.isOf name := by
  rw [isOf_eq_face, isOf_eq_face, alike.callee]

theorem Alike.isTarget_eq {c d : Call Node} (alike : c.Alike d) : d.isTarget = c.isTarget := by
  simp only [isTarget, alike.isOf_eq, alike.args]

theorem alike_withChildren {c : Call Node} {parts : List Node}
    (same : parts.map Node.face = c.children.map Node.face) : c.Alike (c.withChildren parts) := by
  obtain ⟨span, ctxt, callee, args, typeArgs⟩ := c
  cases parts with
  | nil => contradiction
  | cons first rest =>
    obtain ⟨callee, others⟩ := List.cons.inj same
    refine ⟨callee, ?_⟩
    have size := congrArg List.length others
    simp only [List.length_map, List.length_append] at size
    rw [withChildren, List.splitAt_eq, Bool.eq_iff_iff, List.isEmpty_iff_length_eq_zero,
      List.isEmpty_iff_length_eq_zero, List.length_zipWith, List.length_take]
    dsimp only
    omega

end Call

namespace Node

theorem isTarget_withChildren {node : Node} {parts : List Node}
    (same : parts.map face = node.children.map face) :
    (node.withChildren parts).isTarget = node.isTarget := by
  cases node with
  | call c => exact (Call.alike_withChildren same).isTarget_eq
  | optCall role span optional c =>
    cases role with
    | expression => exact (Call.alike_withChildren same).isTarget_eq
    | assignTarget => rfl
  | throwStmt span argument =>
    obtain ⟨part, rfl⟩ : ∃ part, parts = [part] :=
      List.length_eq_one_iff.1 (by simpa [children] using congrArg List.length same)
    rw [withChildren, isTarget_throwStmt, isTarget_throwStmt]
    exact congrArg Prod.snd (List.cons.inj same).1
  | binary span operator left right =>
    unfold withChildren
    split <;> simp_all [isTarget]
  | _ => rfl

theorem isTarget_mapChildren {f : Node → Node} {node : Node}
    (same : ∀ part ∈ node.children, (f part).face = part.face) :
    (node.mapChildren f).isTarget = node.isTarget := by
  apply isTarget_withChildren
  rw [List.map_map]
  exact List.map_congr_left same

def isCallOrThrow : Node → Bool
  | .call _ | .optCall _ _ _ _ | .throwStmt _ _ => true
  | _ => false

/-- A change of trees that keeps the faces, and changes nodes that are no calls or throws only in
their children. -/
structure KeepsFace (f : Node → Node) : Prop where
  face_eq : ∀ node, (f node).face = node.face
  below : ∀ node, node.isCallOrThrow = false → f node = node.mapChildren f

namespace KeepsFace

variable {f : Node → Node} (keeps : KeepsFace f)
include keeps

theorem ident (id : Ident) : f (.ident id) = .ident id := keeps.below _ rfl

theorem string (literal : StringLit) : f (.string literal) = .string literal := keeps.below _ rfl

theorem template (span : Span) (exprs : List Node) (quasis : List TemplateElement) :
    f (.template span exprs quasis) = .template span (exprs.map f) quasis := keeps.below _ rfl

theorem sum (span : Span) (operator : String) (literal : StringLit) (id : Ident) :
    f (.binary span operator (.string literal) (.ident id)) =
      .binary span operator (.string literal) (.ident id) := by
  rw [keeps.below _ rfl, mapChildren, children, List.map_cons, List.map_cons, List.map_nil,
    keeps.string, keeps.ident]
  rfl

theorem alike (c : Call Node) : c.Alike (c.map f) where
  callee := keeps.face_eq c.callee
  args := by simp [Call.map]

theorem isTarget_mapChildren (node : Node) : (node.mapChildren f).isTarget = node.isTarget :=
  Node.isTarget_mapChildren fun part _ => keeps.face_eq part

theorem map_withText {c : Call Node} {name : String} (called : c.isOf name) (other text : String)
    (typeArgs : Option Node) :
    (c.withText other text typeArgs).map f = (c.map f).withText other text (typeArgs.map f) := by
  obtain ⟨id, callee, -⟩ := Call.isOf_iff.1 called
  simp [Call.withText, Call.map, callee, keeps.ident, keeps.string]

/-- Stamping and the change do not depend on each other. -/
theorem rule {debugCallee text : String} {node new : Node} (rule : Rule debugCallee text node new) :
    Rule debugCallee text (node.mapChildren f) (new.mapChildren f) := by
  induction rule with
  | @print c callee =>
    rw [mapChildren_call, mapChildren_call, keeps.map_withText callee]
    exact .print (by rwa [(keeps.alike c).isOf_eq])
  | @warn c callee =>
    rw [mapChildren_call, mapChildren_call, keeps.map_withText callee]
    exact .warn (by rwa [(keeps.alike c).isOf_eq])
  | @debug c callee shows =>
    rw [mapChildren_call, mapChildren_call, keeps.map_withText callee]
    exact .debug (by rwa [(keeps.alike c).isOf_eq]) (by simpa [Call.map] using shows)
  | chain _ ih =>
    rw [mapChildren_optCall]
    rw [mapChildren_call] at ih
    exact .chain ih
  | string =>
    simp only [mapChildren_throwStmt, keeps.string]
    exact .string
  | emptyTemplate =>
    simp only [mapChildren_throwStmt, keeps.string, keeps.template]
    exact .emptyTemplate
  | plainTemplate =>
    simp only [mapChildren_throwStmt, keeps.string, keeps.template]
    exact .plainTemplate
  | template substitutes =>
    simp only [mapChildren_throwStmt, keeps.template]
    exact .template (by simpa using substitutes)
  | headlessTemplate substitutes =>
    simp only [mapChildren_throwStmt, keeps.template]
    exact .headlessTemplate (by simpa using substitutes)
  | ident =>
    simp only [mapChildren_throwStmt, keeps.ident, keeps.sum]
    exact .ident

theorem exists_target_call {c : Call Node} {target : Target} (found : c.target? = some target) :
    ∃ target', (c.map f).target? = some target' ∧ ∀ text, target'.event text = target.event text := by
  have alike := keeps.alike c
  rcases Call.isTarget_cases (Call.isTarget_of_target? found) with
    print | warn | ⟨debug, subject, rest, shows⟩
  · cases found.symm.trans (Call.target?_of_print print)
    exact ⟨_, Call.target?_of_print (by rwa [alike.isOf_eq]), fun _ => rfl⟩
  · cases found.symm.trans (Call.target?_of_warn warn)
    exact ⟨_, Call.target?_of_warn (by rwa [alike.isOf_eq]), fun _ => rfl⟩
  · cases found.symm.trans (Call.target?_of_debug debug shows)
    have shown : (c.map f).args = ⟨subject.spread, f subject.expr⟩ ::
        rest.map fun arg => ⟨arg.spread, f arg.expr⟩ := by
      rw [Call.map, shows, List.map_cons]
    exact ⟨_, Call.target?_of_debug (by rwa [alike.isOf_eq]) shown, fun _ => rfl⟩

/-- A target gives the same entry of the log whatever is below it. -/
theorem exists_target {node : Node} {target : Target} (found : node.target? = some target) :
    ∃ target', (node.mapChildren f).target? = some target' ∧
      ∀ text, target'.event text = target.event text := by
  cases node with
  | call c =>
    rw [mapChildren_call]
    exact keeps.exists_target_call found
  | optCall role span optional c =>
    rw [mapChildren_optCall]
    cases role with
    | expression => exact keeps.exists_target_call (c := c.withSpan span) found
    | assignTarget => contradiction
  | throwStmt span argument =>
    rw [mapChildren_throwStmt]
    cases argument with
    | string | ident =>
      cases found
      rw [keeps.below _ rfl]
      exact ⟨_, rfl, fun _ => rfl⟩
    | template literalSpan exprs quasis =>
      rw [keeps.template]
      cases exprs <;> cases found <;> exact ⟨_, rfl, fun _ => rfl⟩
    | _ => contradiction
  | _ => contradiction

theorem emptyDebug?_mapChildren (node : Node) :
    (node.mapChildren f).emptyDebug? = node.emptyDebug? := by
  have inCall : ∀ c : Call Node, (c.map f).intrinsic? = c.intrinsic? ∧
      (c.map f).args.isEmpty = c.args.isEmpty := by
    intro c
    rw [Call.intrinsic?_eq_face, Call.intrinsic?_eq_face, (keeps.alike c).callee]
    exact ⟨rfl, (keeps.alike c).args⟩
  cases node with
  | call c =>
    rw [mapChildren_call, emptyDebug?, emptyDebug?, (inCall c).1, (inCall c).2]
    rfl
  | optCall role span optional c =>
    rw [mapChildren_optCall]
    cases role with
    | expression =>
      rw [emptyDebug?, emptyDebug?, (inCall c).1, (inCall c).2]
      rfl
    | assignTarget => rfl
  | record => simp [emptyDebug?]
  | _ => rfl

end KeepsFace

end Node

end SourceStamp
