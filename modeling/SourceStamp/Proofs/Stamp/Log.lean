import SourceStamp.Proofs.Stamp.Message
import SourceStamp.Proofs.Stamp.Texts

/-! What the log says of a pass. Each outermost target has one entry of its own, which names its kind
and the text that was put into it; everything else in the log is a warning. An entry stands for a
change of the tree, with one exception: a template without any text has no place for a tag.
-/

set_option autoImplicit false

namespace SourceStamp

def Event.isDebug (event : Event) : Bool := ("level", "DEBUG") ∈ event.fields

theorem Event.isDebug_emptyDebug (span : Span) : (Event.emptyDebug span).isDebug = false := by
  simp [isDebug, fields]

namespace Node

def thrownShape? : Node → Option Shape
  | .string _ | .template _ [] _ => some .literal
  | .template _ (_ :: _) _ => some .template
  | .ident _ => some .ident
  | _ => none

end Node

namespace Rule

variable {debugCallee text : String}

end Rule

namespace Stamper

variable {stamper : Stamper}

theorem filter_isDebug_reportOf (collects : Bool) (new : Node) (events : List Event) :
    (reportOf collects new events).events.filter Event.isDebug = events.filter Event.isDebug := by
  cases collects with
  | false => rfl
  | true =>
    show (events.filter fun event => event.diagnostic?.isNone).filter _ = _
    rw [List.filter_filter]
    apply List.filter_congr
    intro event _
    -- what is collected as a diagnostic has the level of a warning
    cases event <;> simp [Event.diagnostic?, Event.isDebug_emptyDebug]

end Stamper

end SourceStamp
