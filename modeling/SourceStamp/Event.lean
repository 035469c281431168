import SourceStamp.Json.Printer
import SourceStamp.Span

/-! What is logged while a configuration is read and a program is stamped. -/

set_option autoImplicit false

namespace SourceStamp

inductive Mode where
  | print
  | warn
  deriving DecidableEq

def Mode.callee : Mode → String
  | .print => "print"
  | .warn => "warn"

inductive Shape where
  | literal
  | template
  | ident
  deriving DecidableEq

def Shape.name : Shape → String
  | .literal => "Literal"
  | .template => "Template"
  | .ident => "Ident"

inductive Event where
  | invalidConfig
  | invalidDebugCallee (callee : String)
  | messageCall (mode : Mode) (tag : String)
  | debugCall (label : String)
  | thrown (shape : Shape) (tag : String)
  -- A `$debug` call without arguments, at its span.
  | emptyDebug (span : Span)
  deriving DecidableEq

namespace Event

def emptyDebugMessage : String := "\x60$debug()\x60 needs an argument; call left unchanged"

/-- What the log holds of an event: named texts, in the order of their names. -/
def fields : Event → List (String × String)
  | .invalidConfig =>
    [("level", "WARN"), ("message", "invalid location tag plugin config, using defaults")]
  | .invalidDebugCallee callee =>
    [("callee", callee), ("level", "WARN"),
      ("message", "debugCallee is not a valid identifier, using debugPrint")]
  | .messageCall mode tag =>
    [("level", "DEBUG"), ("message", "tagging message call"), ("mode", mode.callee), ("tag", tag)]
  | .debugCall label =>
    [("label", label), ("level", "DEBUG"), ("message", "tagging debug call")]
  | .thrown shape tag =>
    [("level", "DEBUG"), ("message", "tagging thrown message"), ("shape", shape.name), ("tag", tag)]
  | .emptyDebug _ => [("level", "WARN"), ("message", emptyDebugMessage)]

def toJson (event : Event) : Json :=
  .ofFields (event.fields.map fun (name, text) => (name, .ofText text))

end Event

structure Diagnostic where
  span : Span
  message : String
  deriving DecidableEq

def Event.diagnostic? : Event → Option Diagnostic
  | .emptyDebug span => some ⟨span, "warning: " ++ emptyDebugMessage⟩
  | _ => none

end SourceStamp
