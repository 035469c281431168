import SourceStamp.Event
import SourceStamp.Syntax.Node
import SourceStamp.Text.Quoted
import SourceStamp.Text.Template

/-! The places in a program that are stamped, and what stamping makes of them. A target is found by
looking at a node alone; the text that it gets is found elsewhere. -/

set_option autoImplicit false

namespace SourceStamp

inductive Intrinsic where
  | message (mode : Mode)
  | debug
  deriving DecidableEq

def Intrinsic.ofName? (name : String) : Option Intrinsic :=
  if name = "$print" then some (.message .print)
  else if name = "$warn" then some (.message .warn)
  else if name = "$debug" then some .debug
  else none

/-- An argument from its first character on, the three dots of a spread one included. -/
def Argument.span (arg : Argument Node) : Span :=
  match arg.spread with
  | none => arg.expr.span
  | some dots => .between dots.start arg.expr.span.stop

inductive Target where
  | message (mode : Mode) (call : Call Node)
  -- `subject` is the first argument.
  | debug (call : Call Node) (subject : Argument Node)
  -- A thrown string, or a thrown template without substitutions.
  | thrownLiteral (span : Span) (text : String) (literalSpan : Span)
  | thrownTemplate (span : Span) (literalSpan : Span) (exprs : List Node)
      (quasis : List TemplateElement)
  | thrownIdent (span : Span) (ident : Ident)

/-- The text of a template without substitutions; a bad escape leaves it as it is written. -/
def TemplateElement.textOf : List TemplateElement → String
  | [] => ""
  | element :: _ => element.cooked.getD element.raw

namespace Call

def intrinsic? (call : Call Node) : Option Intrinsic :=
  match call.callee with
  | .ident id => Intrinsic.ofName? id.name
  | _ => none

/-- A `$debug` call needs something to show. -/
def target? (call : Call Node) : Option Target :=
  match call.intrinsic?, call.args with
  | some (.message mode), _ => some (.message mode call)
  | some .debug, subject :: _ => some (.debug call subject)
  | some .debug, [] => none
  | none, _ => none

def withSpan (call : Call Node) (span : Span) : Call Node :=
  ⟨span, call.ctxt, call.callee, call.args, call.typeArgs⟩

end Call

namespace Node

/-- The target that a node is. An optional call becomes a plain one at the place of its chain. -/
def target? : Node → Option Target
  | .call c => c.target?
  | .optCall .expression span _ c => (c.withSpan span).target?
  | .throwStmt span (.string literal) => some (.thrownLiteral span literal.value literal.span)
  | .throwStmt span (.template literalSpan [] quasis) =>
    some (.thrownLiteral span (TemplateElement.textOf quasis) literalSpan)
  | .throwStmt span (.template literalSpan exprs quasis) =>
    some (.thrownTemplate span literalSpan exprs quasis)
  | .throwStmt span (.ident id) => some (.thrownIdent span id)
  | _ => none

def emptyDebug? : Node → Option Span
  | .call c | .optCall .expression _ _ c =>
    if c.intrinsic? = some .debug ∧ c.args.isEmpty then some c.span else none
  | _ => none

end Node

namespace Target

def span : Target → Span
  | .message _ c | .debug c _ => c.span
  | .thrownLiteral span _ _ | .thrownTemplate span _ _ _ | .thrownIdent span _ => span

-- A string that stands nowhere in the source.
def textNode (text : String) : Node := .string ⟨.dummy, text, none⟩

def callWith (c : Call Node) (callee text : String) (typeArgs : Option Node) : Node :=
  .call ⟨c.span, c.ctxt, .ident ⟨c.callee.span, 0, callee, false⟩, ⟨none, textNode text⟩ :: c.args,
    typeArgs⟩

def prependHead (text : String) : List TemplateElement → List TemplateElement
  | [] => []
  | head :: rest =>
    ⟨head.span, head.tail, head.cooked.map (text ++ ·), Text.escapeTemplate text ++ head.raw⟩ :: rest

/-- The node in the target's place once the text is in it. A message call has no type arguments; a
string literal has its raw form set, so that no printer escapes more of it than it must. -/
def stamped (debugCallee text : String) : Target → Node
  | .message mode c => callWith c mode.callee text none
  | .debug c _ => callWith c debugCallee text c.typeArgs
  | .thrownLiteral span thrown literalSpan =>
    let value := text ++ thrown
    .throwStmt span (.string ⟨literalSpan, value, some (Text.quote value)⟩)
  | .thrownTemplate span literalSpan exprs quasis =>
    .throwStmt span (.template literalSpan exprs (prependHead text quasis))
  | .thrownIdent span id => .throwStmt span (.binary id.span "+" (textNode text) (.ident id))

def event (text : String) : Target → Event
  | .message mode _ => .messageCall mode text
  | .debug _ _ => .debugCall text
  | .thrownLiteral _ _ _ => .thrown .literal text
  | .thrownTemplate _ _ _ _ => .thrown .template text
  | .thrownIdent _ _ => .thrown .ident text

end Target

end SourceStamp
