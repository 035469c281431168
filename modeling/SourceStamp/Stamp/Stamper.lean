import SourceStamp.Path
import SourceStamp.SourceMap.Basic
import SourceStamp.Stamp.Target
import SourceStamp.Tag

/-! Finds the text for a target: the tag of its place, and for a debug call also the source of what
it shows. -/

set_option autoImplicit false

namespace SourceStamp

structure Stamper where
  sourceMap : Option SourceMap
  baseDir : Option String
  debugCallee : String

namespace Stamper

/-- The tag of a place. Code that was made up stands nowhere, and without a source map all does. -/
def tag (stamper : Stamper) (span : Span) : Except LookupError String :=
  match stamper.sourceMap with
  | none => .ok Tag.unknown
  | some sourceMap =>
    if span.isDummy then .ok Tag.unknown
    else do
      let place ← sourceMap.locate span.start
      return Tag.format (Path.relative stamper.baseDir place.file.name) place.line
        (place.utf16Column span.start + 1)

def snippet? (stamper : Stamper) (span : Span) : Except LookupError (Option String) :=
  match stamper.sourceMap with
  | none => .ok none
  | some sourceMap => if span.isDummy then .ok none else sourceMap.snippet? span

def placeholder : Node → String
  | .ident id => id.name
  | _ => "<expr>"

def sourceText (stamper : Stamper) (arg : Argument Node) : Except LookupError String := do
  return (← stamper.snippet? arg.span).getD (placeholder arg.expr)

def text (stamper : Stamper) (target : Target) : Except LookupError String :=
  match target with
  | .debug _ subject => do
    return (← stamper.tag target.span) ++ (← stamper.sourceText subject) ++ " = "
  | _ => stamper.tag target.span

def stamp (stamper : Stamper) (target : Target) : Except LookupError (Node × Event) := do
  let text ← stamper.text target
  return (target.stamped stamper.debugCallee text, target.event text)

end Stamper

end SourceStamp
