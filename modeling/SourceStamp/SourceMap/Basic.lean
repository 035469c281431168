import SourceStamp.Span
import SourceStamp.Text.Units

/-! Where a position stands, and the interface through which that is asked. Columns count from zero,
lines from one. -/

set_option autoImplicit false

namespace SourceStamp

/-- A file, with the position of its first byte. -/
structure SourceFile where
  name : String
  text : String
  start : Nat
  deriving DecidableEq

def SourceFile.stop (file : SourceFile) : Nat := file.start + Text.utf8Length file.text.toList

/-- A place in a file as a source map gives it; maps differ in the unit of the column. -/
structure Location where
  file : SourceFile
  line : Nat
  col : Nat
  deriving DecidableEq

namespace Location

/-- The four line ends of JavaScript. -/
def isLineEnd (c : Char) : Bool := c = '\n' || c = '\r' || c = '\u2028' || c = '\u2029'

def lastLine (text : List Char) : List Char :=
  (text.reverse.takeWhile fun c => !isLineEnd c).reverse

def textBefore? (place : Location) (pos : Nat) : Option (List Char) :=
  if pos < place.file.start then none
  else (Text.splitAtByte? (pos - place.file.start) place.file.text.toList).map Prod.fst

/-- The column of `pos` in UTF-16 code units. The column of the map stands, unless it fits the text
of the line in front of the position as a number of characters or of code units. -/
def utf16Column (place : Location) (pos : Nat) : Nat :=
  match (place.textBefore? pos).map lastLine with
  | none => place.col
  | some line =>
    if line.length = place.col ∨ Text.utf16Length line = place.col then Text.utf16Length line
    else place.col

end Location

inductive LookupError where
  -- No file holds the position.
  | noFile
  -- The text is asked for from or to the middle of a character.
  | splitCharacter
  -- Nobody is there to be asked.
  | offline
  deriving DecidableEq

structure SourceMap where
  locate : Nat → Except LookupError Location
  snippet? : Span → Except LookupError (Option String)

def SourceMap.offline : SourceMap := ⟨fun _ => .error .offline, fun _ => .error .offline⟩

end SourceStamp
