import SourceStamp.SourceMap.Basic

/-! The source map of a list of files. The first file starts at position 1, and between two files
one position is left free, so that the end of a file is still a position of its own. -/

set_option autoImplicit false

namespace SourceStamp

namespace SourceFile

def withoutMark : List Char → List Char
  | [] => []
  | c :: cs => if c = '\ufeff' then cs else c :: cs

def layOutFrom (start : Nat) : List (String × String) → List SourceFile
  | [] => []
  | (name, text) :: rest =>
    let file : SourceFile := ⟨name, String.ofList (withoutMark text.toList), start⟩
    file :: layOutFrom (file.stop + 1) rest

def layOut (sources : List (String × String)) : List SourceFile := layOutFrom 1 sources

/-- The positions behind the line ends of a text that starts at `pos`. A carriage return and a line
feed in a row are one line end; the line and paragraph separators are none. -/
def lineStartsFrom (pos : Nat) : List Char → List Nat
  | [] => []
  | '\r' :: '\n' :: rest => (pos + 2) :: lineStartsFrom (pos + 2) rest
  | c :: rest =>
    if c = '\n' ∨ c = '\r' then (pos + 1) :: lineStartsFrom (pos + 1) rest
    else lineStartsFrom (pos + c.utf8Size) rest

/-- Where the lines of a file start. Behind a line end at the very end there is no line, and there
is none in an empty file. -/
def lineStarts (file : SourceFile) : List Nat :=
  (file.start :: lineStartsFrom file.start file.text.toList).filter (· ≠ file.stop)

/-- By how many bytes the characters that start in the first `offset` bytes exceed their UTF-16
code units. -/
def surplus (offset : Nat) : List Char → Nat
  | [] => 0
  | c :: cs =>
    if offset = 0 then 0
    else (c.utf8Size - Text.utf16Size c) + surplus (offset - c.utf8Size) cs

/-- The number of UTF-16 code units from the start of the file; behind its end each position counts
as one. -/
def unitOffset (file : SourceFile) (pos : Nat) : Nat :=
  (pos - file.start) - surplus (pos - file.start) file.text.toList

/-- The number of the line of a position, zero in a file without lines, and the column. -/
def locate (file : SourceFile) (pos : Nat) : Location :=
  let starts := file.lineStarts.filter (· ≤ pos)
  let lineStart := starts.getLastD file.start
  ⟨file, starts.length, file.unitOffset pos - file.unitOffset lineStart⟩

def slice? (file : SourceFile) (start stop : Nat) : Except LookupError (Option String) :=
  if file.stop < stop then .ok none
  else
    match Text.splitAtByte? (start - file.start) file.text.toList with
    | none => .error .splitCharacter
    | some (_, after) =>
      match Text.splitAtByte? (stop - start) after with
      | none => .error .splitCharacter
      | some (text, _) => .ok (some (String.ofList text))

end SourceFile

namespace SourceMap

-- The last file that starts at or in front of a position.
def fileAt? (files : List SourceFile) (pos : Nat) : Option SourceFile :=
  (files.filter fun file => file.start ≤ pos).getLast?

def snippetIn? (files : List SourceFile) (span : Span) : Except LookupError (Option String) :=
  if span.stop < span.start then .ok none
  else
    match fileAt? files span.start, fileAt? files span.stop with
    | some first, some last =>
      if first = last then first.slice? span.start span.stop else .ok none
    | _, _ => .ok none

def ofSources (sources : List (String × String)) : SourceMap :=
  let files := SourceFile.layOut sources
  { locate := fun pos =>
      match fileAt? files pos with
      | none => .error .noFile
      | some file => .ok (file.locate pos)
    snippet? := snippetIn? files }

example : ((ofSources [("a", "\n"), ("b", "x\r\ny")]).locate 6).toOption =
    some ⟨⟨"b", "x\r\ny", 3⟩, 2, 0⟩ := by decide

end SourceMap

end SourceStamp
