import SourceStamp.SourceMap.Basic

/-! The source map of a single file whose places and texts are listed one by one. -/

set_option autoImplicit false

namespace SourceStamp

structure LookupTable where
  file : SourceFile
  -- Position, line and column.
  places : List (Nat × Nat × Nat)
  snippets : List (Span × String)

namespace LookupTable

/-- What is not listed stands at the start of the first line. -/
def locate (table : LookupTable) (pos : Nat) : Location :=
  match table.places.lookup pos with
  | some (line, col) => ⟨table.file, line, col⟩
  | none => ⟨table.file, 1, 0⟩

def sourceMap (table : LookupTable) : SourceMap :=
  { locate := fun pos => .ok (table.locate pos)
    snippet? := fun span => .ok (table.snippets.lookup span) }

end LookupTable

end SourceStamp
