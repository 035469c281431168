/-! Ranges of positions. The texts of all files are laid end to end, and a position is the number of
a byte in that row. -/

set_option autoImplicit false

namespace SourceStamp

/-- The position of the first byte, and the position behind the last one. -/
structure Span where
  start : Nat
  stop : Nat
  deriving DecidableEq

namespace Span

def dummy : Span := ⟨0, 0⟩

-- Positions from here on stand for no text.
def reserved : Nat := 4294901759

def isDummy (span : Span) : Bool := span == dummy || reserved ≤ span.start

def between (a b : Nat) : Span := if a ≤ b then ⟨a, b⟩ else ⟨b, a⟩

end Span

end SourceStamp
