/-! Location tags: the text that is put in front of a logged or thrown message. -/

set_option autoImplicit false

namespace SourceStamp.Tag

/-- The tag of a place: line and column count from one. -/
def format (path : String) (line col : Nat) : String :=
  "[" ++ path ++ ":" ++ toString line ++ ":" ++ toString col ++ "] "

def unknown : String := format "unknown" 0 0

example : unknown = "[unknown:0:0] " := by decide

end SourceStamp.Tag
