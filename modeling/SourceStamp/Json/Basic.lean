/-! JSON values. A number keeps its spelling and an object the order and repetitions of its members,
so a value that is only passed on comes out as it went in. -/

set_option autoImplicit false

namespace SourceStamp

/-- A text is `none` where its escapes hold half of a surrogate pair only: that is well-formed JSON,
but no sequence of characters. -/
inductive Json where
  | null
  | bool (value : Bool)
  | number (lexeme : String)
  | string (text : Option String)
  | array (items : List Json)
  | object (members : List (Option String × Json))
  deriving Inhabited

namespace Json

def ofText (text : String) : Json := .string (some text)

def ofNat (n : Nat) : Json := .number (toString n)

def ofFields (fields : List (String × Json)) : Json :=
  .object (fields.map fun (key, value) => (some key, value))

def member? (name : String) : Json → Option Json
  | .object members => members.findSome? fun (key, value) => if key = some name then some value else none
  | _ => none

def text? : Json → Option String
  | .string text => text
  | _ => none

def bool? : Json → Option Bool
  | .bool value => some value
  | _ => none

def items? : Json → Option (List Json)
  | .array items => some items
  | _ => none

-- A number that is spelled with digits alone.
def nat? : Json → Option Nat
  | .number lexeme =>
    let digits := lexeme.toList
    if digits.isEmpty || !digits.all Char.isDigit then none
    else some (digits.foldl (fun n digit => 10 * n + (digit.toNat - 48)) 0)
  | _ => none

end Json

end SourceStamp
