import SourceStamp.Json.Token

/-! From tokens to a JSON value. The open arrays and objects are kept as a stack of frames, so a
value may nest to any depth. -/

set_option autoImplicit false

namespace SourceStamp.Json

/-- An open array or object with its finished parts, last first; an object waits for the value of
`key`. -/
inductive Frame where
  | array (items : List Json)
  | object (members : List (Option String × Json)) (key : Option String)

inductive Goal where
  | needValue (stack : List Frame)
  | firstItem (stack : List Frame)
  | firstKey (stack : List Frame)
  | needKey (members : List (Option String × Json)) (stack : List Frame)
  | needColon (members : List (Option String × Json)) (key : Option String) (stack : List Frame)
  | after (value : Json) (stack : List Frame)

namespace Goal

def enter? (stack : List Frame) : Token → Option Goal
  | .scalar value => some (.after value stack)
  | .beginArray => some (.firstItem stack)
  | .beginObject => some (.firstKey stack)
  | _ => none

def step? : Goal → Token → Option Goal
  | .needValue stack, token => enter? stack token
  | .firstItem stack, .endArray => some (.after (.array []) stack)
  | .firstItem stack, token => enter? (.array [] :: stack) token
  | .firstKey stack, .endObject => some (.after (.object []) stack)
  | .firstKey stack, .scalar (.string key) => some (.needColon [] key stack)
  | .needKey members stack, .scalar (.string key) => some (.needColon members key stack)
  | .needColon members key stack, .colon => some (.needValue (.object members key :: stack))
  | .after value (.array items :: stack), .comma => some (.needValue (.array (value :: items) :: stack))
  | .after value (.array items :: stack), .endArray =>
    some (.after (.array (value :: items).reverse) stack)
  | .after value (.object members key :: stack), .comma =>
    some (.needKey ((key, value) :: members) stack)
  | .after value (.object members key :: stack), .endObject =>
    some (.after (.object ((key, value) :: members).reverse) stack)
  | _, _ => none

def finish? : Goal → Option Json
  | .after value [] => some value
  | _ => none

end Goal

def ofTokens? (tokens : List Token) : Option Json :=
  tokens.foldlM Goal.step? (.needValue []) >>= Goal.finish?

def read? (text : String) : Option Json := Token.scan? text.toList >>= ofTokens?

end SourceStamp.Json
