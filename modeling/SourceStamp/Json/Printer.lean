import SourceStamp.Json.Basic
import SourceStamp.Text.Quoted

/-! Compact JSON text: no space between tokens, and only the characters escaped that must be. -/

set_option autoImplicit false

namespace SourceStamp.Json

def renderChar (c : Char) : List Char :=
  if c = '"' then ['\\', '"']
  else if c = '\\' then ['\\', '\\']
  else if c = '\x08' then ['\\', 'b']
  else if c = '\x0c' then ['\\', 'f']
  else if c = '\n' then ['\\', 'n']
  else if c = '\r' then ['\\', 'r']
  else if c = '\t' then ['\\', 't']
  else if c.toNat < 0x20 then
    ['\\', 'u', '0', '0', Text.hexDigit (c.toNat / 16), Text.hexDigit (c.toNat % 16)]
  else [c]

/-- A text without characters is written as half of a surrogate pair, and so reads back. -/
def renderText : Option String → List Char
  | some text => '"' :: (text.toList.flatMap renderChar ++ ['"'])
  | none => '"' :: ("\\ud800".toList ++ ['"'])

mutual

def renderChars : Json → List Char
  | .null => "null".toList
  | .bool value => if value then "true".toList else "false".toList
  | .number lexeme => lexeme.toList
  | .string text => renderText text
  | .array items => '[' :: (renderItems items ++ [']'])
  | .object members => '\x7b' :: (renderMembers members ++ ['\x7d'])

def renderItems : List Json → List Char
  | [] => []
  | [item] => renderChars item
  | item :: rest => renderChars item ++ ',' :: renderItems rest

def renderMembers : List (Option String × Json) → List Char
  | [] => []
  | [(key, value)] => renderText key ++ ':' :: renderChars value
  | (key, value) :: rest => renderText key ++ ':' :: renderChars value ++ ',' :: renderMembers rest

end

def render (value : Json) : String := String.ofList value.renderChars

end SourceStamp.Json
