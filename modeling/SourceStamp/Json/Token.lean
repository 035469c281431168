import SourceStamp.Json.Basic

/-! The tokens of a JSON text. A text is scanned one character at a time by `Scanner.step?`, so that
reading a text is a fold and reading two texts in a row is reading them one after the other. -/

set_option autoImplicit false

namespace SourceStamp.Json

inductive Token where
  | beginArray
  | endArray
  | beginObject
  | endObject
  | comma
  | colon
  | scalar (value : Json)

/-- A step of a string's content: a character, or a UTF-16 code unit given by its number. -/
inductive Piece where
  | plain (c : Char)
  | unit (value : Nat)

def isHighSurrogate (unit : Nat) : Bool := 0xD800 ≤ unit && unit < 0xDC00

def isLowSurrogate (unit : Nat) : Bool := 0xDC00 ≤ unit && unit < 0xE000

def joinSurrogates (high low : Nat) : Char :=
  Char.ofNat (0x10000 + (high - 0xD800) * 0x400 + (low - 0xDC00))

/-- The characters that the pieces spell, unless a surrogate lacks its partner. -/
def Piece.spell? : List Piece → Option (List Char)
  | [] => some []
  | .plain c :: rest => (spell? rest).map (c :: ·)
  | .unit high :: .unit low :: rest =>
    if isHighSurrogate high then
      if isLowSurrogate low then (spell? rest).map (joinSurrogates high low :: ·) else none
    else if isLowSurrogate high then none
    else (spell? (.unit low :: rest)).map (Char.ofNat high :: ·)
  | .unit value :: rest =>
    if isHighSurrogate value || isLowSurrogate value then none
    else (spell? rest).map (Char.ofNat value :: ·)

inductive NumberForm where
  | minus
  | zero
  | integer
  | point
  | fraction
  | exponentMark
  | exponentSign
  | exponent

namespace NumberForm

def next? : NumberForm → Char → Option NumberForm
  | .minus, c => if c = '0' then some .zero else if c.isDigit then some .integer else none
  | .zero, c => if c = '.' then some .point else if c = 'e' ∨ c = 'E' then some .exponentMark else none
  | .integer, c =>
    if c.isDigit then some .integer
    else if c = '.' then some .point
    else if c = 'e' ∨ c = 'E' then some .exponentMark
    else none
  | .point, c => if c.isDigit then some .fraction else none
  | .fraction, c =>
    if c.isDigit then some .fraction else if c = 'e' ∨ c = 'E' then some .exponentMark else none
  | .exponentMark, c =>
    if c = '+' ∨ c = '-' then some .exponentSign else if c.isDigit then some .exponent else none
  | .exponentSign, c => if c.isDigit then some .exponent else none
  | .exponent, c => if c.isDigit then some .exponent else none

def isComplete : NumberForm → Bool
  | .zero | .integer | .fraction | .exponent => true
  | _ => false

end NumberForm

/-- What is being read. Pieces and lexemes are held last first. -/
inductive Scan where
  | between
  | string (pieces : List Piece)
  | escape (pieces : List Piece)
  | codeUnit (pieces : List Piece) (value digitsLeft : Nat)
  | number (form : NumberForm) (lexeme : List Char)
  | word (rest : List Char) (value : Json)

structure Scanner where
  scan : Scan
  tokens : List Token

def isSpace (c : Char) : Bool := c = ' ' || c = '\t' || c = '\n' || c = '\r'

def hexValue? (c : Char) : Option Nat :=
  if c.isDigit then some (c.toNat - 48)
  else if 'a' ≤ c ∧ c ≤ 'f' then some (c.toNat - 87)
  else if 'A' ≤ c ∧ c ≤ 'F' then some (c.toNat - 55)
  else none

def escaped? (letter : Char) : Option Char :=
  if letter = '"' ∨ letter = '\\' ∨ letter = '/' then some letter
  else if letter = 'b' then some '\x08'
  else if letter = 'f' then some '\x0c'
  else if letter = 'n' then some '\n'
  else if letter = 'r' then some '\r'
  else if letter = 't' then some '\t'
  else none

namespace Scanner

def start : Scanner := ⟨.between, []⟩

def begin? (tokens : List Token) (c : Char) : Option Scanner :=
  if isSpace c then some ⟨.between, tokens⟩
  else if c = '[' then some ⟨.between, .beginArray :: tokens⟩
  else if c = ']' then some ⟨.between, .endArray :: tokens⟩
  else if c = '\x7b' then some ⟨.between, .beginObject :: tokens⟩
  else if c = '\x7d' then some ⟨.between, .endObject :: tokens⟩
  else if c = ',' then some ⟨.between, .comma :: tokens⟩
  else if c = ':' then some ⟨.between, .colon :: tokens⟩
  else if c = '"' then some ⟨.string [], tokens⟩
  else if c = '-' then some ⟨.number .minus [c], tokens⟩
  else if c = '0' then some ⟨.number .zero [c], tokens⟩
  else if c.isDigit then some ⟨.number .integer [c], tokens⟩
  else if c = 't' then some ⟨.word ['r', 'u', 'e'] (.bool true), tokens⟩
  else if c = 'f' then some ⟨.word ['a', 'l', 's', 'e'] (.bool false), tokens⟩
  else if c = 'n' then some ⟨.word ['u', 'l', 'l'] .null, tokens⟩
  else none

def stringToken (pieces : List Piece) : Token :=
  .scalar (.string ((Piece.spell? pieces.reverse).map String.ofList))

def numberToken (lexeme : List Char) : Token := .scalar (.number (String.ofList lexeme.reverse))

-- A number ends in front of the first character that cannot continue it.
def step? (scanner : Scanner) (c : Char) : Option Scanner :=
  let tokens := scanner.tokens
  match scanner.scan with
  | .between => begin? tokens c
  | .string pieces =>
    if c = '"' then some ⟨.between, stringToken pieces :: tokens⟩
    else if c = '\\' then some ⟨.escape pieces, tokens⟩
    else if c.toNat < 0x20 then none
    else some ⟨.string (.plain c :: pieces), tokens⟩
  | .escape pieces =>
    if c = 'u' then some ⟨.codeUnit pieces 0 4, tokens⟩
    else (escaped? c).map fun d => ⟨.string (.plain d :: pieces), tokens⟩
  | .codeUnit pieces value digitsLeft =>
    (hexValue? c).map fun digit =>
      let value := 16 * value + digit
      if digitsLeft ≤ 1 then ⟨.string (.unit value :: pieces), tokens⟩
      else ⟨.codeUnit pieces value (digitsLeft - 1), tokens⟩
  | .number form lexeme =>
    match form.next? c with
    | some form => some ⟨.number form (c :: lexeme), tokens⟩
    | none => if form.isComplete then begin? (numberToken lexeme :: tokens) c else none
  | .word [] value => begin? (.scalar value :: tokens) c
  | .word (letter :: rest) value =>
    if c ≠ letter then none
    else if rest.isEmpty then some ⟨.between, .scalar value :: tokens⟩
    else some ⟨.word rest value, tokens⟩

def finish? (scanner : Scanner) : Option (List Token) :=
  match scanner.scan with
  | .between => some scanner.tokens.reverse
  | .number form lexeme =>
    if form.isComplete then some (numberToken lexeme :: scanner.tokens).reverse else none
  | _ => none

end Scanner

def Token.scan? (text : List Char) : Option (List Token) :=
  text.foldlM Scanner.step? Scanner.start >>= Scanner.finish?

end SourceStamp.Json
