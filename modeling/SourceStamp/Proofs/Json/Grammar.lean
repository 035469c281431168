import SourceStamp.Json.Token
import SourceStamp.Proofs.Text.Reading

/-! The grammar of JSON, apart from the machines that read it. A value is a row of tokens, and a text is a
row of tokens with white space wherever two of them meet and at both ends. What a string says is settled
one character at a time, since each of them has several spellings.
-/

set_option autoImplicit false

namespace SourceStamp.Json

inductive Row {α : Type} (Spelling : α → List Char → Prop) : List α → List Char → Prop
  | nil : Row Spelling [] []
  | cons {first : α} {rest : List α} {part text : List Char} : Spelling first part →
      Row Spelling rest text → Row Spelling (first :: rest) (part ++ text)

def IsDigits (text : List Char) : Prop := text ≠ [] ∧ ∀ c ∈ text, c.isDigit

/-- No digit stands behind a zero that begins an integer. -/
inductive IsInteger : List Char → Prop
  | zero : IsInteger ['0']
  | digits {first : Char} {rest : List Char} : first.isDigit → first ≠ '0' → (∀ c ∈ rest, c.isDigit) →
      IsInteger (first :: rest)

inductive IsFraction : List Char → Prop
  | absent : IsFraction []
  | digits {digits : List Char} : IsDigits digits → IsFraction ('.' :: digits)

inductive IsExponent : List Char → Prop
  | absent : IsExponent []
  | digits {mark : Char} {sign digits : List Char} : mark ∈ ['e', 'E'] →
      sign ∈ [[], ['+'], ['-']] → IsDigits digits → IsExponent (mark :: (sign ++ digits))

inductive IsNumber : List Char → Prop
  | mk {sign whole fraction exponent : List Char} : sign ∈ [[], ['-']] → IsInteger whole →
      IsFraction fraction → IsExponent exponent → IsNumber (sign ++ (whole ++ fraction ++ exponent))

def IsHexDigit (value : Nat) (c : Char) : Prop :=
  "0123456789abcdef".toList[value]? = some c ∨ "0123456789ABCDEF".toList[value]? = some c

instance (value : Nat) (c : Char) : Decidable (IsHexDigit value c) := inferInstanceAs (Decidable (_ ∨ _))

def shortEscapes : List (Char × Char) :=
  [('"', '"'), ('\\', '\\'), ('/', '/'), ('b', '\x08'), ('f', '\x0c'), ('n', '\n'), ('r', '\r'),
   ('t', '\t')]

inductive Piece.Spelling : Piece → List Char → Prop
  | plain {c : Char} : c ≠ '"' → c ≠ '\\' → 0x20 ≤ c.toNat → Spelling (.plain c) [c]
  | short {letter c : Char} : (letter, c) ∈ shortEscapes → Spelling (.plain c) ['\\', letter]
  | unit {a b c d : Char} {w x y z : Nat} : IsHexDigit w a → IsHexDigit x b → IsHexDigit y c →
      IsHexDigit z d →
      Spelling (.unit (0x1000 * w + 0x100 * x + 0x10 * y + z)) ['\\', 'u', a, b, c, d]

/-- A character is written as it is, by a letter behind a backslash, or by the numbers of its UTF-16
units. -/
inductive CharSpelling (c : Char) : List Char → Prop
  | piece {part : List Char} : Piece.Spelling (.plain c) part → CharSpelling c part
  | units {part : List Char} : Row Piece.Spelling ((Text.unitsOf c.toNat).map .unit) part →
      CharSpelling c part

/-- What stands between the quotes of a string: a text, or pieces that are none because one of them is
half of a surrogate pair. -/
inductive StringSpelling : Option String → List Char → Prop
  | text {text : String} {content : List Char} : Row CharSpelling text.toList content →
      StringSpelling (some text) content
  | broken {pieces : List Piece} {content : List Char} : Row Piece.Spelling pieces content →
      (∀ text, ¬ Row CharSpelling text content) → StringSpelling none content

def Token.mark? : Token → Option Char
  | .beginArray => some '['
  | .endArray => some ']'
  | .beginObject => some '\x7b'
  | .endObject => some '\x7d'
  | .comma => some ','
  | .colon => some ':'
  | .scalar _ => none

inductive Token.Spelling : Token → List Char → Prop
  | mark {token : Token} {c : Char} : token.mark? = some c → Spelling token [c]
  | null : Spelling (.scalar .null) "null".toList
  | true : Spelling (.scalar (.bool true)) "true".toList
  | false : Spelling (.scalar (.bool false)) "false".toList
  | number {lexeme : List Char} : IsNumber lexeme →
      Spelling (.scalar (.number (String.ofList lexeme))) lexeme
  | string {text : Option String} {content : List Char} : StringSpelling text content →
      Spelling (.scalar (.string text)) ('"' :: (content ++ ['"']))

def IsSpaces (text : List Char) : Prop := ∀ c ∈ text, c ∈ [' ', '\t', '\n', '\r']

/-- The text consists of the tokens, with any white space between them and at the ends. -/
inductive Lexed : List Token → List Char → Prop
  | nil {spaces : List Char} : IsSpaces spaces → Lexed [] spaces
  | cons {token : Token} {tokens : List Token} {spaces part text : List Char} : IsSpaces spaces →
      token.Spelling part → Lexed tokens text → Lexed (token :: tokens) (spaces ++ (part ++ text))

mutual

def tokens : Json → List Token
  | .array items => .beginArray :: (itemTokens items ++ [.endArray])
  | .object members => .beginObject :: (memberTokens members ++ [.endObject])
  | value => [.scalar value]

def itemTokens : List Json → List Token
  | [] => []
  | [item] => item.tokens
  | item :: rest => item.tokens ++ .comma :: itemTokens rest

def memberTokens : List (Option String × Json) → List Token
  | [] => []
  | [(key, value)] => .scalar (.string key) :: .colon :: value.tokens
  | (key, value) :: rest => .scalar (.string key) :: .colon :: (value.tokens ++ .comma :: memberTokens rest)

end

def Spelling (value : Json) (text : List Char) : Prop := Lexed value.tokens text

namespace Row

variable {α : Type} {Spelling : α → List Char → Prop} {first second : List α} {text text' : List Char}

theorem append (front : Row Spelling first text) (back : Row Spelling second text') :
    Row Spelling (first ++ second) (text ++ text') := by
  induction front with
  | nil => exact back
  | cons part _ ih =>
    rw [List.append_assoc]
    exact .cons part ih

theorem single {one : α} {part : List Char} (spelled : Spelling one part) : Row Spelling [one] part := by
  have row := Row.cons spelled .nil
  rwa [List.append_nil] at row

end Row

namespace Lexed

variable {tokens : List Token} {text spaces part : List Char}

theorem concat {token : Token} (lexed : Lexed tokens text) (spelled : token.Spelling part) :
    Lexed (tokens ++ [token]) (text ++ part) := by
  induction lexed with
  | nil isSpaces =>
    have last := Lexed.cons isSpaces spelled (.nil nofun : Lexed [] [])
    rwa [List.append_nil] at last
  | cons isSpaces first _ ih =>
    rw [List.append_assoc, List.append_assoc]
    exact .cons isSpaces first ih

theorem append_spaces (lexed : Lexed tokens text) (isSpaces : IsSpaces spaces) :
    Lexed tokens (text ++ spaces) := by
  induction lexed with
  | nil before => exact .nil (List.forall_mem_append.2 ⟨before, isSpaces⟩)
  | cons before first _ ih =>
    rw [List.append_assoc, List.append_assoc]
    exact .cons before first ih

theorem prepend_spaces (isSpaces : IsSpaces spaces) (lexed : Lexed tokens text) :
    Lexed tokens (spaces ++ text) := by
  cases lexed with
  | nil isSpaces' => exact .nil (List.forall_mem_append.2 ⟨isSpaces, isSpaces'⟩)
  | cons isSpaces' spelled lexed =>
    rw [← List.append_assoc]
    exact .cons (List.forall_mem_append.2 ⟨isSpaces, isSpaces'⟩) spelled lexed

end Lexed

end SourceStamp.Json
