import SourceStamp.Proofs.Json.Lexing
import SourceStamp.Proofs.Text.Trimming

/-! The margins of a JSON text. No token begins or ends with white space of any kind, so trimming a text
takes away the spaces of the grammar only, and what is left is made of the same tokens.
-/

set_option autoImplicit false

namespace SourceStamp.Json

open Text (isBlank IsTrimmed)

theorem isBlank_of_mem_spaces {spaces : List Char} (isSpaces : IsSpaces spaces) : ∀ c ∈ spaces, isBlank c := by
  have all : [' ', '\t', '\n', '\r'].all isBlank := by decide
  exact fun c member => List.all_eq_true.1 all c (isSpaces c member)

theorem not_isBlank_of_isDigit {c : Char} (digit : c.isDigit) : isBlank c = false := by
  have low : 48 ≤ c.toNat := (Char.isDigit_iff_toNat.1 digit).1
  have high : c.toNat ≤ 57 := (Char.isDigit_iff_toNat.1 digit).2
  simp only [isBlank, Text.blankRanges, List.any_cons, List.any_nil, Bool.or_false,
    Bool.or_eq_false_iff, Bool.and_eq_false_iff, decide_eq_false_iff_not]
  omega

theorem any_isBlank_of_digits {text : List Char} (digits : ∀ c ∈ text, c.isDigit) :
    text.any isBlank = false :=
  List.any_eq_false.2 fun c member => Bool.eq_false_iff.1 (not_isBlank_of_isDigit (digits c member))

theorem IsInteger.any_isBlank {text : List Char} (integer : IsInteger text) : text.any isBlank = false := by
  cases integer with
  | zero => decide
  | digits first _ rest => exact any_isBlank_of_digits (List.forall_mem_cons.2 ⟨first, rest⟩)

theorem IsFraction.any_isBlank {text : List Char} (fraction : IsFraction text) : text.any isBlank = false := by
  cases fraction with
  | absent => rfl
  | digits digits =>
    rw [List.any_cons, any_isBlank_of_digits digits.2]
    decide

theorem IsExponent.any_isBlank {text : List Char} (exponent : IsExponent text) : text.any isBlank = false := by
  cases exponent with
  | absent => rfl
  | @digits mark sign digits isMark isSign isDigits =>
    have marks : ['e', 'E'].any isBlank = false := by decide
    have signs : [[], ['+'], ['-']].any (fun sign => sign.any isBlank) = false := by decide
    have isMark := Bool.eq_false_iff.2 (List.any_eq_false.1 marks mark isMark)
    have isSign := Bool.eq_false_iff.2 (List.any_eq_false.1 signs sign isSign)
    rw [List.any_cons, List.any_append, isMark, isSign, any_isBlank_of_digits isDigits.2]
    rfl

theorem IsNumber.any_isBlank {text : List Char} (number : IsNumber text) : text.any isBlank = false := by
  obtain ⟨isSign, integer, fraction, exponent⟩ := number
  have signs : [[], ['-']].any (fun sign => sign.any isBlank) = false := by decide
  have isSign := Bool.eq_false_iff.2 (List.any_eq_false.1 signs _ isSign)
  rw [List.any_append, List.any_append, List.any_append, isSign, integer.any_isBlank, fraction.any_isBlank,
    exponent.any_isBlank]
  rfl

theorem IsInteger.ne_nil {text : List Char} (integer : IsInteger text) : text ≠ [] := by
  cases integer with
  | zero | digits => exact List.cons_ne_nil _ _

theorem IsNumber.ne_nil {text : List Char} (number : IsNumber text) : text ≠ [] := by
  obtain ⟨_, integer, _, _⟩ := number
  simp [integer.ne_nil]

theorem isTrimmed_mark {token : Token} {c : Char} (mark : token.mark? = some c) : IsTrimmed [c] := by
  refine Text.isTrimmed_of_any ?_
  cases token with
  | scalar => contradiction
  | beginArray | endArray | beginObject | endObject | comma | colon =>
    cases mark
    decide

theorem Token.Spelling.ne_nil {token : Token} {part : List Char} (spelled : token.Spelling part) :
    part ≠ [] := by
  cases spelled with
  | mark | null | true | false | string => exact List.cons_ne_nil _ _
  | number number => exact number.ne_nil

theorem Token.Spelling.isTrimmed {token : Token} {part : List Char} (spelled : token.Spelling part) :
    IsTrimmed part := by
  have quote : IsTrimmed ['"'] := Text.isTrimmed_of_any (by decide)
  cases spelled with
  | mark mark => exact isTrimmed_mark mark
  | null | true | false => exact Text.isTrimmed_of_any (by decide)
  | number number => exact Text.isTrimmed_of_any number.any_isBlank
  | @string text content _ => exact quote.append quote (List.cons_ne_nil _ _) (List.cons_ne_nil _ _) content

theorem Lexed.exists_core {tokens : List Token} {text : List Char} (lexed : Lexed tokens text)
    (some_ : tokens ≠ []) : ∃ before core after, text = before ++ core ++ after ∧ IsSpaces before ∧
      IsSpaces after ∧ Lexed tokens core ∧ core ≠ [] ∧ IsTrimmed core := by
  induction lexed with
  | nil => contradiction
  | @cons token tokens spaces part text isSpaces spelled lexed ih =>
    have noSpaces : IsSpaces [] := nofun
    cases lexed with
    | nil isSpaces' =>
      have alone : Lexed [token] part := by
        have alone := Lexed.cons noSpaces spelled (.nil noSpaces)
        rwa [List.append_nil, List.nil_append] at alone
      exact ⟨spaces, part, _, (List.append_assoc ..).symm, isSpaces, isSpaces', alone, spelled.ne_nil,
        spelled.isTrimmed⟩
    | cons =>
      obtain ⟨before, core, after, same, isSpaces', isSpaces'', lexed, ne_nil, isTrimmed⟩ :=
        ih (List.cons_ne_nil _ _)
      have whole := Lexed.cons noSpaces spelled (lexed.prepend_spaces isSpaces')
      refine ⟨spaces, part ++ (before ++ core), after, ?_, isSpaces, isSpaces'', whole, ?_, ?_⟩
      · rw [same]
        simp
      · simp [ne_nil]
      · exact spelled.isTrimmed.append isTrimmed spelled.ne_nil ne_nil before

theorem Lexed.trim {tokens : List Token} {text : List Char} (lexed : Lexed tokens text)
    (some_ : tokens ≠ []) : Text.trim text ≠ [] ∧ Lexed tokens (Text.trim text) := by
  obtain ⟨before, core, after, rfl, isSpaces, isSpaces', lexed, ne_nil, isTrimmed⟩ := lexed.exists_core some_
  rw [Text.trim_append (isBlank_of_mem_spaces isSpaces) (isBlank_of_mem_spaces isSpaces'), isTrimmed.trim]
  exact ⟨ne_nil, lexed⟩

theorem tokens_ne_nil (value : Json) : value.tokens ≠ [] := by
  cases value with
  | null | bool | number | string | array | object => exact List.cons_ne_nil _ _

theorem Spelling.trim {value : Json} {text : List Char} (spelled : value.Spelling text) :
    Text.trim text ≠ [] ∧ value.Spelling (Text.trim text) :=
  Lexed.trim spelled (tokens_ne_nil value)

end SourceStamp.Json
