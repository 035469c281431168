import Mathlib.Data.List.Basic
import SourceStamp.Proofs.Json.Grammar
import SourceStamp.Proofs.Outcome

/-! Strings. A content is split into pieces in one way only, since the scanner finds every row of pieces
that spells it, and the pieces make up a text exactly if the content spells one.
-/

set_option autoImplicit false

namespace SourceStamp.Json

namespace Scanner

variable (tokens : List Token) (pieces : List Piece) (c : Char)

theorem step?_string : step? ⟨.string pieces, tokens⟩ c =
    if c = '"' then some ⟨.between, stringToken pieces :: tokens⟩
    else if c = '\\' then some ⟨.escape pieces, tokens⟩
    else if c.toNat < 0x20 then none
    else some ⟨.string (.plain c :: pieces), tokens⟩ := rfl

theorem step?_escape : step? ⟨.escape pieces, tokens⟩ c =
    if c = 'u' then some ⟨.codeUnit pieces 0 4, tokens⟩
    else (escaped? c).map fun d => ⟨.string (.plain d :: pieces), tokens⟩ := rfl

theorem step?_codeUnit (value digitsLeft : Nat) : step? ⟨.codeUnit pieces value digitsLeft, tokens⟩ c =
    (hexValue? c).map fun digit =>
      if digitsLeft ≤ 1 then ⟨.string (.unit (16 * value + digit) :: pieces), tokens⟩
      else ⟨.codeUnit pieces (16 * value + digit) (digitsLeft - 1), tokens⟩ := rfl

end Scanner

theorem toNat_lt_of_hexValue? {value : Nat} {c : Char} (read : hexValue? c = some value) : c.toNat < 128 := by
  have upTo {d : Char} (small : d.toNat < 128) (le : c.toNat ≤ d.toNat) : c.toNat < 128 :=
    Nat.lt_of_le_of_lt le small
  unfold hexValue? at read
  rcases ite_eq_iff.1 read with ⟨digit, -⟩ | ⟨-, read⟩
  · exact upTo (by decide) (Char.isDigit_iff_toNat.1 digit).2
  rcases ite_eq_iff.1 read with ⟨lower, -⟩ | ⟨-, read⟩
  · exact upTo (by decide) lower.2
  rcases ite_eq_iff.1 read with ⟨upper, -⟩ | ⟨-, read⟩
  · exact upTo (by decide) upper.2
  · contradiction

theorem hexValue?_eq_some_iff {value : Nat} {c : Char} : hexValue? c = some value ↔ IsHexDigit value c := by
  constructor
  · intro read
    have table : ∀ n < 128, (hexValue? (Char.ofNat n)).all fun value =>
        decide (IsHexDigit value (Char.ofNat n)) := by decide +kernel
    have here := table c.toNat (toNat_lt_of_hexValue? read)
    rw [Char.ofNat_toNat, read] at here
    exact of_decide_eq_true here
  · intro digit
    have table (digits : List Char) (good : ∀ n < 16, digits[n]?.bind hexValue? = some n)
        (count : digits.length = 16) (found : digits[value]? = some c) : hexValue? c = some value := by
      have bound := (List.getElem?_eq_some_iff.1 found).1
      have here := good value (count ▸ bound)
      rwa [found] at here
    rcases digit with lower | upper
    · exact table _ (by decide) (by decide) lower
    · exact table _ (by decide) (by decide) upper

theorem IsHexDigit.lt {value : Nat} {c : Char} (digit : IsHexDigit value c) : value < 16 := by
  rcases digit with lower | upper
  · exact (List.getElem?_eq_some_iff.1 lower).1
  · exact (List.getElem?_eq_some_iff.1 upper).1

theorem escaped?_eq_some_iff {letter c : Char} : escaped? letter = some c ↔ (letter, c) ∈ shortEscapes := by
  constructor
  · intro read
    unfold escaped? at read
    split at read
    · cases read
      rcases ‹letter = _ ∨ _› with rfl | rfl | rfl <;> decide
    · split_ifs at read <;> cases read <;> subst letter <;> decide
  · intro member
    have table : ∀ pair ∈ shortEscapes, escaped? pair.1 = some pair.2 := by decide
    exact table _ member

namespace Piece

theorem Spelling.lt {value : Nat} {part : List Char} (spelled : Piece.Spelling (.unit value) part) :
    value < 0x10000 := by
  cases spelled with
  | unit first second third fourth =>
    have first := first.lt
    have second := second.lt
    have third := third.lt
    have fourth := fourth.lt
    omega

theorem Spelling.of_digits {values : List Nat} {digits : List Char}
    (isDigits : List.Forall₂ IsHexDigit values digits) (count : values.length = 4) :
    Piece.Spelling (.unit (values.foldl (16 * · + ·) 0)) ('\\' :: 'u' :: digits) := by
  obtain ⟨w, x, y, z, rfl⟩ := List.length_eq_four.1 count
  obtain _ | ⟨first, _ | ⟨second, _ | ⟨third, _ | ⟨fourth, _ | _⟩⟩⟩⟩ := isDigits
  have value : [w, x, y, z].foldl (16 * · + ·) 0 = 0x1000 * w + 0x100 * x + 0x10 * y + z := by
    simp only [List.foldl_cons, List.foldl_nil]
    omega
  rw [value]
  exact .unit first second third fourth

theorem Spelling.foldlM {piece : Piece} {part : List Char} (spelled : piece.Spelling part)
    (pieces : List Piece) (tokens : List Token) :
    part.foldlM Scanner.step? ⟨.string pieces, tokens⟩ = some ⟨.string (piece :: pieces), tokens⟩ := by
  cases spelled with
  | @plain c quote backslash visible =>
    have step : Scanner.step? ⟨.string pieces, tokens⟩ c = some ⟨.string (.plain c :: pieces), tokens⟩ := by
      rw [Scanner.step?_string, if_neg quote, if_neg backslash, if_neg (Nat.not_lt.2 visible)]
    rw [foldlM_cons_of_some step]
    rfl
  | @short letter c listed =>
    have begins : Scanner.step? ⟨.string pieces, tokens⟩ '\\' = some ⟨.escape pieces, tokens⟩ := rfl
    have letters : letter ≠ 'u' := by
      rintro rfl
      have read : escaped? 'u' = some c := escaped?_eq_some_iff.2 listed
      contradiction
    have ends : Scanner.step? ⟨.escape pieces, tokens⟩ letter = some ⟨.string (.plain c :: pieces), tokens⟩ := by
      rw [Scanner.step?_escape, if_neg letters, escaped?_eq_some_iff.2 listed]
      rfl
    rw [foldlM_cons_of_some begins, foldlM_cons_of_some ends]
    rfl
  | @unit a b c d w x y z first second third fourth =>
    have begins : ['\\', 'u'].foldlM Scanner.step? ⟨.string pieces, tokens⟩ =
        some ⟨.codeUnit pieces 0 4, tokens⟩ := rfl
    have digit {c : Char} {value : Nat} (isDigit : IsHexDigit value c) (before left : Nat) :
        Scanner.step? ⟨.codeUnit pieces before (left + 2), tokens⟩ c =
          some ⟨.codeUnit pieces (16 * before + value) (left + 1), tokens⟩ := by
      rw [Scanner.step?_codeUnit, hexValue?_eq_some_iff.2 isDigit, Option.map_some]
      exact congrArg some (if_neg (by omega))
    have last {c : Char} {value : Nat} (isDigit : IsHexDigit value c) (before : Nat) :
        Scanner.step? ⟨.codeUnit pieces before 1, tokens⟩ c =
          some ⟨.string (.unit (16 * before + value) :: pieces), tokens⟩ := by
      rw [Scanner.step?_codeUnit, hexValue?_eq_some_iff.2 isDigit, Option.map_some]
      rfl
    have value : 16 * (16 * (16 * (16 * 0 + w) + x) + y) + z = 0x1000 * w + 0x100 * x + 0x10 * y + z := by
      omega
    show (['\\', 'u'] ++ [a, b, c, d]).foldlM Scanner.step? _ = _
    rw [foldlM_append_of_some begins, foldlM_cons_of_some (digit first 0 2),
      foldlM_cons_of_some (digit second _ 1), foldlM_cons_of_some (digit third _ 0),
      foldlM_cons_of_some (last fourth _), value]
    rfl

theorem foldlM_row {row : List Piece} {content : List Char} (spelled : Row Piece.Spelling row content)
    (pieces : List Piece) (tokens : List Token) : content.foldlM Scanner.step? ⟨.string pieces, tokens⟩ =
      some ⟨.string (row.reverse ++ pieces), tokens⟩ := by
  induction spelled generalizing pieces with
  | nil => rfl
  | @cons piece rest part text first _ ih =>
    rw [foldlM_append_of_some (first.foldlM pieces tokens), List.reverse_cons, List.append_assoc]
    exact ih (piece :: pieces)

theorem row_unique {row row' : List Piece} {content : List Char} (spelled : Row Piece.Spelling row content)
    (spelled' : Row Piece.Spelling row' content) : row = row' := by
  have same := (foldlM_row spelled [] []).symm.trans (foldlM_row spelled' [] [])
  simpa using same

theorem toNat_ofNat {n : Nat} (valid : n.isValidChar) : (Char.ofNat n).toNat = n := by
  rw [Char.ofNat, dif_pos valid]
  rfl

theorem unitsOf_ofNat {value : Nat} (small : value < 0x10000)
    (alone : (isHighSurrogate value || isLowSurrogate value) = false) :
    Text.unitsOf (Char.ofNat value).toNat = [value] := by
  simp only [isHighSurrogate, isLowSurrogate, Bool.or_eq_false_iff, Bool.and_eq_false_iff,
    decide_eq_false_iff_not] at alone
  have valid : value.isValidChar := by
    unfold Nat.isValidChar
    omega
  rw [toNat_ofNat valid, Text.unitsOf, if_pos small]

theorem unitsOf_joinSurrogates {high low : Nat} (isHigh : isHighSurrogate high)
    (isLow : isLowSurrogate low) : Text.unitsOf (joinSurrogates high low).toNat = [high, low] := by
  simp only [isHighSurrogate, isLowSurrogate, Bool.and_eq_true, decide_eq_true_eq] at isHigh isLow
  have valid : (0x10000 + (high - 0xD800) * 0x400 + (low - 0xDC00)).isValidChar := by
    unfold Nat.isValidChar
    omega
  rw [joinSurrogates, toNat_ofNat valid, Text.unitsOf, if_neg (by omega)]
  have first : 0xD800 + (0x10000 + (high - 0xD800) * 0x400 + (low - 0xDC00) - 0x10000) / 0x400 = high := by
    omega
  have second : 0xDC00 + (0x10000 + (high - 0xD800) * 0x400 + (low - 0xDC00) - 0x10000) % 0x400 = low := by
    omega
  rw [first, second]

theorem spell?_unit_cons {value : Nat} (alone : (isHighSurrogate value || isLowSurrogate value) = false)
    (rest : List Piece) :
    spell? (.unit value :: rest) = (spell? rest).map (Char.ofNat value :: ·) := by
  have apart := Bool.or_eq_false_iff.1 alone
  rcases rest with _ | ⟨_ | low, rest⟩
  · simp [spell?, apart]
  · simp [spell?, apart]
  · simp [spell?, apart]

theorem spell?_unitsOf (c : Char) (rest : List Piece) :
    spell? ((Text.unitsOf c.toNat).map .unit ++ rest) = (spell? rest).map (c :: ·) := by
  have valid : c.toNat < 0xD800 ∨ 0xDFFF < c.toNat ∧ c.toNat < 0x110000 := c.valid
  unfold Text.unitsOf
  split
  · have alone : (isHighSurrogate c.toNat || isLowSurrogate c.toNat) = false := by
      simp only [isHighSurrogate, isLowSurrogate, Bool.or_eq_false_iff, Bool.and_eq_false_iff,
        decide_eq_false_iff_not]
      omega
    have read := spell?_unit_cons alone rest
    rwa [Char.ofNat_toNat] at read
  · have high : isHighSurrogate (0xD800 + (c.toNat - 0x10000) / 0x400) := by
      simp only [isHighSurrogate, Bool.and_eq_true, decide_eq_true_eq]
      omega
    have low : isLowSurrogate (0xDC00 + (c.toNat - 0x10000) % 0x400) := by
      simp only [isLowSurrogate, Bool.and_eq_true, decide_eq_true_eq]
      omega
    have joined : joinSurrogates (0xD800 + (c.toNat - 0x10000) / 0x400)
        (0xDC00 + (c.toNat - 0x10000) % 0x400) = c := by
      have number : 0x10000 + (0xD800 + (c.toNat - 0x10000) / 0x400 - 0xD800) * 0x400 +
          (0xDC00 + (c.toNat - 0x10000) % 0x400 - 0xDC00) = c.toNat := by omega
      rw [joinSurrogates, number, Char.ofNat_toNat]
    show spell? (.unit _ :: .unit _ :: rest) = _
    rw [spell?, if_pos high, if_pos low, joined]

end Piece

open Piece

-- A character's own piece and the units of its number spell the same character in front of any text.
theorem CharSpelling.exists_row {c : Char} {part : List Char} (spelled : CharSpelling c part) :
    ∃ row, Row Piece.Spelling row part ∧ ∀ rest, spell? (row ++ rest) = (spell? rest).map (c :: ·) := by
  cases spelled with
  | piece piece => exact ⟨[.plain c], .single piece, fun rest => by rw [List.singleton_append, spell?]⟩
  | units row => exact ⟨_, row, spell?_unitsOf c⟩

theorem exists_row_of_charSpelling {text content : List Char} (spelled : Row CharSpelling text content) :
    ∃ row, Row Piece.Spelling row content ∧ spell? row = some text := by
  induction spelled with
  | nil => exact ⟨[], .nil, rfl⟩
  | cons first _ ih =>
    obtain ⟨front, firstRow, reads⟩ := first.exists_row
    obtain ⟨row, restRow, rest⟩ := ih
    refine ⟨front ++ row, firstRow.append restRow, ?_⟩
    rw [reads, rest, Option.map_some]

theorem charSpelling_of_alone {value : Nat} {rest : List Piece} {text content : List Char}
    (alone : (isHighSurrogate value || isLowSurrogate value) = false)
    (ih : ∀ {text content : List Char}, Row Piece.Spelling rest content → spell? rest = some text →
      Row CharSpelling text content)
    (spelled : Row Piece.Spelling (.unit value :: rest) content)
    (reads : spell? (.unit value :: rest) = some text) : Row CharSpelling text content := by
  rw [spell?_unit_cons alone, Option.map_eq_some_iff] at reads
  obtain ⟨text, rest, rfl⟩ := reads
  cases spelled with
  | cons first row =>
    refine .cons (.units ?_) (ih row rest)
    rw [unitsOf_ofNat first.lt alone]
    exact .single first

theorem charSpelling_of_row {row : List Piece} {text content : List Char}
    (spelled : Row Piece.Spelling row content) (reads : spell? row = some text) :
    Row CharSpelling text content := by
  -- Two units are taken at once where they make up a pair, so the induction is that of the reader.
  induction row using spell?.induct generalizing text content with
  | case1 =>
    cases reads
    cases spelled
    exact .nil
  | case2 c rest ih =>
    rw [spell?, Option.map_eq_some_iff] at reads
    obtain ⟨text, rest, rfl⟩ := reads
    cases spelled with
    | cons first row => exact .cons (.piece first) (ih row rest)
  | case3 high low rest isHigh isLow ih =>
    rw [spell?, if_pos isHigh, if_pos isLow, Option.map_eq_some_iff] at reads
    obtain ⟨text, rest, rfl⟩ := reads
    cases spelled with
    | cons first row =>
      cases row with
      | cons second row =>
        rw [← List.append_assoc]
        refine .cons (.units ?_) (ih row rest)
        rw [unitsOf_joinSurrogates isHigh isLow]
        exact .cons first (.single second)
  | case4 high low rest isHigh isLow =>
    rw [spell?, if_pos isHigh, if_neg isLow] at reads
    contradiction
  | case5 high low rest notHigh isLow =>
    rw [spell?, if_neg notHigh, if_pos isLow] at reads
    contradiction
  | case6 high low rest notHigh notLow ih =>
    have alone := Bool.or_eq_false_iff.2 ⟨Bool.eq_false_iff.2 notHigh, Bool.eq_false_iff.2 notLow⟩
    exact charSpelling_of_alone alone ih spelled reads
  | case7 value rest last surrogate =>
    rw [spell?.eq_4 _ _ last, if_pos surrogate] at reads
    contradiction
  | case8 value rest last alone ih => exact charSpelling_of_alone (Bool.eq_false_iff.2 alone) ih spelled reads

theorem stringSpelling_iff {text : Option String} {content : List Char} : StringSpelling text content ↔
    ∃ row, Row Piece.Spelling row content ∧ text = (spell? row).map String.ofList := by
  constructor
  · intro spelled
    cases spelled with
    | text chars =>
      obtain ⟨row, pieces, reads⟩ := exists_row_of_charSpelling chars
      exact ⟨row, pieces, by rw [reads, Option.map_some, String.ofList_toList]⟩
    | @broken row _ pieces none_ =>
      refine ⟨row, pieces, ?_⟩
      cases reads : spell? row with
      | none => rfl
      | some text => exact absurd (charSpelling_of_row pieces reads) (none_ text)
  · rintro ⟨row, pieces, rfl⟩
    cases reads : spell? row with
    | none =>
      refine .broken pieces fun text chars => ?_
      obtain ⟨row', pieces', reads'⟩ := exists_row_of_charSpelling chars
      rw [row_unique pieces pieces', reads'] at reads
      contradiction
    | some text =>
      refine .text ?_
      rw [String.toList_ofList]
      exact charSpelling_of_row pieces reads

end SourceStamp.Json
