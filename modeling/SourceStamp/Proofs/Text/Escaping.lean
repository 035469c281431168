import SourceStamp.Proofs.Text.Reading

/-! What is written by `quoteChars` and `escapeTemplateChars` is read as the text that was written,
whatever text that is.
-/

set_option autoImplicit false

namespace SourceStamp.Text

open Quotation

theorem hexValue?_hexDigit : ∀ {n : Nat}, n < 16 → hexValue? (hexDigit n) = some n := by
  decide

theorem readHex_hexDigit {n : Nat} (small : n < 256) (rest : List Char) :
    readHex 2 0 (hexDigit (n / 16) :: hexDigit (n % 16) :: rest) = some (n, rest) := by
  have high := hexValue?_hexDigit (show n / 16 < 16 by omega)
  have low := hexValue?_hexDigit (show n % 16 < 16 by omega)
  have number : 16 * (16 * 0 + n / 16) + n % 16 = n := by omega
  simp only [readHex, high, low, Option.bind_some, number]

/-- Controls and the two separators of lines and paragraphs. The other two line ends of JavaScript are
controls. -/
def IsHidden (c : Char) : Prop :=
  c.toNat < 0x20 ∨ (0x7F ≤ c.toNat ∧ c.toNat ≤ 0x9F) ∨ c.toNat = 0x2028 ∨ c.toNat = 0x2029

instance (c : Char) : Decidable (IsHidden c) := inferInstanceAs (Decidable (_ ∨ _))

theorem isHidden_iff {c : Char} : IsHidden c ↔ isControl c ∨ c = '\u2028' ∨ c = '\u2029' := by
  have line : c = '\u2028' ↔ c.toNat = 0x2028 := Char.toNat_inj.symm
  have paragraph : c = '\u2029' ↔ c.toNat = 0x2029 := Char.toNat_inj.symm
  rw [line, paragraph]
  simp only [IsHidden, isControl, Bool.or_eq_true, Bool.and_eq_true, decide_eq_true_eq]
  omega

/-- The ways to write a character: as it is, by its number, or by an escape of its own. -/
theorem quoteChar_cases (c : Char) :
    (c ≠ '\\' ∧ c ≠ '"' ∧ ¬ IsHidden c ∧ quoteChar c = [c]) ∨
      (isControl c ∧ quoteChar c = ['\\', 'x', hexDigit (c.toNat / 16), hexDigit (c.toNat % 16)]) ∨
      (c = '\\' ∨ c = '"' ∨ c = '\n' ∨ c = '\r' ∨ c = '\t' ∨ c = '\u2028' ∨ c = '\u2029') := by
  by_cases named :
      c = '\\' ∨ c = '"' ∨ c = '\n' ∨ c = '\r' ∨ c = '\t' ∨ c = '\u2028' ∨ c = '\u2029'
  · exact .inr (.inr named)
  · simp only [not_or] at named
    obtain ⟨backslash, mark, feed, carriage, tab, line, paragraph⟩ := named
    have shape : quoteChar c = if isControl c then
        ['\\', 'x', hexDigit (c.toNat / 16), hexDigit (c.toNat % 16)] else [c] := by
      unfold quoteChar
      rw [if_neg backslash, if_neg mark, if_neg feed, if_neg carriage, if_neg tab, if_neg line,
        if_neg paragraph]
    by_cases control : isControl c
    · exact .inr (.inl ⟨control, shape.trans (if_pos control)⟩)
    · have visible : ¬ IsHidden c := by simp [isHidden_iff, control, line, paragraph]
      exact .inl ⟨backslash, mark, visible, shape.trans (if_neg control)⟩

theorem lt_of_isControl {c : Char} (control : isControl c) : c.toNat < 0xA0 := by
  simp [isControl] at control
  omega

/-- What is written for a character is read as that character, whatever stands behind it. -/
theorem doubleQuoted_readCharacter_quoteChar (c : Char) (rest : List Char) :
    doubleQuoted.ends (quoteChar c ++ rest) = false ∧
      doubleQuoted.readCharacter (quoteChar c ++ rest) = some (unitsOf c.toNat, rest) := by
  obtain ⟨backslash, mark, visible, written⟩ | ⟨control, written⟩ | named := quoteChar_cases c
  · have noBreak : ¬ (c = '\n' ∨ c = '\r') := by
      rintro (rfl | rfl)
      · exact visible (by decide)
      · exact visible (by decide)
    rw [written, List.singleton_append, readCharacter, if_neg backslash, if_neg (by simp [doubleQuoted]),
      if_neg noBreak]
    exact ⟨by simpa [doubleQuoted] using mark, rfl⟩
  · have small := lt_of_isControl control
    have units : unitsOf c.toNat = [c.toNat] := if_pos (by omega)
    rw [written, units]
    refine ⟨rfl, ?_⟩
    show (readHex 2 0 (hexDigit (c.toNat / 16) :: hexDigit (c.toNat % 16) :: rest)).map _ = _
    rw [readHex_hexDigit (by omega)]
    rfl
  · rcases named with rfl | rfl | rfl | rfl | rfl | rfl | rfl <;> exact ⟨rfl, rfl⟩

theorem doubleQuoted_read_quoteChar (c : Char) (rest : List Char) :
    doubleQuoted.read (quoteChar c ++ rest) =
      (doubleQuoted.read rest).map (prepend (unitsOf c.toNat)) := by
  obtain ⟨goesOn, found⟩ := doubleQuoted_readCharacter_quoteChar c rest
  exact read_of_readCharacter goesOn found

theorem doubleQuoted_read_quoteChars (value rest : List Char) :
    doubleQuoted.read (value.flatMap quoteChar ++ '"' :: rest) = some (units value, '"' :: rest) := by
  induction value with
  | nil => exact read_of_ends rfl
  | cons c cs ih =>
    rw [List.flatMap_cons, List.append_assoc, doubleQuoted_read_quoteChar, ih]
    rfl

/-- A quoted text is a string literal whose value is the text. -/
theorem readQuoted_quoteChars (value : List Char) :
    readQuoted (quoteChars value) = some (units value) := by
  unfold quoteChars
  rw [readQuoted, if_pos rfl, doubleQuoted_read_quoteChars]
  rfl

theorem read_escape {kind : Quotation} {first : List Nat} {cs rest : List Char}
    (goesOn : kind.ends ('\\' :: cs) = false) (found : readEscape cs = some (first, rest)) :
    kind.read ('\\' :: cs) = (kind.read rest).map (prepend first) :=
  read_of_readCharacter goesOn found

/-- The ways to write a character in front of a text: by a letter behind a backslash, or as it is where
it neither begins an escape nor ends the template. -/
theorem escapeTemplateChars_cons_cases (c : Char) (cs : List Char) :
    (∃ letter, escapeTemplateChars (c :: cs) = '\\' :: letter :: escapeTemplateChars cs ∧
      ∀ rest, readEscape (letter :: rest) = some (unitsOf c.toNat, rest)) ∨
    (escapeTemplateChars (c :: cs) = c :: escapeTemplateChars cs ∧
      c ≠ '\\' ∧ c ≠ '\x60' ∧ c ≠ '\r' ∧ (c = '$' → cs.head? ≠ some '\x7b')) := by
  rw [escapeTemplateChars]
  split
  · rename_i same
    subst same
    exact .inl ⟨_, rfl, fun _ => rfl⟩
  split
  · rename_i same
    subst same
    exact .inl ⟨_, rfl, fun _ => rfl⟩
  split
  · rename_i same
    rw [same.1]
    exact .inl ⟨_, rfl, fun _ => rfl⟩
  split
  · rename_i same
    subst same
    exact .inl ⟨_, rfl, fun _ => rfl⟩
  rename_i backslash quote opens carriage
  exact .inr ⟨rfl, backslash, quote, carriage, fun dollar brace => opens ⟨dollar, brace⟩⟩

-- Escaping puts no opening brace in front of a text.
theorem head?_escapeTemplateChars_append {text rest : List Char}
    (other : (text ++ rest).head? ≠ some '\x7b') :
    (escapeTemplateChars text ++ rest).head? ≠ some '\x7b' := by
  cases text with
  | nil => exact other
  | cons c cs =>
    obtain ⟨letter, written, -⟩ | ⟨written, -⟩ := escapeTemplateChars_cons_cases c cs
    · rw [written]
      simp
    · rw [written]
      exact other

theorem template_ends_plain {c : Char} {rest : List Char} (quote : c ≠ '\x60')
    (dollar : c = '$' → rest.head? ≠ some '\x7b') : template.ends (c :: rest) = false := by
  have goesOn : c = '$' → ¬ rest.take 1 = ['\x7b'] := by
    intro same opens
    cases rest with
    | nil => contradiction
    | cons next rest =>
      cases opens
      exact dollar same rfl
  simpa [template, quote] using goesOn

theorem template_read_plain {c : Char} {rest : List Char} (backslash : c ≠ '\\')
    (quote : c ≠ '\x60') (carriage : c ≠ '\r') (dollar : c = '$' → rest.head? ≠ some '\x7b') :
    template.read (c :: rest) = (template.read rest).map (prepend (unitsOf c.toNat)) := by
  apply read_of_readCharacter (template_ends_plain quote dollar)
  have multiline : template.multiline = true := rfl
  rw [readCharacter, if_neg backslash, if_pos multiline, if_neg carriage]

theorem seam_of_cons {c : Char} {text rest : List Char}
    (seam : (c :: text).getLast? = some '$' → rest.head? ≠ some '\x7b')
    (last : text.getLast? = some '$') : rest.head? ≠ some '\x7b' := by
  apply seam
  rw [List.getLast?_cons, last, Option.getD_some]

-- A dollar sign that needs no escape within a text makes no substitution of what is behind it either.
theorem head?_ne_of_seam {c : Char} {text rest : List Char}
    (seam : (c :: text).getLast? = some '$' → rest.head? ≠ some '\x7b')
    (alone : c = '$' → text.head? ≠ some '\x7b') (dollar : c = '$') :
    (escapeTemplateChars text ++ rest).head? ≠ some '\x7b' := by
  apply head?_escapeTemplateChars_append
  cases text with
  | nil => exact seam (by rw [dollar]; rfl)
  | cons next text => exact alone dollar

/-- An escaped text is read as itself wherever the text behind it does not make a substitution of
its last character. -/
theorem template_read_escapeTemplateChars {text rest : List Char}
    (seam : text.getLast? = some '$' → rest.head? ≠ some '\x7b') :
    template.read (escapeTemplateChars text ++ rest) =
      (template.read rest).map (prepend (units text)) := by
  induction text with
  | nil => exact Option.map_id'.symm
  | cons c cs ih =>
    -- what is left to show of each character is that it is read by itself
    suffices step : template.read (escapeTemplateChars (c :: cs) ++ rest) =
        (template.read (escapeTemplateChars cs ++ rest)).map (prepend (unitsOf c.toNat)) by
      rw [step, ih (seam_of_cons seam), Option.map_map, prepend_comp_prepend]
      rfl
    obtain ⟨letter, written, read⟩ | ⟨written, backslash, quote, carriage, alone⟩ :=
      escapeTemplateChars_cons_cases c cs
    · rw [written]
      exact read_escape rfl (read _)
    · rw [written]
      exact template_read_plain backslash quote carriage (head?_ne_of_seam seam alone)

-- Two texts may be escaped apart unless a substitution would open where they meet.
theorem escapeTemplateChars_append {text rest : List Char}
    (seam : text.getLast? = some '$' → rest.head? ≠ some '\x7b') :
    escapeTemplateChars (text ++ rest) = escapeTemplateChars text ++ escapeTemplateChars rest := by
  induction text with
  | nil => rfl
  | cons c cs ih =>
    have opens : (c = '$' ∧ (cs ++ rest).head? = some '\x7b') ↔ (c = '$' ∧ cs.head? = some '\x7b') := by
      cases cs with
      | nil =>
        constructor
        · rintro ⟨rfl, brace⟩
          exact absurd brace (seam rfl)
        · rintro ⟨-, brace⟩
          contradiction
      | cons next cs => rfl
    rw [List.cons_append, escapeTemplateChars, escapeTemplateChars, ih (seam_of_cons seam)]
    simp only [opens]
    repeat' split
    all_goals rfl

theorem escapeTemplate_append {text : String} (seam : text.toList.getLast? ≠ some '$')
    (rest : String) : escapeTemplate (text ++ rest) = escapeTemplate text ++ escapeTemplate rest := by
  rw [escapeTemplate, String.toList_append, escapeTemplateChars_append fun last => absurd last seam,
    String.ofList_append]
  rfl

-- The raw text of a template that is to cook to a text.
theorem cook_escapeTemplateChars (text : List Char) :
    cook (escapeTemplateChars text) = some (units text) := by
  have read : template.read (escapeTemplateChars text ++ []) = _ :=
    template_read_escapeTemplateChars fun _ => by simp
  have nothing : cook [] = some [] := by
    rw [cook, read_of_ends rfl]
    rfl
  rw [List.append_nil] at read
  rw [cook_of_read_eq read, nothing, Option.map_some, List.append_nil]

end SourceStamp.Text
