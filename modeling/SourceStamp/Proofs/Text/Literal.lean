import Mathlib.Data.List.Forall2
import SourceStamp.Proofs.Text.Escaping

/-! The source of a string literal, piece by piece. There is one piece for each character of the value, in
order, and no piece depends on its neighbours.
-/

set_option autoImplicit false

namespace SourceStamp.Text

open Quotation

/-- `piece` stands for `c` between double quotes. It is read as this one character whatever stands behind
it, nothing in it is hidden, and only where a character cannot stand for itself it is written in another
way. -/
structure Spells (c : Char) (piece : List Char) : Prop where
  goesOn : ∀ behind, doubleQuoted.ends (piece ++ behind) = false
  read : ∀ behind, doubleQuoted.readCharacter (piece ++ behind) = some (unitsOf c.toNat, behind)
  visible : ∀ d ∈ piece, ¬ IsHidden d
  verbatim : c ≠ '\\' → c ≠ '"' → ¬ IsHidden c → piece = [c]

theorem not_isHidden_hexDigit : ∀ {n : Nat}, n < 16 → ¬ IsHidden (hexDigit n) := by
  decide

theorem visible_of_all {piece : List Char} (all : piece.all fun d => decide (¬ IsHidden d)) :
    ∀ d ∈ piece, ¬ IsHidden d :=
  fun d member => of_decide_eq_true (List.all_eq_true.1 all d member)

theorem visible_quoteChar (c : Char) : ∀ d ∈ quoteChar c, ¬ IsHidden d := by
  obtain ⟨-, -, visible, written⟩ | ⟨control, written⟩ | named := quoteChar_cases c
  · rw [written]
    exact List.forall_mem_singleton.2 visible
  · have small := lt_of_isControl control
    have high := not_isHidden_hexDigit (show c.toNat / 16 < 16 by omega)
    have low := not_isHidden_hexDigit (show c.toNat % 16 < 16 by omega)
    rw [written]
    simp only [List.forall_mem_cons, List.not_mem_nil, false_imp_iff, implies_true, and_true]
    exact ⟨by decide, by decide, high, low⟩
  · rcases named with rfl | rfl | rfl | rfl | rfl | rfl | rfl <;> exact visible_of_all (by decide)

theorem spells_quoteChar (c : Char) : Spells c (quoteChar c) where
  goesOn := fun behind => (doubleQuoted_readCharacter_quoteChar c behind).1
  read := fun behind => (doubleQuoted_readCharacter_quoteChar c behind).2
  visible := visible_quoteChar c
  verbatim := by
    intro backslash mark visible
    obtain ⟨-, -, -, written⟩ | ⟨control, -⟩ | named := quoteChar_cases c
    · exact written
    · exact absurd (isHidden_iff.2 (.inl control)) visible
    · rcases named with rfl | rfl | rfl | rfl | rfl | rfl | rfl
      · contradiction
      · contradiction
      all_goals exact absurd (by decide) visible

theorem forall₂_spells_quoteChar (value : List Char) :
    List.Forall₂ Spells value (value.map quoteChar) := by
  rw [List.forall₂_map_right_iff]
  exact List.forall₂_same.2 fun c _ => spells_quoteChar c

theorem visible_of_spells {value : List Char} {pieces : List (List Char)}
    (spelled : List.Forall₂ Spells value pieces) : ∀ d ∈ pieces.flatten, ¬ IsHidden d := by
  induction spelled with
  | nil => simp
  | cons first _ ih =>
    rw [List.flatten_cons, List.forall_mem_append]
    exact ⟨first.visible, ih⟩

/-- A quoted text is a string literal whose value is the text and no other. No control and no line end stands in it,
and between the quotes each character is spelled by itself unless it is one of those, a quote or a
backslash. -/
theorem quote_spells (value : String) :
    (∀ text : String, readQuoted (quote value).toList = some (units text.toList) ↔ text = value) ∧
      (∀ d ∈ (quote value).toList, ¬ IsHidden d) ∧
      ∃ pieces, (quote value).toList = '"' :: (pieces.flatten ++ ['"']) ∧
        List.Forall₂ Spells value.toList pieces := by
  have source : (quote value).toList = '"' :: ((value.toList.map quoteChar).flatten ++ ['"']) := by
    rw [quote, String.toList_ofList, quoteChars, List.flatMap_def]
  have spelled := forall₂_spells_quoteChar value.toList
  refine ⟨fun text => ?_, ?_, _, source, spelled⟩
  · rw [quote, String.toList_ofList, readQuoted_quoteChars, Option.some_inj, units_inj,
      String.toList_inj, eq_comm]
  · rw [source, List.forall_mem_cons, List.forall_mem_append, List.forall_mem_singleton]
    exact ⟨by decide, visible_of_spells spelled, by decide⟩

/-- Each of these characters would be read into the escape in front of it, if that did not end by itself. -/
theorem quote_spells_neighbours :
    let value := "\x001\\x41\"\u2028é"
    quote value = "\"\\x001\\\\x41\\\"\\u2028é\"" ∧
      readQuoted (quote value).toList = some (units value.toList) ∧
      ∃ pieces, (quote value).toList = '"' :: (pieces.flatten ++ ['"']) ∧
        List.Forall₂ Spells value.toList pieces := by
  intro value
  obtain ⟨read, -, spelled⟩ := quote_spells value
  exact ⟨by decide, (read value).2 rfl, spelled⟩

end SourceStamp.Text
