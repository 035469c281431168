import Mathlib.Data.List.TakeWhile
import SourceStamp.Text.Blank

/-! Trimming takes away white space at both ends, however much there is, and leaves a text as it is that has
none there. -/

set_option autoImplicit false

namespace SourceStamp.Text

variable {before text after : List Char}

theorem trim_append (blank : ∀ c ∈ before, isBlank c) (blank' : ∀ c ∈ after, isBlank c) :
    trim (before ++ text ++ after) = trim text := by
  have behind : ∀ c ∈ after.reverse, isBlank c := fun c member => blank' c (List.mem_reverse.1 member)
  rw [trim, List.append_assoc, List.dropWhile_append_of_pos blank, List.dropWhile_append]
  split
  · have none_ : text.dropWhile isBlank = [] := List.isEmpty_iff.1 ‹_›
    have none_' : after.dropWhile isBlank = [] := List.dropWhile_eq_nil_iff.2 blank'
    rw [trim, none_, none_']
  · rw [List.reverse_append, List.dropWhile_append_of_pos behind, trim]

def IsTrimmed (text : List Char) : Prop :=
  (∀ c ∈ text.head?, isBlank c = false) ∧ ∀ c ∈ text.getLast?, isBlank c = false

theorem dropWhile_isBlank_of_head? (clear : ∀ c ∈ text.head?, isBlank c = false) :
    text.dropWhile isBlank = text := by
  cases text with
  | nil => rfl
  | cons c text =>
    have first : ¬ isBlank c := Bool.eq_false_iff.1 (clear c rfl)
    exact List.dropWhile_cons_of_neg first

theorem IsTrimmed.trim (trimmed : IsTrimmed text) : trim text = text := by
  have behind : ∀ c ∈ text.reverse.head?, isBlank c = false := by
    rw [List.head?_reverse]
    exact trimmed.2
  rw [Text.trim, dropWhile_isBlank_of_head? trimmed.1, dropWhile_isBlank_of_head? behind,
    List.reverse_reverse]

theorem isTrimmed_of_any (clear : text.any isBlank = false) : IsTrimmed text := by
  have each : ∀ c ∈ text, isBlank c = false :=
    fun c member => Bool.eq_false_iff.2 (List.any_eq_false.1 clear c member)
  exact ⟨fun c first => each c (List.mem_of_mem_head? first),
    fun c last => each c (List.mem_of_mem_getLast? last)⟩

theorem IsTrimmed.append {front back : List Char} (first : IsTrimmed front) (second : IsTrimmed back)
    (some_ : front ≠ []) (some_' : back ≠ []) (middle : List Char) :
    IsTrimmed (front ++ (middle ++ back)) := by
  constructor
  · cases front with
    | nil => contradiction
    | cons => exact first.1
  · have last := second.2
    rw [List.getLast?_eq_some_getLast some_'] at last
    rwa [← List.append_assoc, List.getLast?_append, List.getLast?_eq_some_getLast some_', Option.some_or]

end SourceStamp.Text
