import Mathlib.Data.List.Basic
import SourceStamp.Tag

/-! A tag says what it was made of. Line and column are read from behind, since no digit is a colon, and
all in front of them is the path, whatever it looks like. With a text behind it a tag has to be found
first: it ends at the first closing bracket with a space behind it, unless there is one in the path.
-/

set_option autoImplicit false

namespace SourceStamp.Tag

variable {mark front front' rest rest' : List Char}

-- An overlap of two marks counts as well, so the last character of the mark behind is left out.
theorem eq_of_append_eq_append (some_ : mark ≠ []) (first : ¬ mark <:+: front ++ mark.dropLast)
    (first' : ¬ mark <:+: front' ++ mark.dropLast)
    (same : front ++ mark ++ rest = front' ++ mark ++ rest') : front = front' ∧ rest = rest' := by
  have earlier {a b d : List Char} (longer : b ++ mark = a ++ mark ++ d) (more : d ≠ []) :
      mark <:+: b ++ mark.dropLast := by
    have shorter := congrArg List.dropLast longer
    rw [List.dropLast_append_of_ne_nil some_, List.dropLast_append_of_ne_nil more] at shorter
    exact ⟨a, d.dropLast, shorter.symm⟩
  rcases List.append_eq_append_iff.1 same with ⟨d, longer, rests⟩ | ⟨d, longer, rests⟩
  · cases d with
    | nil =>
      rw [List.append_nil] at longer
      exact ⟨(List.append_cancel_right longer).symm, rests⟩
    | cons c d => exact absurd (earlier longer (List.cons_ne_nil c d)) first'
  · cases d with
    | nil =>
      rw [List.append_nil] at longer
      exact ⟨List.append_cancel_right longer, rests.symm⟩
    | cons c d => exact absurd (earlier longer (List.cons_ne_nil c d)) first

-- Where a character comes in between that a mark does not have, the mark is on one side of it.
theorem infix_of_infix_append_cons {c : Char} (other : c ∉ mark) (found : mark <:+: front ++ c :: rest) :
    mark <:+: front ∨ mark <:+: rest := by
  obtain ⟨before, behind, same⟩ := found
  rcases List.append_eq_append_iff.1 same with ⟨d, whole, -⟩ | ⟨d, crossed, whole⟩
  · exact .inl ⟨before, d, whole.symm⟩
  · cases d with
    | nil => exact .inl ⟨before, [], (List.append_nil _).trans (crossed.trans (List.append_nil _))⟩
    | cons e d =>
      obtain ⟨rfl, rfl⟩ := List.cons.inj whole
      rcases List.append_eq_append_iff.1 crossed with ⟨g, -, parts⟩ | ⟨g, -, parts⟩
      · exact absurd (by simp [parts]) other
      · cases g with
        | nil =>
          rw [List.nil_append] at parts
          exact absurd (by simp [← parts]) other
        | cons _ g =>
          obtain ⟨-, rfl⟩ := List.cons.inj parts
          exact .inr ⟨g, behind, rfl⟩

def closing : List Char := [']', ' ']

def body (path : String) (line col : Nat) : List Char :=
  '[' :: (path.toList ++ ':' :: (Nat.toDigits 10 line ++ ':' :: Nat.toDigits 10 col))

theorem toList_format (path : String) (line col : Nat) :
    (format path line col).toList = body path line col ++ closing := by
  simp [format, body, closing, String.toList_append]

theorem notMem_toDigits {c : Char} (other : c.isDigit = false) (n : Nat) : c ∉ Nat.toDigits 10 n := by
  intro member
  have digit := Nat.isDigit_of_mem_toDigits (by decide) (by decide) member
  rw [other] at digit
  contradiction

theorem toDigits_inj {n m : Nat} : Nat.toDigits 10 n = Nat.toDigits 10 m ↔ n = m := by
  refine ⟨fun same => ?_, congrArg _⟩
  have read := congrArg (fun digits => Nat.ofDigitChars 10 digits 0) same
  simpa only [Nat.ofDigitChars_ten_toDigits] using read

theorem reverse_body (path : String) (line col : Nat) :
    (body path line col).reverse = (Nat.toDigits 10 col).reverse ++ [':'] ++
      ((Nat.toDigits 10 line).reverse ++ [':'] ++ (path.toList.reverse ++ ['['])) := by
  simp [body]

theorem body_inj {path path' : String} {line line' col col' : Nat} :
    body path line col = body path' line' col' ↔ path = path' ∧ line = line' ∧ col = col' := by
  constructor
  · intro same
    have clear (n : Nat) : ¬ [':'] <:+: (Nat.toDigits 10 n).reverse ++ [':'].dropLast := by
      intro found
      have member := found.subset (List.mem_singleton_self ':')
      rw [List.dropLast_singleton, List.append_nil, List.mem_reverse] at member
      exact notMem_toDigits (by decide) n member
    have mirrored := congrArg List.reverse same
    rw [reverse_body, reverse_body] at mirrored
    obtain ⟨cols, mirrored⟩ :=
      eq_of_append_eq_append (List.cons_ne_nil _ _) (clear col) (clear col') mirrored
    obtain ⟨lines, mirrored⟩ :=
      eq_of_append_eq_append (List.cons_ne_nil _ _) (clear line) (clear line') mirrored
    have paths := List.reverse_inj.1 (List.append_cancel_right mirrored)
    exact ⟨String.toList_inj.1 paths, toDigits_inj.1 (List.reverse_inj.1 lines),
      toDigits_inj.1 (List.reverse_inj.1 cols)⟩
  · rintro ⟨rfl, rfl, rfl⟩
    rfl

theorem not_closing_infix {text : List Char} (spaceless : ' ' ∉ text) : ¬ closing <:+: text :=
  fun found => spaceless (found.subset (by decide))

theorem not_closing_infix_body {path : String} (clean : ¬ closing <:+: path.toList) (line col : Nat) :
    ¬ closing <:+: body path line col ++ closing.dropLast := by
  intro found
  have digits (n : Nat) : ' ' ∉ Nat.toDigits 10 n := notMem_toDigits (by decide) n
  have parts : body path line col ++ closing.dropLast = [] ++ '[' :: (path.toList ++ ':' ::
      (Nat.toDigits 10 line ++ ':' :: (Nat.toDigits 10 col ++ [']']))) := by
    simp [body, closing]
  rw [parts] at found
  rcases infix_of_infix_append_cons (by decide) found with front | found
  · exact not_closing_infix List.not_mem_nil front
  rcases infix_of_infix_append_cons (by decide) found with inPath | found
  · exact clean inPath
  rcases infix_of_infix_append_cons (by decide) found with inLine | inCol
  · exact not_closing_infix (digits line) inLine
  · exact not_closing_infix (by simp [digits col]) inCol

theorem format_inj {path path' : String} {line line' col col' : Nat} :
    format path line col = format path' line' col' ↔ path = path' ∧ line = line' ∧ col = col' := by
  rw [← String.toList_inj, toList_format, toList_format, List.append_cancel_right_eq, body_inj]

/-- A tag holds its path, line and column, and no other tag is the same text. In front of a text it is found
again as well, and with it the text, unless the path holds what ends a tag. -/
theorem format_append_eq_iff (path path' : String) (line line' col col' : Nat) :
    (¬ closing <:+: path.toList → ¬ closing <:+: path'.toList → ∀ text text' : String,
      (format path line col ++ text = format path' line' col' ++ text' ↔
        path = path' ∧ line = line' ∧ col = col' ∧ text = text')) ∧
    (format path line col = format path' line' col' ↔ path = path' ∧ line = line' ∧ col = col') := by
  refine ⟨fun clean clean' text text' => ?_, format_inj⟩
  rw [← String.toList_inj, String.toList_append, String.toList_append, toList_format, toList_format]
  constructor
  · intro same
    obtain ⟨bodies, texts⟩ := eq_of_append_eq_append (List.cons_ne_nil _ _)
      (not_closing_infix_body clean line col) (not_closing_infix_body clean' line' col') same
    obtain ⟨paths, lines, cols⟩ := body_inj.1 bodies
    exact ⟨paths, lines, cols, String.toList_inj.1 texts⟩
  · rintro ⟨rfl, rfl, rfl, rfl⟩
    rfl

/-- A path that looks like a tag, but for the space behind it. -/
theorem format_append_eq_iff_lookalike :
    ¬ closing <:+: "a:1:2]3".toList ∧ ¬ closing <:+: "a".toList ∧
      format "a:1:2]3" 4 5 ++ "x" ≠ format "a" 1 2 ++ "3:4:5] x" := by
  have clean : ¬ closing <:+: "a:1:2]3".toList := not_closing_infix (by decide)
  have clean' : ¬ closing <:+: "a".toList := not_closing_infix (by decide)
  have apart := ((format_append_eq_iff "a:1:2]3" "a" 4 1 5 2).1 clean clean' "x" "3:4:5] x").not
  exact ⟨clean, clean', apart.2 (by decide)⟩

-- With the space a message of one tag is a message of the other.
example : format "a:1:2] 3" 4 5 ++ "x" = format "a" 1 2 ++ "3:4:5] x" := by decide

end SourceStamp.Tag
