import Mathlib.Data.List.DropRight
import SourceStamp.Proofs.SourceMap.Position

/-! Columns from any source map. Maps count a column in characters or in UTF-16 code units, and from the
start of a line of their own making, which ends at fewer characters than a line of JavaScript. A count of
code units is left alone and a count of characters is put right; a count in one unit that happens to fit
the other does no harm, as no stretch of text has fewer code units than characters.
-/

set_option autoImplicit false

namespace SourceStamp

namespace Location

open Text SourceFile

def terminators : List Char := ['\n', '\r', '\u2028', '\u2029']

theorem isLineEnd_eq (c : Char) : isLineEnd c = decide (c ∈ terminators) := by
  simp [isLineEnd, terminators, Bool.or_assoc]

def scriptLineStart (text : List Char) : Nat → Nat
  | 0 => 0
  | n + 1 => if text[n]?.any (· ∈ terminators) then n + 1 else scriptLineStart text n

theorem scriptLineStart_le (text : List Char) (n : Nat) : scriptLineStart text n ≤ n := by
  induction n with
  | zero => exact Nat.le_refl 0
  | succ n ih =>
    rw [scriptLineStart]
    split
    · exact Nat.le_refl _
    · exact Nat.le_succ_of_le ih

theorem lastLine_concat (text : List Char) (c : Char) :
    lastLine (text ++ [c]) = if c ∈ terminators then [] else lastLine text ++ [c] := by
  have last := List.rtakeWhile_concat (fun c => !isLineEnd c) text c
  simp only [isLineEnd_eq, Bool.not_eq_true', decide_eq_false_iff_not, ite_not] at last
  unfold lastLine
  simp only [isLineEnd_eq]
  exact last

theorem lastLine_take {text : List Char} {n : Nat} (inside : n ≤ text.length) :
    lastLine (text.take n) = (text.take n).drop (scriptLineStart text n) := by
  induction n with
  | zero => rfl
  | succ n ih =>
    have upTo : (text.take n).length = n := List.length_take_of_le (Nat.le_of_succ_le inside)
    have found : text[n]? = some text[n] := List.getElem?_eq_getElem inside
    rw [← List.take_append_getElem inside, lastLine_concat, scriptLineStart, found]
    simp only [Option.any_some, decide_eq_true_eq]
    split
    · rw [List.drop_eq_nil_of_le]
      rw [List.length_append, upTo, List.length_singleton]
    · rw [ih (Nat.le_of_succ_le inside), List.drop_append_of_le_length]
      exact Nat.le_trans (scriptLineStart_le text n) (Nat.le_of_eq upTo.symm)

section

variable {place : Location} {pos : Nat} {before : List Char}

theorem le_utf16Column (place : Location) (pos : Nat) : place.col ≤ place.utf16Column pos := by
  unfold utf16Column
  split
  · exact Nat.le_refl _
  · rename_i line _
    have least := length_le_utf16Length line
    split <;> omega

-- A column that counts the characters of the last line is put right.
theorem utf16Column_of_length (known : place.textBefore? pos = some before)
    (col : place.col = (lastLine before).length) :
    place.utf16Column pos = utf16Length (lastLine before) := by
  unfold utf16Column
  rw [known, Option.map_some]
  exact if_pos (.inl col.symm)

end

theorem suffix_lastLine_append (front : List Char) {line : List Char}
    (whole : ∀ c ∈ line, c ∉ terminators) : line <:+ lastLine (front ++ line) := by
  have kept : ∀ c ∈ line.reverse, (!isLineEnd c) = true := by
    intro c member
    simp [isLineEnd_eq, whole c (List.mem_reverse.1 member)]
  rw [lastLine, List.reverse_append, List.takeWhile_append_of_pos kept, List.reverse_append,
    List.reverse_reverse]
  exact List.suffix_append _ _

/-- The column of a tag is never less than the one of the map. In the text, let the map start the line
where it likes, but not behind the last of the four terminators. A column that counts the code units from
there is kept, and one that counts characters is put right if none of the terminators is among them. -/
theorem utf16Column_repairs (place : Location) (pos : Nat) :
    place.col ≤ place.utf16Column pos ∧
      ∀ n head, n ≤ place.file.text.toList.length → pos = place.file.boundary n →
        head ≤ scriptLineStart place.file.text.toList n →
        let line := (place.file.text.toList.take n).drop head
        (place.col = utf16Length line → place.utf16Column pos = place.col) ∧
          (place.col = line.length → (∀ c ∈ line, c ∉ terminators) →
            place.utf16Column pos = utf16Length line) := by
  refine ⟨le_utf16Column place pos, ?_⟩
  rintro n head inside rfl start line
  have known := textBefore?_boundary place n
  have suffix : lastLine (place.file.text.toList.take n) <:+ line := by
    rw [lastLine_take inside]
    exact List.drop_suffix_drop_left _ start
  constructor
  · intro col
    rw [utf16Column_eq known suffix col, col]
  · intro col whole
    have suffix' : line <:+ lastLine (place.file.text.toList.take n) := by
      have longer := suffix_lastLine_append ((place.file.text.toList.take n).take head) whole
      rwa [List.take_append_drop] at longer
    have same : line = lastLine (place.file.text.toList.take n) :=
      suffix'.eq_of_length_le suffix.length_le
    rw [same] at col ⊢
    exact utf16Column_of_length known col

/-- Behind a paragraph separator two characters of two code units each, counted in characters from there;
and in code units from the carriage return on, as a map does that knows no separators. -/
theorem utf16Column_repairs_separator :
    let file : SourceFile := ⟨"/a.ts", "x\r😀é\u2029😀😀b", 5⟩
    (Location.mk file 1 2).utf16Column (file.boundary 7) = 4 ∧
      (Location.mk file 2 8).utf16Column (file.boundary 7) = 8 ∧
      9 ≤ (Location.mk file 2 9).utf16Column 8 := by
  intro file
  obtain ⟨-, counted⟩ := utf16Column_repairs ⟨file, 1, 2⟩ (file.boundary 7)
  obtain ⟨-, kept⟩ := utf16Column_repairs ⟨file, 2, 8⟩ (file.boundary 7)
  obtain ⟨-, characters⟩ := counted 7 5 (by decide) rfl (by decide)
  obtain ⟨units, -⟩ := kept 7 2 (by decide) rfl (by decide)
  have stretch : (file.text.toList.take 7).drop 5 = ['😀', '😀'] := by decide
  refine ⟨?_, units (by decide), (utf16Column_repairs ⟨file, 2, 9⟩ 8).1⟩
  rw [characters (by rw [stretch]; rfl) (by rw [stretch]; simp [terminators]), stretch]
  rfl

end Location

end SourceStamp
