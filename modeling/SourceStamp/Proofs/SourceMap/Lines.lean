import SourceStamp.SourceMap.Files

/-! Lines of a text. A line ends behind a line feed, and behind a carriage return that no line feed
follows. Texts are cut at numbers of characters here, source maps count in bytes; a cut on a
character boundary is the same thing in both.
-/

set_option autoImplicit false

namespace SourceStamp

namespace Text

theorem utf16Size_le_utf8Size (c : Char) : utf16Size c ≤ c.utf8Size := by
  unfold utf16Size
  split
  · exact c.utf8Size_pos
  · rename_i large
    have : c.val.toNat = c.toNat := rfl
    simp only [Char.utf8Size, UInt32.le_iff_toNat_le, UInt32.toNat_ofNatLT]
    rw [if_neg (by omega), if_neg (by omega)]
    split <;> omega

theorem utf8Length_pos {cs : List Char} (nonempty : cs ≠ []) : 0 < utf8Length cs := by
  cases cs with
  | nil => exact absurd rfl nonempty
  | cons c cs => exact Nat.add_pos_left c.utf8Size_pos _

theorem length_le_utf16Length (cs : List Char) : cs.length ≤ utf16Length cs := by
  induction cs with
  | nil => exact Nat.le_refl 0
  | cons c cs ih =>
    have : 1 ≤ utf16Size c := by unfold utf16Size; split <;> omega
    simp only [List.length_cons, utf16Length]
    omega

theorem utf8Length_take_lt {text : List Char} {n : Nat} (inside : n < text.length) :
    utf8Length (text.take n) < utf8Length text := by
  have whole := utf8Length_append (text.take n) (text.drop n)
  rw [List.take_append_drop] at whole
  have rest : 0 < utf8Length (text.drop n) := utf8Length_pos (by simpa using inside)
  omega

theorem splitAtByte?_utf8Length (before after : List Char) :
    splitAtByte? (utf8Length before) (before ++ after) = some (before, after) := by
  induction before with
  | nil => cases after <;> rfl
  | cons c cs ih =>
    have positive := c.utf8Size_pos
    obtain ⟨n, size⟩ : ∃ n, c.utf8Size + utf8Length cs = n + 1 :=
      ⟨c.utf8Size + utf8Length cs - 1, by omega⟩
    have rest : n + 1 - c.utf8Size = utf8Length cs := by omega
    unfold utf8Length
    rw [size, List.cons_append, splitAtByte?, rest, ih, if_pos (by omega)]
    rfl

/-- Whether a line of the text ends right in front of an index. -/
def endsLine (text : List Char) : Nat → Bool
  | 0 => false
  | index + 1 => text[index]? = some '\n' || text[index]? = some '\r' && text[index + 1]? ≠ some '\n'

def lineEnds (text : List Char) (n : Nat) : List Nat := (List.range (n + 1)).filter (endsLine text)

def lineStart (text : List Char) (n : Nat) : Nat := (lineEnds text n).getLastD 0

theorem endsLine_one {c : Char} {rest : List Char} :
    endsLine (c :: rest) 1 ↔ c = '\n' ∨ c = '\r' ∧ rest.head? ≠ some '\n' := by
  simp [endsLine, List.head?_eq_getElem?]

theorem lineEnds_zero (text : List Char) : lineEnds text 0 = [] := rfl

theorem lineEnds_nil (n : Nat) : lineEnds [] n = [] := by
  unfold lineEnds
  rw [List.filter_eq_nil_iff]
  intro index _
  cases index <;> simp [endsLine]

theorem lineEnds_cons (c : Char) (cs : List Char) (n : Nat) :
    lineEnds (c :: cs) (n + 1) =
      (if endsLine (c :: cs) 1 then [1] else []) ++ (lineEnds cs n).map (· + 1) := by
  -- behind the first character the line ends of `c :: cs` are those of `cs`
  have later : ∀ index, endsLine (c :: cs) (index + 1 + 1) = endsLine cs (index + 1) := fun _ => rfl
  have first : endsLine (c :: cs) 0 = false ∧ endsLine cs 0 = false := ⟨rfl, rfl⟩
  unfold lineEnds
  rw [List.range_succ_eq_map, List.range_succ_eq_map]
  by_cases ends : endsLine (c :: cs) 1 <;>
    simp [List.filter_map, Function.comp_def, later, ends, first]

theorem mem_lineEnds {text : List Char} {n index : Nat} :
    index ∈ lineEnds text n ↔ index ≤ n ∧ endsLine text index := by
  rw [lineEnds, List.mem_filter, List.mem_range, Nat.lt_succ_iff]

theorem le_of_mem_cons_lineEnds {text : List Char} {n index : Nat}
    (found : index ∈ 0 :: lineEnds text n) : index ≤ n := by
  obtain rfl | found := List.mem_cons.1 found
  · exact Nat.zero_le n
  · exact (mem_lineEnds.1 found).1

theorem getLastD_eq_or_mem {α : Type} (items : List α) (default : α) :
    items.getLastD default = default ∨ items.getLastD default ∈ items := by
  cases items with
  | nil => exact .inl rfl
  | cons first rest =>
    rw [List.getLastD_cons, ← List.getLast_eq_getLastD (by simp)]
    exact .inr (List.getLast_mem _)

def lineBefore (text : List Char) (n : Nat) : List Char := (text.take n).drop (lineStart text n)

theorem take_append_drop_take {α : Type} (items : List α) {n m : Nat} (order : n ≤ m) :
    items.take n ++ (items.take m).drop n = items.take m := by
  have start : items.take n = (items.take m).take n := by
    rw [List.take_take, Nat.min_eq_left order]
  rw [start, List.take_append_drop]

theorem lineStart_le (text : List Char) (n : Nat) : lineStart text n ≤ n := by
  obtain zero | found := getLastD_eq_or_mem (lineEnds text n) 0
  · exact Nat.le_trans (Nat.le_of_eq zero) (Nat.zero_le n)
  · exact (mem_lineEnds.1 found).1

theorem lineStart_succ (text : List Char) (n : Nat) :
    lineStart text (n + 1) = if endsLine text (n + 1) then n + 1 else lineStart text n := by
  unfold lineStart lineEnds
  rw [List.range_succ, List.filter_append]
  split
  · rename_i ends
    rw [List.filter_cons_of_pos ends]
    exact List.getLastD_concat
  · rename_i inside
    rw [List.filter_cons_of_neg inside, List.filter_nil, List.append_nil]

theorem lineBefore_succ {text : List Char} {n : Nat} (inside : n < text.length) :
    lineBefore text (n + 1) =
      if endsLine text (n + 1) then [] else lineBefore text n ++ [text[n]] := by
  have upTo : (text.take n).length = n := List.length_take_of_le (Nat.le_of_lt inside)
  unfold lineBefore
  rw [lineStart_succ, ← List.take_append_getElem inside]
  split
  · apply List.drop_eq_nil_of_le
    exact Nat.le_of_eq (by rw [List.length_append, upTo, List.length_singleton])
  · rw [List.drop_append_of_le_length]
    exact Nat.le_trans (lineStart_le text n) (Nat.le_of_eq upTo.symm)

theorem feed_notMem_lineBefore {text : List Char} {n : Nat} (inside : n ≤ text.length) :
    '\n' ∉ lineBefore text n := by
  induction n with
  | zero => simp [lineBefore]
  | succ n ih =>
    rw [lineBefore_succ inside]
    split
    · exact List.not_mem_nil
    · rename_i later
      -- a line feed would have ended the line
      have plain : text[n] ≠ '\n' := by
        intro feed
        apply later
        simp [endsLine, List.getElem?_eq_getElem inside, feed]
      rw [List.mem_append, List.mem_singleton, not_or]
      exact ⟨ih (Nat.le_of_succ_le inside), plain.symm⟩

/-- The indices up to `n` where a line starts, for a map that knows no empty line at the end of a
text. -/
def lineHeads (text : List Char) (n : Nat) : List Nat :=
  (0 :: lineEnds text n).filter (· ≠ text.length)

theorem lineHeads_of_lt {text : List Char} {n : Nat} (inside : n < text.length) :
    lineHeads text n = 0 :: lineEnds text n := by
  rw [lineHeads, List.filter_eq_self]
  intro index found
  have before := le_of_mem_cons_lineEnds found
  simp only [ne_eq, decide_eq_true_eq]
  omega

theorem lineHeads_sublist (text : List Char) {n m : Nat} (order : n ≤ m) :
    (lineHeads text n).Sublist (lineHeads text m) := by
  apply List.Sublist.filter
  apply List.Sublist.cons_cons
  exact (List.range_sublist.2 (Nat.succ_le_succ order)).filter _

def lastHead (text : List Char) (n : Nat) : Nat := (lineHeads text n).getLastD 0

theorem lastHead_of_lt {text : List Char} {n : Nat} (inside : n < text.length) :
    lastHead text n = lineStart text n := by
  rw [lastHead, lineHeads_of_lt inside, List.getLastD_cons]
  rfl

theorem lastHead_eq_zero_or_mem (text : List Char) (n : Nat) :
    lastHead text n = 0 ∨ lastHead text n ∈ lineEnds text n := by
  obtain zero | found := getLastD_eq_or_mem (lineHeads text n) 0
  · exact .inl zero
  · exact List.mem_cons.1 (List.mem_filter.1 found).1

theorem lastHead_le (text : List Char) (n : Nat) : lastHead text n ≤ n := by
  obtain zero | found := lastHead_eq_zero_or_mem text n
  · omega
  · exact (mem_lineEnds.1 found).1

def sinceHead (text : List Char) (n : Nat) : List Char := (text.take n).drop (lastHead text n)

theorem sinceHead_of_lt {text : List Char} {n : Nat} (inside : n < text.length) :
    sinceHead text n = lineBefore text n := by
  rw [sinceHead, lastHead_of_lt inside]
  rfl

theorem take_lastHead_append_sinceHead (text : List Char) (n : Nat) :
    text.take (lastHead text n) ++ sinceHead text n = text.take n :=
  take_append_drop_take text (lastHead_le text n)

end Text

end SourceStamp
