import SourceStamp.Proofs.SourceMap.Characters

/-! Files in front of others. They move the others on by all that they take up, and where a position
stands and which text is between two of them is seen from the start of a file only. Positions in no
file, or past the last text, have no source text however the files are laid out.
-/

set_option autoImplicit false

namespace SourceStamp

namespace Span

/-- Moves a span on; what was made up stays where it is. -/
def shift (n : Nat) (span : Span) : Span :=
  if span.isDummy then span else ⟨span.start + n, span.stop + n⟩

theorem shift_of_isDummy {span : Span} (made : span.isDummy) (n : Nat) : span.shift n = span :=
  if_pos made

theorem shift_of_not_isDummy {span : Span} (written : span.isDummy = false) (n : Nat) :
    span.shift n = ⟨span.start + n, span.stop + n⟩ :=
  if_neg (by simp [written])

theorem isDummy_eq_false {span : Span} (positive : 0 < span.start) (below : span.start < reserved) :
    span.isDummy = false := by
  have apart : span ≠ dummy := by
    rintro rfl
    contradiction
  simp [isDummy, apart, below]

end Span

namespace SourceFile

open Text Location

def shift (n : Nat) (file : SourceFile) : SourceFile := ⟨file.name, file.text, file.start + n⟩

theorem shift_injective (n : Nat) : Function.Injective (shift n) := by
  rintro ⟨name, text, start⟩ ⟨name', text', start'⟩ same
  simpa [shift] using same

@[simp] theorem stop_shift (n : Nat) (file : SourceFile) : (file.shift n).stop = file.stop + n :=
  Nat.add_right_comm _ _ _

def totalExtent : List (String × String) → Nat
  | [] => 0
  | source :: rest => extent source + totalExtent rest

theorem layOutFrom_add (start n : Nat) (sources : List (String × String)) :
    layOutFrom (start + n) sources = (layOutFrom start sources).map (shift n) := by
  induction sources generalizing start with
  | nil => rfl
  | cons source rest ih =>
    rw [layOutFrom_cons, layOutFrom_cons, Nat.add_right_comm, ih, List.map_cons]
    rfl

theorem layOutFrom_append (start : Nat) (front sources : List (String × String)) :
    layOutFrom start (front ++ sources) =
      layOutFrom start front ++ layOutFrom (start + totalExtent front) sources := by
  induction front generalizing start with
  | nil => rfl
  | cons source rest ih =>
    rw [List.cons_append, layOutFrom_cons, layOutFrom_cons, ih, totalExtent, ← Nat.add_assoc]
    rfl

theorem layOut_append (front sources : List (String × String)) :
    layOut (front ++ sources) = layOut front ++ (layOut sources).map (shift (totalExtent front)) := by
  rw [layOut, layOutFrom_append, layOutFrom_add]
  rfl

theorem lineStartsFrom_add (pos n : Nat) (text : List Char) :
    lineStartsFrom (pos + n) text = (lineStartsFrom pos text).map (· + n) := by
  induction text generalizing pos with
  | nil => rfl
  | cons c rest ih =>
    rw [lineStartsFrom_cons, lineStartsFrom_cons, Nat.add_right_comm, ih, List.map_append]
    split <;> rfl

theorem lineStarts_shift (n : Nat) (file : SourceFile) :
    (file.shift n).lineStarts = file.lineStarts.map (· + n) := by
  have starts : (file.shift n).start :: lineStartsFrom (file.shift n).start file.text.toList =
      (file.start :: lineStartsFrom file.start file.text.toList).map (· + n) :=
    congrArg _ (lineStartsFrom_add file.start n file.text.toList)
  unfold lineStarts
  show ((file.shift n).start :: lineStartsFrom (file.shift n).start file.text.toList).filter _ = _
  rw [starts, List.filter_map]
  simp [Function.comp_def]

theorem unitOffset_shift (n : Nat) (file : SourceFile) (pos : Nat) :
    (file.shift n).unitOffset (pos + n) = file.unitOffset pos := by
  unfold unitOffset shift
  simp only [Nat.add_sub_add_right]

end SourceFile

def Location.shift (n : Nat) (place : Location) : Location :=
  ⟨place.file.shift n, place.line, place.col⟩

namespace SourceFile

open Text Location

theorem locate_shift (n : Nat) (file : SourceFile) (pos : Nat) :
    (file.shift n).locate (pos + n) = (file.locate pos).shift n := by
  have starts : (file.shift n).lineStarts.filter (· ≤ pos + n) =
      (file.lineStarts.filter (· ≤ pos)).map (· + n) := by
    rw [lineStarts_shift, List.filter_map]
    simp [Function.comp_def]
  have lineStart : ((file.shift n).lineStarts.filter (· ≤ pos + n)).getLastD (file.shift n).start =
      (file.lineStarts.filter (· ≤ pos)).getLastD file.start + n := by
    rw [starts]
    exact List.getLastD_map
  unfold locate
  dsimp only
  rw [lineStart, starts, List.length_map, unitOffset_shift, unitOffset_shift]
  rfl

theorem slice?_shift (n : Nat) (file : SourceFile) (start stop : Nat) :
    (file.shift n).slice? (start + n) (stop + n) = file.slice? start stop := by
  unfold slice?
  rw [stop_shift]
  simp only [shift, Nat.add_lt_add_iff_right, Nat.add_sub_add_right]

end SourceFile

theorem Location.utf16Column_shift (n : Nat) (place : Location) (pos : Nat) :
    (place.shift n).utf16Column (pos + n) = place.utf16Column pos := by
  have before : (place.shift n).textBefore? (pos + n) = place.textBefore? pos := by
    unfold textBefore? Location.shift SourceFile.shift
    simp only [Nat.add_lt_add_iff_right, Nat.add_sub_add_right]
  unfold utf16Column
  rw [before]
  rfl

namespace SourceFile

/-- A position of the sources, up to the end of the last file, that is inside of no character. -/
def Stands (sources : List (String × String)) (pos : Nat) : Prop :=
  0 < pos ∧ (∃ file ∈ layOut sources, pos ≤ file.stop) ∧ ¬ InsideCharacter sources pos

/-- The position of no file, or one past the end of the last file. -/
def Nowhere (sources : List (String × String)) (pos : Nat) : Prop :=
  pos = 0 ∨ ∀ file ∈ layOut sources, file.stop < pos

instance (sources : List (String × String)) (pos : Nat) : Decidable (Stands sources pos) :=
  inferInstanceAs (Decidable (_ ∧ (∃ file ∈ layOut sources, pos ≤ file.stop) ∧ _))

instance (sources : List (String × String)) (pos : Nat) : Decidable (Nowhere sources pos) :=
  inferInstanceAs (Decidable (_ ∨ ∀ file ∈ layOut sources, file.stop < pos))

theorem Stands.not_lost {sources : List (String × String)} {pos : Nat} (stands : Stands sources pos) :
    ¬ (pos = 0 ∨ sources = []) := by
  obtain ⟨positive, ⟨file, member, -⟩, -⟩ := stands
  rintro (rfl | rfl)
  · contradiction
  · contradiction

-- What is past all files stays so when files are taken away in front.
theorem Nowhere.of_append {front sources : List (String × String)} {pos : Nat}
    (nowhere : Nowhere (front ++ sources) pos) : Nowhere sources pos := by
  refine nowhere.imp_right fun past file member => ?_
  have := past (file.shift (totalExtent front))
    (by rw [layOut_append]; exact List.mem_append_right _ (List.mem_map_of_mem member))
  rw [stop_shift] at this
  omega

end SourceFile

namespace SourceMap

open SourceFile

variable (front : List (String × String)) {sources : List (String × String)} {pos : Nat}

theorem fileAt?_append (found : ¬ (pos = 0 ∨ sources = [])) :
    fileAt? (layOut (front ++ sources)) (pos + totalExtent front) =
      (fileAt? (layOut sources) pos).map (shift (totalExtent front)) := by
  have moved : ((layOut sources).map (shift (totalExtent front))).filter
        (fun file => file.start ≤ pos + totalExtent front) =
      ((layOut sources).filter fun file => file.start ≤ pos).map (shift (totalExtent front)) := by
    rw [List.filter_map]
    simp [Function.comp_def, shift]
  cases here : fileAt? (layOut sources) pos with
  | none => exact absurd (fileAt?_eq_none_iff.1 here) found
  | some file =>
    unfold fileAt? at here ⊢
    rw [layOut_append, List.filter_append, moved, List.getLast?_append, List.getLast?_map, here]
    rfl

theorem locate_append (found : ¬ (pos = 0 ∨ sources = [])) :
    (ofSources (front ++ sources)).locate (pos + totalExtent front) =
      ((ofSources sources).locate pos).map (Location.shift (totalExtent front)) := by
  unfold ofSources
  dsimp only
  rw [fileAt?_append front found]
  cases fileAt? (layOut sources) pos with
  | none => rfl
  | some file => exact congrArg Except.ok (locate_shift _ file pos)

theorem snippetIn?_append {start stop : Nat} (found : ¬ (start = 0 ∨ sources = []))
    (found' : ¬ (stop = 0 ∨ sources = [])) :
    snippetIn? (layOut (front ++ sources)) ⟨start + totalExtent front, stop + totalExtent front⟩ =
      snippetIn? (layOut sources) ⟨start, stop⟩ := by
  unfold snippetIn?
  dsimp only
  rw [fileAt?_append front found, fileAt?_append front found']
  simp only [Nat.add_lt_add_iff_right]
  cases fileAt? (layOut sources) start with
  | none => rfl
  | some first =>
    cases fileAt? (layOut sources) stop with
    | none => rfl
    | some last => simp only [Option.map_some, (shift_injective _).eq_iff, slice?_shift]

theorem snippetIn?_of_nowhere {span : Span}
    (nowhere : Nowhere sources span.start ∨ Nowhere sources span.stop) :
    snippetIn? (layOut sources) span = .ok none := by
  unfold snippetIn?
  split
  · rfl
  · rename_i order
    split
    · rename_i first last found found'
      split
      · -- a file at both ends holds neither of them
        rename_i same
        obtain ⟨member, -⟩ := mem_of_fileAt? found
        have past : first.stop < span.stop := by
          obtain (zero | past) | (zero | past) := nowhere
          · rw [fileAt?_eq_none_iff.2 (.inl zero)] at found
            contradiction
          · have := past first member
            omega
          · rw [fileAt?_eq_none_iff.2 (.inl zero)] at found'
            contradiction
          · exact past first member
        rw [slice?, if_pos past]
      · rfl
    · rfl

end SourceMap

end SourceStamp
