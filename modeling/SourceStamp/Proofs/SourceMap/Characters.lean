import SourceStamp.Proofs.SourceMap.Position

/-! Positions and the characters they fall between or into. A source map of files answers for every
position from 1 on, and has or has not a text for every span, as long as no character is cut.
-/

set_option autoImplicit false

namespace SourceStamp

namespace Text

/-- A number of bytes of a text that ends inside of a character. -/
def Cuts (n : Nat) (text : List Char) : Prop :=
  ∃ before c after, text = before ++ c :: after ∧ utf8Length before < n ∧
    n < utf8Length before + c.utf8Size

theorem not_cuts_nil (n : Nat) : ¬ Cuts n [] := by
  rintro ⟨before, c, after, split, -⟩
  simp at split

theorem cuts_cons_iff {n : Nat} {c : Char} {cs : List Char} :
    Cuts n (c :: cs) ↔ 0 < n ∧ n < c.utf8Size ∨ c.utf8Size ≤ n ∧ Cuts (n - c.utf8Size) cs := by
  constructor
  · rintro ⟨before, d, after, split, first, last⟩
    cases before with
    | nil =>
      cases split
      simp only [utf8Length] at first last
      exact .inl ⟨first, by omega⟩
    | cons head before =>
      cases split
      simp only [utf8Length] at first last
      exact .inr ⟨by omega, before, d, after, rfl, by omega, by omega⟩
  · rintro (⟨first, last⟩ | ⟨first, before, d, after, rfl, second, last⟩)
    · exact ⟨[], c, cs, rfl, first, by simpa [utf8Length] using last⟩
    · refine ⟨c :: before, d, after, rfl, ?_, ?_⟩
      · rw [utf8Length]; omega
      · rw [utf8Length]; omega

theorem cuts_append {n : Nat} {text : List Char} (front : List Char) (cuts : Cuts n text) :
    Cuts (utf8Length front + n) (front ++ text) := by
  obtain ⟨before, c, after, rfl, first, last⟩ := cuts
  refine ⟨front ++ before, c, after, by simp, ?_, ?_⟩
  · rw [utf8Length_append]; omega
  · rw [utf8Length_append]; omega

theorem append_of_splitAtByte? {n : Nat} {text before after : List Char}
    (split : splitAtByte? n text = some (before, after)) :
    text = before ++ after ∧ n = utf8Length before := by
  induction text generalizing n before with
  | nil =>
    cases n with
    | zero =>
      cases split
      exact ⟨rfl, rfl⟩
    | succ n => contradiction
  | cons c cs ih =>
    cases n with
    | zero =>
      cases split
      exact ⟨rfl, rfl⟩
    | succ n =>
      rw [splitAtByte?] at split
      split at split
      · obtain ⟨⟨rest, behind⟩, found, same⟩ := Option.map_eq_some_iff.1 split
        cases same
        obtain ⟨rfl, size⟩ := ih found
        refine ⟨rfl, ?_⟩
        rw [utf8Length]
        omega
      · contradiction

/-- A text can be split after as many bytes as it has, unless that cuts a character. -/
theorem splitAtByte?_eq_none_iff {n : Nat} {text : List Char} :
    splitAtByte? n text = none ↔ utf8Length text < n ∨ Cuts n text := by
  induction text generalizing n with
  | nil =>
    cases n with
    | zero => simp [splitAtByte?, utf8Length, not_cuts_nil]
    | succ n => simp [splitAtByte?, utf8Length]
  | cons c cs ih =>
    have positive := c.utf8Size_pos
    rw [cuts_cons_iff, utf8Length]
    cases n with
    | zero =>
      simp only [splitAtByte?, reduceCtorEq, false_iff]
      omega
    | succ n =>
      rw [splitAtByte?]
      split
      · rename_i fits
        rw [Option.map_eq_none_iff, ih]
        have first : ¬ n + 1 < c.utf8Size := by omega
        have size : utf8Length cs < n + 1 - c.utf8Size ↔ c.utf8Size + utf8Length cs < n + 1 := by omega
        simp [first, fits, size]
      · rename_i cut
        simp only [true_iff]
        exact .inr (.inl ⟨by omega, by omega⟩)

theorem cuts_iff {n : Nat} {text : List Char} :
    Cuts n text ↔ (splitAtByte? n text).isNone ∧ n ≤ utf8Length text := by
  rw [Option.isNone_iff_eq_none, splitAtByte?_eq_none_iff]
  constructor
  · intro cuts
    refine ⟨.inr cuts, ?_⟩
    obtain ⟨before, c, after, rfl, -, last⟩ := cuts
    rw [utf8Length_append, utf8Length]
    omega
  · rintro ⟨past | cuts, inside⟩
    · omega
    · exact cuts

instance (n : Nat) (text : List Char) : Decidable (Cuts n text) := decidable_of_iff' _ cuts_iff

end Text

namespace SourceFile

open Text Location

def Splits (file : SourceFile) (pos : Nat) : Prop :=
  file.start ≤ pos ∧ Cuts (pos - file.start) file.text.toList

instance (file : SourceFile) (pos : Nat) : Decidable (file.Splits pos) :=
  inferInstanceAs (Decidable (_ ∧ _))

theorem exists_splitAtByte?_of_not_splits {file : SourceFile} {pos : Nat} (first : file.start ≤ pos)
    (last : pos ≤ file.stop) (whole : ¬ file.Splits pos) :
    ∃ before after, splitAtByte? (pos - file.start) file.text.toList = some (before, after) := by
  cases split : splitAtByte? (pos - file.start) file.text.toList with
  | some parts => exact ⟨parts.1, parts.2, rfl⟩
  | none =>
    obtain past | cuts := splitAtByte?_eq_none_iff.1 split
    · unfold stop at last
      omega
    · exact absurd ⟨first, cuts⟩ whole

/-- A file has a text from one position to another if neither is inside of a character, or if the
second one is past its end. -/
theorem exists_slice? {file : SourceFile} {start stop : Nat} (first : file.start ≤ start)
    (order : start ≤ stop) (whole : ¬ file.Splits start) (whole' : ¬ file.Splits stop) :
    ∃ text, file.slice? start stop = .ok text := by
  unfold slice?
  split
  · exact ⟨none, rfl⟩
  · rename_i inside
    obtain ⟨before, after, split⟩ := exists_splitAtByte?_of_not_splits first (by omega) whole
    obtain ⟨text, size⟩ := append_of_splitAtByte? split
    rw [split]
    dsimp only
    cases behind : splitAtByte? (stop - start) after with
    | some parts => exact ⟨_, rfl⟩
    | none =>
      obtain past | cuts := splitAtByte?_eq_none_iff.1 behind
      · have whole := congrArg utf8Length text
        rw [utf8Length_append] at whole
        unfold SourceFile.stop at inside
        omega
      · have far : utf8Length before + (stop - start) = stop - file.start := by omega
        have cuts := cuts_append before cuts
        rw [far, ← text] at cuts
        exact absurd ⟨Nat.le_trans first order, cuts⟩ whole'

/-- The column of a tag is the one of the map: in the text both count code units, and past its end
there is no text that could tell of another one. -/
theorem utf16Column_locate_of_not_splits {file : SourceFile} {pos : Nat} (first : file.start ≤ pos)
    (whole : ¬ file.Splits pos) : (file.locate pos).utf16Column pos = (file.locate pos).col := by
  by_cases last : pos ≤ file.stop
  · obtain ⟨before, after, split⟩ := exists_splitAtByte?_of_not_splits first last whole
    obtain ⟨text, size⟩ := append_of_splitAtByte? split
    have inside : before.length ≤ file.text.toList.length := by
      rw [text, List.length_append]
      exact Nat.le_add_right _ _
    have place : pos = file.boundary before.length := by
      rw [boundary, text, List.take_left]
      omega
    rw [place, utf16Column_locate_of_le inside, locate_boundary_of_le inside]
  · have none_ : (file.locate pos).textBefore? pos = none := by
      have cut : splitAtByte? (pos - file.start) file.text.toList = none :=
        splitAtByte?_eq_none_iff.2 (.inl (by unfold stop at last; omega))
      unfold textBefore? locate
      dsimp only
      rw [if_neg (by omega), cut]
      rfl
    unfold utf16Column
    rw [none_]
    rfl

def InsideCharacter (sources : List (String × String)) (pos : Nat) : Prop :=
  ∃ file ∈ layOut sources, file.Splits pos

instance (sources : List (String × String)) (pos : Nat) : Decidable (InsideCharacter sources pos) :=
  inferInstanceAs (Decidable (∃ file ∈ layOut sources, file.Splits pos))

end SourceFile

namespace SourceMap

open SourceFile

theorem mem_of_fileAt? {files : List SourceFile} {file : SourceFile} {pos : Nat}
    (found : fileAt? files pos = some file) : file ∈ files ∧ file.start ≤ pos := by
  simpa using List.mem_of_getLast? found

theorem fileAt?_eq_none_iff {sources : List (String × String)} {pos : Nat} :
    fileAt? (layOut sources) pos = none ↔ pos = 0 ∨ sources = [] := by
  unfold fileAt?
  rw [List.getLast?_eq_none_iff, List.filter_eq_nil_iff]
  constructor
  · intro none_
    cases sources with
    | nil => exact .inr rfl
    | cons source rest =>
      have first := none_ _ (by rw [layOut, layOutFrom_cons]; exact List.mem_cons_self)
      simp only [decide_eq_true_eq] at first
      omega
  · rintro (rfl | rfl) file member
    · have := le_start_of_mem_layOutFrom member
      simp only [decide_eq_true_eq]
      omega
    · contradiction

theorem locate_ofSources_eq_ok_iff {sources : List (String × String)} {pos : Nat} {place : Location} :
    (ofSources sources).locate pos = .ok place ↔
      ∃ file, fileAt? (layOut sources) pos = some file ∧ place = file.locate pos := by
  unfold ofSources
  dsimp only
  cases fileAt? (layOut sources) pos with
  | none => simp
  | some file => simp [eq_comm]

theorem locate_ofSources_eq_error {sources : List (String × String)} {pos : Nat}
    (lost : pos = 0 ∨ sources = []) : (ofSources sources).locate pos = .error .noFile := by
  unfold ofSources
  dsimp only
  rw [fileAt?_eq_none_iff.2 lost]

theorem exists_locate_ofSources {sources : List (String × String)} {pos : Nat}
    (found : ¬ (pos = 0 ∨ sources = [])) : ∃ place, (ofSources sources).locate pos = .ok place := by
  cases file? : fileAt? (layOut sources) pos with
  | none => exact absurd (fileAt?_eq_none_iff.1 file?) found
  | some file => exact ⟨_, locate_ofSources_eq_ok_iff.2 ⟨file, file?, rfl⟩⟩

theorem exists_snippetIn? {sources : List (String × String)} {span : Span}
    (whole : ¬ InsideCharacter sources span.start) (whole' : ¬ InsideCharacter sources span.stop) :
    ∃ text, snippetIn? (layOut sources) span = .ok text := by
  unfold snippetIn?
  split
  · exact ⟨none, rfl⟩
  · rename_i order
    split
    · rename_i first last found found'
      split
      · obtain ⟨member, start⟩ := mem_of_fileAt? found
        exact exists_slice? start (by omega) (fun splits => whole ⟨first, member, splits⟩)
          fun splits => whole' ⟨first, member, splits⟩
      · exact ⟨none, rfl⟩
    · exact ⟨none, rfl⟩

end SourceMap

end SourceStamp
