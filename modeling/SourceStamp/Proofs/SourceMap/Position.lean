import SourceStamp.Proofs.SourceMap.Lines
import SourceStamp.Stamp.Stamper

/-! Where the source map of a list of files puts a position, and the tag that comes of it. A position
is named by a file and a number of characters in front of it. The map breaks lines at fewer
characters than the column of a tag does, and still the two columns never part: the line as the tag
sees it ends the line as the map sees it, so where their lengths agree they are the same line.
-/

set_option autoImplicit false

namespace SourceStamp

namespace Location

open Text

theorem lastLine_append_suffix {front line : List Char}
    (ended : ∀ c, front.getLast? = some c → isLineEnd c) : lastLine (front ++ line) <:+ line := by
  unfold lastLine
  have stops : front.reverse.takeWhile (fun c => !isLineEnd c) = [] := by
    cases eq : front.reverse with
    | nil => rfl
    | cons c rest =>
      have last : front.getLast? = some c := by rw [← List.head?_reverse, eq, List.head?_cons]
      rw [List.takeWhile_cons_of_neg (by simp [ended c last])]
  rw [List.reverse_append, List.takeWhile_append, stops, List.append_nil]
  rw [← List.reverse_prefix, List.reverse_reverse]
  split
  · exact List.prefix_rfl
  · exact List.takeWhile_prefix _

-- A column that counts code units stands as it is, whatever the last line is taken to be.
theorem utf16Column_eq {place : Location} {pos : Nat} {before line : List Char}
    (known : place.textBefore? pos = some before) (suffix : lastLine before <:+ line)
    (col : place.col = utf16Length line) : place.utf16Column pos = utf16Length line := by
  obtain ⟨skipped, split⟩ := suffix
  have whole : utf16Length line = utf16Length skipped + utf16Length (lastLine before) := by
    rw [← utf16Length_append, split]
  have least := length_le_utf16Length (lastLine before)
  unfold utf16Column
  rw [known, Option.map_some]
  -- a match from below would need more characters than there are code units
  split
  · contradiction
  · rename_i found
    cases found
    split <;> omega

end Location

namespace SourceFile

open Text Location

theorem lineStartsFrom_cons (pos : Nat) (c : Char) (rest : List Char) :
    lineStartsFrom pos (c :: rest) =
      (if endsLine (c :: rest) 1 then [pos + c.utf8Size] else []) ++
        lineStartsFrom (pos + c.utf8Size) rest := by
  have carriage : ('\r').utf8Size = 1 := rfl
  rw [lineStartsFrom.eq_def]
  split
  · contradiction
  · rename_i same
    cases same
    -- the line ends behind the line feed, one step later
    rw [carriage, if_neg (by simp [endsLine]), List.nil_append]
    rfl
  · rename_i noFeed same
    cases same
    by_cases ends : c = '\n' ∨ c = '\r'
    · have size : c.utf8Size = 1 := by rcases ends with rfl | rfl <;> rfl
      have last : endsLine (c :: rest) 1 := by
        obtain rfl | rfl := ends
        · simp [endsLine]
        · cases rest with
          | nil => simp [endsLine]
          | cons next rest =>
            have : next ≠ '\n' := fun isFeed => noFeed rest rfl (by rw [isFeed])
            simp [endsLine, this]
      rw [if_pos ends, if_pos last, size]
      rfl
    · have inside : ¬ endsLine (c :: rest) 1 := by
        intro last
        have : c = '\n' ∨ c = '\r' ∧ ¬ rest[0]? = some '\n' := by simpa [endsLine] using last
        exact ends (this.imp_right And.left)
      rw [if_neg ends, if_neg inside]
      rfl

theorem lt_of_mem_lineStartsFrom {pos line : Nat} {text : List Char}
    (found : line ∈ lineStartsFrom pos text) : pos < line := by
  induction text generalizing pos with
  | nil => contradiction
  | cons c rest ih =>
    have := c.utf8Size_pos
    rw [lineStartsFrom_cons, List.mem_append] at found
    obtain here | later := found
    · split at here
      · rw [List.mem_singleton] at here
        omega
      · contradiction
    · have := ih later
      omega

-- The lines that start in the first `n` characters are those whose ends lie there.
theorem filter_lineStartsFrom (pos : Nat) (text : List Char) (n : Nat) :
    (lineStartsFrom pos text).filter (· ≤ pos + utf8Length (text.take n)) =
      (lineEnds text n).map fun index => pos + utf8Length (text.take index) := by
  induction n generalizing pos text with
  | zero =>
    rw [lineEnds_zero, List.map_nil, List.filter_eq_nil_iff]
    intro line found
    have := lt_of_mem_lineStartsFrom found
    simp only [List.take_zero, utf8Length, decide_eq_true_eq]
    omega
  | succ n ih =>
    cases text with
    | nil => rw [lineEnds_nil]; rfl
    | cons c rest =>
      have shift : ∀ index, pos + utf8Length ((c :: rest).take (index + 1)) =
          pos + c.utf8Size + utf8Length (rest.take index) := fun index => by
        rw [List.take_succ_cons, utf8Length, Nat.add_assoc]
      rw [lineStartsFrom_cons, lineEnds_cons, List.filter_append, List.map_append, List.map_map]
      simp only [Function.comp_def, shift, ih]
      congr 1
      split
      · simp [utf8Length]
      · rfl

theorem surplus_append (before after : List Char) :
    surplus (utf8Length before) (before ++ after) + utf16Length before = utf8Length before := by
  induction before with
  | nil => cases after <;> rfl
  | cons c cs ih =>
    have positive := c.utf8Size_pos
    have smaller := utf16Size_le_utf8Size c
    have rest : c.utf8Size + utf8Length cs - c.utf8Size = utf8Length cs := Nat.add_sub_cancel_left ..
    unfold utf8Length utf16Length
    rw [List.cons_append, surplus, if_neg (by omega), rest]
    omega

def boundary (file : SourceFile) (n : Nat) : Nat := file.start + utf8Length (file.text.toList.take n)

theorem boundary_sub_start (file : SourceFile) (n : Nat) :
    file.boundary n - file.start = utf8Length (file.text.toList.take n) := Nat.add_sub_cancel_left ..

theorem boundary_lt_stop {file : SourceFile} {n : Nat} (inside : n < file.text.toList.length) :
    file.boundary n < file.stop := by
  have := utf8Length_take_lt inside
  unfold boundary stop
  omega

theorem boundary_eq_stop_iff {file : SourceFile} {n : Nat} (inside : n ≤ file.text.toList.length) :
    file.boundary n = file.stop ↔ n = file.text.toList.length := by
  constructor
  · intro last
    apply Nat.le_antisymm inside
    apply Nat.le_of_not_lt
    intro before
    have := boundary_lt_stop before
    omega
  · rintro rfl
    rw [boundary, List.take_length]
    rfl

theorem unitOffset_boundary (file : SourceFile) (n : Nat) :
    file.unitOffset (file.boundary n) = utf16Length (file.text.toList.take n) := by
  have balance := surplus_append (file.text.toList.take n) (file.text.toList.drop n)
  rw [List.take_append_drop] at balance
  rw [unitOffset, boundary_sub_start]
  omega

-- The lines that the map knows up to a place; the one at the end of the file is dropped.
theorem filter_lineStarts {file : SourceFile} {n : Nat} (inside : n ≤ file.text.toList.length) :
    file.lineStarts.filter (· ≤ file.boundary n) =
      (lineHeads file.text.toList n).map file.boundary := by
  have upTo : (file.start :: lineStartsFrom file.start file.text.toList).filter
      (· ≤ file.boundary n) = (0 :: lineEnds file.text.toList n).map file.boundary := by
    rw [List.filter_cons_of_pos (by simp [boundary]), boundary, filter_lineStartsFrom]
    rfl
  have swap : ∀ line, (decide (line ≤ file.boundary n) && decide (line ≠ file.stop)) =
      (decide (line ≠ file.stop) && decide (line ≤ file.boundary n)) := fun _ => Bool.and_comm ..
  rw [lineStarts, List.filter_filter]
  simp only [swap]
  rw [← List.filter_filter, upTo, List.filter_map, lineHeads]
  apply congrArg (List.map file.boundary)
  apply List.filter_congr
  intro index found
  have inText := Nat.le_trans (le_of_mem_cons_lineEnds found) inside
  rw [Function.comp_apply, decide_eq_decide]
  exact not_congr (boundary_eq_stop_iff inText)

/-- The map counts the lines, and the code units from the start of the line. -/
theorem locate_boundary_of_le {file : SourceFile} {n : Nat}
    (inside : n ≤ file.text.toList.length) :
    file.locate (file.boundary n) =
      ⟨file, (lineHeads file.text.toList n).length, utf16Length (sinceHead file.text.toList n)⟩ := by
  have start : (file.lineStarts.filter (· ≤ file.boundary n)).getLastD file.start =
      file.boundary (lastHead file.text.toList n) := by
    have first : file.start = file.boundary 0 := rfl
    rw [filter_lineStarts inside, first, List.getLastD_map]
    rfl
  have units := utf16Length_append (file.text.toList.take (lastHead file.text.toList n))
    (sinceHead file.text.toList n)
  rw [take_lastHead_append_sinceHead] at units
  unfold locate
  dsimp only
  rw [start, filter_lineStarts inside, unitOffset_boundary, unitOffset_boundary, units,
    List.length_map, Nat.add_sub_cancel_left]

/-- Inside the text no line is dropped. -/
theorem locate_boundary {file : SourceFile} {n : Nat} (inside : n < file.text.toList.length) :
    file.locate (file.boundary n) =
      ⟨file, 1 + (lineEnds file.text.toList n).length, utf16Length (lineBefore file.text.toList n)⟩ := by
  rw [locate_boundary_of_le (Nat.le_of_lt inside), lineHeads_of_lt inside, sinceHead_of_lt inside,
    List.length_cons, Nat.add_comm]

theorem isLineEnd_of_endsLine {text : List Char} {index : Nat} (ends : endsLine text index) {c : Char}
    (last : (text.take index).getLast? = some c) : isLineEnd c := by
  cases index with
  | zero => contradiction
  | succ index =>
    have ended : text[index]? = some '\n' ∨ text[index]? = some '\r' ∧ ¬ text[index + 1]? = some '\n' := by
      simpa [endsLine] using ends
    have same : ∀ d, text[index]? = some d → d = c := by
      intro d found
      rw [List.take_add_one, found] at last
      simpa using last
    obtain feed | ⟨carriage, -⟩ := ended
    · rw [← same _ feed]
      rfl
    · rw [← same _ carriage]
      rfl

theorem textBefore?_boundary (place : Location) (n : Nat) :
    place.textBefore? (place.file.boundary n) = some (place.file.text.toList.take n) := by
  have cut := splitAtByte?_utf8Length (place.file.text.toList.take n) (place.file.text.toList.drop n)
  rw [List.take_append_drop] at cut
  unfold textBefore?
  rw [if_neg (by simp [boundary]), boundary_sub_start, cut]
  rfl

theorem utf16Column_locate_of_le {file : SourceFile} {n : Nat}
    (inside : n ≤ file.text.toList.length) :
    (file.locate (file.boundary n)).utf16Column (file.boundary n) =
      utf16Length (sinceHead file.text.toList n) := by
  rw [locate_boundary_of_le inside]
  have suffix : lastLine (file.text.toList.take n) <:+ sinceHead file.text.toList n := by
    rw [← take_lastHead_append_sinceHead]
    apply lastLine_append_suffix
    intro c last
    obtain zero | found := lastHead_eq_zero_or_mem file.text.toList n
    · rw [zero] at last
      contradiction
    · exact isLineEnd_of_endsLine (mem_lineEnds.1 found).2 last
  exact utf16Column_eq (textBefore?_boundary _ n) suffix rfl

theorem utf16Column_locate {file : SourceFile} {n : Nat} (inside : n < file.text.toList.length) :
    (file.locate (file.boundary n)).utf16Column (file.boundary n) =
      utf16Length (lineBefore file.text.toList n) := by
  rw [utf16Column_locate_of_le (Nat.le_of_lt inside), sinceHead_of_lt inside]

/-- How many positions a text takes up in the row, the free one behind it included. -/
def extent (source : String × String) : Nat := utf8Length (withoutMark source.2.toList) + 1

def startOf (sources : List (String × String)) (k : Nat) : Nat :=
  (sources.take k).foldl (fun start source => start + extent source) 1

theorem layOutFrom_cons (start : Nat) (source : String × String) (rest : List (String × String)) :
    layOutFrom start (source :: rest) =
      ⟨source.1, String.ofList (withoutMark source.2.toList), start⟩ ::
        layOutFrom (start + extent source) rest := by
  rw [layOutFrom, stop, String.toList_ofList, Nat.add_assoc]
  rfl

theorem le_start_of_mem_layOutFrom {start : Nat} {sources : List (String × String)} {file : SourceFile}
    (found : file ∈ layOutFrom start sources) : start ≤ file.start := by
  induction sources generalizing start with
  | nil => contradiction
  | cons source rest ih =>
    rw [layOutFrom_cons, List.mem_cons] at found
    obtain rfl | later := found
    · exact Nat.le_refl _
    · have := ih later
      omega

theorem fileAt?_layOutFrom {start k pos : Nat} {sources : List (String × String)}
    {source : String × String} {file : SourceFile} (numbered : sources[k]? = some source)
    (laid : file = ⟨source.1, String.ofList (withoutMark source.2.toList),
      (sources.take k).foldl (fun start source => start + extent source) start⟩)
    (first : file.start ≤ pos) (last : pos < file.start + extent source) :
    SourceMap.fileAt? (layOutFrom start sources) pos = some file := by
  unfold SourceMap.fileAt?
  induction sources generalizing start k with
  | nil => contradiction
  | cons head rest ih =>
    rw [layOutFrom_cons]
    cases k with
    | zero =>
      cases numbered
      subst laid
      -- all other files start behind the position
      have others : (layOutFrom (start + extent source) rest).filter
          (fun file => file.start ≤ pos) = [] := by
        rw [List.filter_eq_nil_iff]
        intro file found
        have := le_start_of_mem_layOutFrom found
        have : pos < start + extent source := last
        simp only [decide_eq_true_eq]
        omega
      rw [List.filter_cons_of_pos (by simpa using first), others]
      rfl
    | succ k =>
      have found := ih numbered laid
      rw [List.filter_cons]
      split
      · rw [List.getLast?_cons, found]
        rfl
      · exact found

end SourceFile

namespace Stamper

open Text SourceFile

/-- The tag of code in a file names the line and the column as an editor counts them: the lines that
end up to the place, and the code units from there. -/
theorem tag_ofSources (stamper : Stamper) {sources : List (String × String)} {span : Span}
    {k n : Nat} {name source : String}
    (asked : stamper.sourceMap = some (.ofSources sources))
    (numbered : sources[k]? = some (name, source))
    (inside : n < (withoutMark source.toList).length)
    (start : span.start = startOf sources k + utf8Length ((withoutMark source.toList).take n))
    (written : span.isDummy = false) :
    stamper.tag span =
      .ok ("[" ++ Path.relative stamper.baseDir name ++
        ":" ++ toString (1 + (lineEnds (withoutMark source.toList) n).length) ++
        ":" ++ toString (1 + utf16Length (lineBefore (withoutMark source.toList) n)) ++ "] ") := by
  let file : SourceFile := ⟨name, String.ofList (withoutMark source.toList), startOf sources k⟩
  have text : file.text.toList = withoutMark source.toList := String.toList_ofList
  have position : span.start = file.boundary n := by rw [start, ← text]; rfl
  have before := utf8Length_take_lt inside
  have found : SourceMap.fileAt? (layOut sources) span.start = some file := by
    apply fileAt?_layOutFrom numbered rfl
    · rw [start]
      exact Nat.le_add_right _ _
    · rw [start]
      exact Nat.add_lt_add_left (Nat.lt_succ_of_lt before) _
  have place : (SourceMap.ofSources sources).locate span.start = .ok (file.locate span.start) := by
    unfold SourceMap.ofSources
    dsimp only
    rw [found]
  rw [← text] at inside ⊢
  unfold tag
  rw [asked]
  dsimp only
  rw [written, if_neg Bool.false_ne_true, place]
  show Except.ok _ = _
  rw [position, utf16Column_locate inside, locate_boundary inside, Nat.add_comm _ 1]
  rfl

/-- The second line of the second file, which has a byte order mark and a character of two code
units: the line break is counted once, and the paragraph separator ends no line. -/
theorem tag_ofSources_second_file :
    let sources := [("a.js", "x"), ("/p/b.js", "\ufeffa\r\n\u2029😀b")]
    (Stamper.mk (some (.ofSources sources)) (some "/p") "d").tag ⟨13, 14⟩ = .ok "[b.js:2:4] " := by
  intro sources
  have start : (Span.mk 13 14).start = startOf sources 1 +
      utf8Length ((withoutMark "\ufeffa\r\n\u2029😀b".toList).take 5) := by decide
  rw [tag_ofSources ⟨_, some "/p", "d"⟩ rfl rfl (by decide) start (by decide)]
  exact congrArg Except.ok (by decide)

end Stamper

end SourceStamp
