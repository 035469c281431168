import SourceStamp.Proofs.SourceMap.Position
import SourceStamp.Proofs.Tag

/-! A tag tells the places in a file apart. Further on in a text the map counts as many lines or more,
and as long as it counts no more of them the column grows. A tag holds both numbers.
-/

set_option autoImplicit false

namespace SourceStamp

namespace Text

theorem utf16Length_take_lt {text : List Char} {n : Nat} (inside : n < text.length) :
    utf16Length (text.take n) < utf16Length text := by
  have whole := utf16Length_append (text.take n) (text.drop n)
  rw [List.take_append_drop] at whole
  have rest := length_le_utf16Length (text.drop n)
  rw [List.length_drop] at rest
  omega

-- Lines are only added, so equally many lines are the same lines.
theorem lastHead_eq_of_length_eq {text : List Char} {n m : Nat} (order : n ≤ m)
    (lines : (lineHeads text n).length = (lineHeads text m).length) :
    lastHead text n = lastHead text m := by
  rw [lastHead, (lineHeads_sublist text order).eq_of_length lines]
  rfl

theorem utf16Length_sinceHead_lt {text : List Char} {n m : Nat} (order : n < m)
    (inside : m ≤ text.length)
    (lines : (lineHeads text n).length = (lineHeads text m).length) :
    utf16Length (sinceHead text n) < utf16Length (sinceHead text m) := by
  have first := congrArg utf16Length (take_lastHead_append_sinceHead text n)
  have second := congrArg utf16Length (take_lastHead_append_sinceHead text m)
  rw [utf16Length_append] at first second
  have shorter : utf16Length ((text.take m).take n) < utf16Length (text.take m) := by
    apply utf16Length_take_lt
    rw [List.length_take]
    omega
  rw [List.take_take, Nat.min_eq_left (Nat.le_of_lt order)] at shorter
  rw [lastHead_eq_of_length_eq (Nat.le_of_lt order) lines] at first
  omega

-- No two places share both numbers.
theorem index_eq_of_lineHeads {text : List Char} {n m : Nat} (inside : n ≤ text.length)
    (inside' : m ≤ text.length)
    (lines : (lineHeads text n).length = (lineHeads text m).length)
    (units : utf16Length (sinceHead text n) = utf16Length (sinceHead text m)) : n = m := by
  obtain less | same | more := Nat.lt_trichotomy n m
  · have := utf16Length_sinceHead_lt less inside' lines
    omega
  · exact same
  · have := utf16Length_sinceHead_lt more inside lines.symm
    omega

end Text

namespace SourceFile

open Text

/-- A position between two characters of a file, or at one of its ends. -/
def IsBoundary (sources : List (String × String)) (k pos : Nat) : Prop :=
  ∃ source before after, sources[k]? = some source ∧
    before ++ after = withoutMark source.2.toList ∧ pos = startOf sources k + utf8Length before

end SourceFile

namespace Stamper

open Text SourceFile

theorem tag_of_boundary (stamper : Stamper) {sources : List (String × String)} {span : Span}
    {k : Nat} {source : String × String} {before after : List Char}
    (asked : stamper.sourceMap = some (.ofSources sources)) (numbered : sources[k]? = some source)
    (split : before ++ after = withoutMark source.2.toList)
    (start : span.start = startOf sources k + utf8Length before) (written : span.isDummy = false) :
    stamper.tag span = .ok (Tag.format (Path.relative stamper.baseDir source.1)
      (lineHeads (withoutMark source.2.toList) before.length).length
      (utf16Length (sinceHead (withoutMark source.2.toList) before.length) + 1)) := by
  let file : SourceFile := ⟨source.1, String.ofList (withoutMark source.2.toList), startOf sources k⟩
  have text : file.text.toList = withoutMark source.2.toList := String.toList_ofList
  have position : span.start = file.boundary before.length := by
    rw [start, boundary, text, ← split, List.take_left]
  have inside : before.length ≤ file.text.toList.length := by
    rw [text, ← split, List.length_append]
    exact Nat.le_add_right _ _
  have found : SourceMap.fileAt? (layOut sources) span.start = some file := by
    apply fileAt?_layOutFrom numbered rfl
    · rw [start]
      exact Nat.le_add_right _ _
    · rw [start, extent, ← split, utf8Length_append]
      show startOf sources k + _ < startOf sources k + _
      omega
  have place : (SourceMap.ofSources sources).locate span.start = .ok (file.locate span.start) := by
    unfold SourceMap.ofSources
    dsimp only
    rw [found]
  unfold tag
  rw [asked]
  dsimp only
  rw [written, if_neg Bool.false_ne_true, place]
  show Except.ok _ = _
  rw [position, utf16Column_locate_of_le inside, locate_boundary_of_le inside, text]

/-- Two places of one file have different tags, whatever is in the file and whatever its name. -/
theorem tag_ne_of_start_ne (stamper : Stamper) {sources : List (String × String)} {k : Nat}
    {span other : Span} (asked : stamper.sourceMap = some (.ofSources sources))
    (first : IsBoundary sources k span.start) (second : IsBoundary sources k other.start)
    (written : span.isDummy = false) (written' : other.isDummy = false)
    (apart : span.start ≠ other.start) :
    ∃ tag tag', stamper.tag span = .ok tag ∧ stamper.tag other = .ok tag' ∧ tag ≠ tag' := by
  obtain ⟨source, before, after, numbered, split, start⟩ := first
  obtain ⟨source', before', after', numbered', split', start'⟩ := second
  cases numbered.symm.trans numbered'
  refine ⟨_, _, stamper.tag_of_boundary asked numbered split start written,
    stamper.tag_of_boundary asked numbered split' start' written', ?_⟩
  intro same
  obtain ⟨-, lines, cols⟩ := Tag.format_inj.1 same
  have lengths : before.length = before'.length := by
    apply index_eq_of_lineHeads _ _ lines (Nat.add_right_cancel cols)
    · rw [← split, List.length_append]
      exact Nat.le_add_right _ _
    · rw [← split', List.length_append]
      exact Nat.le_add_right _ _
  obtain ⟨sameText, -⟩ := List.append_inj (split.trans split'.symm) lengths
  apply apart
  rw [start, start', sameText]

/-- The end of a file whose last line is empty, and the place before it, inside of the line end. -/
theorem tag_ne_of_start_ne_last_line :
    let sources := [("a:1] .js", "é\u2028\r\n")]
    let stamper : Stamper := ⟨some (.ofSources sources), none, "d"⟩
    ∃ tag tag', stamper.tag ⟨7, 8⟩ = .ok tag ∧ stamper.tag ⟨8, 8⟩ = .ok tag' ∧ tag ≠ tag' := by
  intro sources stamper
  have inside : IsBoundary sources 0 (Span.mk 7 8).start :=
    ⟨_, ['é', '\u2028', '\r'], ['\n'], rfl, by decide, by decide⟩
  have last : IsBoundary sources 0 (Span.mk 8 8).start :=
    ⟨_, ['é', '\u2028', '\r', '\n'], [], rfl, by decide, by decide⟩
  exact tag_ne_of_start_ne stamper rfl inside last (by decide) (by decide) (by decide)

end Stamper

end SourceStamp
