import SourceStamp.Proofs.SourceMap.Distinct

/-! Texts whose lines end in another way. A carriage return, alone or with a line feed behind it, can stand
for each line feed of a text. The places in the text move on by the characters that come in, but each keeps
the number of its line and what is in front of it there, and so it keeps its tag.
-/

set_option autoImplicit false

namespace SourceStamp

namespace Text

/-- What stands for a line feed. -/
inductive LineEnding where
  | carriageReturn
  | carriageReturnLineFeed

namespace LineEnding

def toList : LineEnding → List Char
  | carriageReturn => ['\r']
  | carriageReturnLineFeed => ['\r', '\n']

def convertChar (ending : LineEnding) (c : Char) : List Char := if c = '\n' then ending.toList else [c]

def convert (ending : LineEnding) (text : List Char) : List Char := text.flatMap ending.convertChar

section

variable (ending : LineEnding)

theorem convertChar_of_ne {c : Char} (plain : c ≠ '\n') : ending.convertChar c = [c] := if_neg plain

theorem convert_cons (c : Char) (text : List Char) :
    ending.convert (c :: text) = ending.convertChar c ++ ending.convert text := List.flatMap_cons

theorem convert_append (front text : List Char) :
    ending.convert (front ++ text) = ending.convert front ++ ending.convert text := List.flatMap_append

theorem convert_eq_self {line : List Char} (noFeed : '\n' ∉ line) : ending.convert line = line := by
  induction line with
  | nil => rfl
  | cons c line ih =>
    rw [List.mem_cons, not_or] at noFeed
    rw [convert_cons, convertChar_of_ne ending (Ne.symm noFeed.1), ih noFeed.2]
    rfl

-- The character of a place is found where the place moves to, for a line feed the carriage return.
theorem head?_convert (text : List Char) :
    (ending.convert text).head? = text.head?.map fun c => if c = '\n' then '\r' else c := by
  cases text with
  | nil => rfl
  | cons c text =>
    rw [convert_cons, convertChar, List.head?_cons, Option.map_some]
    split
    · cases ending <;> rfl
    · rfl

theorem length_convert_lt (before after : List Char) (c : Char) :
    (ending.convert before).length < (ending.convert (before ++ c :: after)).length := by
  have found : ending.convert (c :: after) ≠ [] := by
    intro empty
    have first := head?_convert ending (c :: after)
    rw [empty] at first
    contradiction
  rw [convert_append, List.length_append]
  exact Nat.lt_add_of_pos_right (List.length_pos_iff.2 found)

theorem head?_convert_ne_feed (text : List Char) : (ending.convert text).head? ≠ some '\n' := by
  rw [head?_convert, ne_eq, Option.map_eq_some_iff]
  rintro ⟨c, -, same⟩
  split at same
  · contradiction
  · contradiction

theorem withoutMark_convert (text : List Char) :
    SourceFile.withoutMark (ending.convert text) = ending.convert (SourceFile.withoutMark text) := by
  cases text with
  | nil => rfl
  | cons c text =>
    by_cases feed : c = '\n'
    · subst feed
      cases ending <;> rfl
    · have plain := convertChar_of_ne ending feed
      rw [convert_cons, plain, List.singleton_append, SourceFile.withoutMark, SourceFile.withoutMark]
      split
      · rfl
      · rw [convert_cons, plain, List.singleton_append]

-- A line feed behind its carriage return leaves one end of a line, behind both.
theorem lineEnds_convertChar_append {c : Char} (plain : c ≠ '\r') {rest : List Char}
    (noFeed : rest.head? ≠ some '\n') (n : Nat) :
    lineEnds (ending.convertChar c ++ rest) (n + (ending.convertChar c).length) =
      (if c = '\n' then [(ending.convertChar c).length] else []) ++
        (lineEnds rest n).map (· + (ending.convertChar c).length) := by
  unfold convertChar
  split
  · cases ending with
    | carriageReturn =>
      show lineEnds ('\r' :: rest) (n + 1) = [1] ++ (lineEnds rest n).map (· + 1)
      rw [lineEnds_cons, if_pos (endsLine_one.2 (.inr ⟨rfl, noFeed⟩))]
    | carriageReturnLineFeed =>
      show lineEnds ('\r' :: '\n' :: rest) (n + 1 + 1) = [2] ++ (lineEnds rest n).map (· + 2)
      have first : ¬ endsLine ('\r' :: '\n' :: rest) 1 := by simp [endsLine_one]
      rw [lineEnds_cons, if_neg first, lineEnds_cons, if_pos (endsLine_one.2 (.inl rfl)),
        List.map_append, List.map_map]
      rfl
  · rename_i noEnd
    show lineEnds (c :: rest) (n + 1) = [] ++ (lineEnds rest n).map (· + 1)
    have inside : ¬ endsLine (c :: rest) 1 := by simp [endsLine_one, plain, noEnd]
    rw [lineEnds_cons, if_neg inside]

end

section

variable (ending : LineEnding) {before : List Char} (after : List Char) (noCarriage : '\r' ∉ before)

include noCarriage

-- The ends of the lines move like all other places, and none comes in between.
theorem lineEnds_convert :
    lineEnds (ending.convert (before ++ after)) (ending.convert before).length =
      (lineEnds (before ++ after) before.length).map fun index =>
        (ending.convert (before.take index)).length := by
  induction before with
  | nil => rfl
  | cons c before ih =>
    rw [List.mem_cons, not_or] at noCarriage
    have plain : c ≠ '\r' := Ne.symm noCarriage.1
    have ends : endsLine (c :: (before ++ after)) 1 ↔ c = '\n' := by simp [endsLine_one, plain]
    have moved : ∀ index, (ending.convert ((c :: before).take (index + 1))).length =
        (ending.convert (before.take index)).length + (ending.convertChar c).length := fun index => by
      rw [List.take_succ_cons, convert_cons, List.length_append, Nat.add_comm]
    rw [List.cons_append, convert_cons, convert_cons, List.length_append, Nat.add_comm,
      lineEnds_convertChar_append ending plain (head?_convert_ne_feed ending _), ih noCarriage.2,
      List.length_cons, lineEnds_cons, List.map_append, List.map_map, List.map_map]
    simp only [Function.comp_def, moved, ends]
    congr 1
    split
    · simp [convert]
    · rfl

theorem lineStart_convert :
    lineStart (ending.convert (before ++ after)) (ending.convert before).length =
      (ending.convert (before.take (lineStart (before ++ after) before.length))).length := by
  unfold lineStart
  rw [lineEnds_convert ending after noCarriage]
  -- the start of the text moves nowhere
  exact List.getLastD_map (a := 0)

theorem lineBefore_convert :
    lineBefore (ending.convert (before ++ after)) (ending.convert before).length =
      lineBefore (before ++ after) before.length := by
  have noFeed : '\n' ∉ lineBefore (before ++ after) before.length :=
    feed_notMem_lineBefore (by simp)
  have parts := convert_append ending (before.take (lineStart (before ++ after) before.length))
    (before.drop (lineStart (before ++ after) before.length))
  rw [List.take_append_drop] at parts
  rw [lineBefore, List.take_left] at noFeed
  rw [lineBefore, lineBefore, lineStart_convert ending after noCarriage, convert_append,
    List.take_left, List.take_left, parts, List.drop_left, convert_eq_self ending noFeed]

variable (c : Char)

-- In front of a character no line is dropped, neither here nor there.
theorem length_lineHeads_convert :
    (lineHeads (ending.convert (before ++ c :: after)) (ending.convert before).length).length =
      (lineHeads (before ++ c :: after) before.length).length := by
  rw [lineHeads_of_lt (length_convert_lt ending before after c), lineHeads_of_lt (by simp),
    lineEnds_convert ending (c :: after) noCarriage, List.length_cons, List.length_cons,
    List.length_map]

theorem sinceHead_convert :
    sinceHead (ending.convert (before ++ c :: after)) (ending.convert before).length =
      sinceHead (before ++ c :: after) before.length := by
  rw [sinceHead_of_lt (length_convert_lt ending before after c), sinceHead_of_lt (by simp),
    lineBefore_convert ending (c :: after) noCarriage]

end

end LineEnding

end Text

namespace SourceFile

theorem withoutMark_suffix (text : List Char) : withoutMark text <:+ text := by
  cases text with
  | nil => exact List.suffix_rfl
  | cons c text =>
    rw [withoutMark]
    split
    · exact List.suffix_cons c text
    · exact List.suffix_rfl

end SourceFile

namespace Stamper

open Text SourceFile LineEnding

-- The end of a text is left out: behind a line feed there the map starts no line, and so it counts the two
-- characters of a pair as two columns.
/-- A place in front of a character of a text has the same tag as the place in front of that character in the
text with other line endings. -/
theorem tag_convert {stamper stamper' : Stamper} (ending : LineEnding)
    {sources sources' : List (String × String)} {span span' : Span} {k k' : Nat}
    {name source : String} {before after : List Char} {c : Char}
    (asked : stamper.sourceMap = some (.ofSources sources))
    (asked' : stamper'.sourceMap = some (.ofSources sources'))
    (sameBase : stamper.baseDir = stamper'.baseDir)
    (numbered : sources[k]? = some (name, source))
    (numbered' : sources'[k']? = some (name, String.ofList (ending.convert source.toList)))
    (noCarriage : '\r' ∉ source.toList)
    (split : before ++ c :: after = withoutMark source.toList)
    (start : span.start = startOf sources k + utf8Length before)
    (start' : span'.start = startOf sources' k' + utf8Length (ending.convert before))
    (written : span.isDummy = false) (written' : span'.isDummy = false) :
    ∃ tag, stamper.tag span = .ok tag ∧ stamper'.tag span' = .ok tag := by
  have split' : ending.convert before ++ ending.convert (c :: after) =
      withoutMark (String.ofList (ending.convert source.toList)).toList := by
    rw [← convert_append, split, String.toList_ofList, withoutMark_convert]
  have inFront : '\r' ∉ before := by
    intro found
    apply noCarriage
    apply (withoutMark_suffix source.toList).mem
    rw [← split]
    exact List.mem_append_left _ found
  refine ⟨_, stamper.tag_of_boundary asked numbered split start written, ?_⟩
  rw [stamper'.tag_of_boundary asked' numbered' split' start' written', sameBase, ← split',
    ← convert_append, length_lineHeads_convert ending after inFront,
    sinceHead_convert ending after inFront, split]

/-- At the line feed of an empty line; and behind a line separator and a character of two code units, where
the carriage returns stand alone. -/
theorem tag_convert_empty_line :
    let feeds := [("a.js", "x"), ("/p/b.js", "\ufeffé\n\n\u2028😀b")]
    let pairs := [("/p/b.js", "\ufeffé\r\n\r\n\u2028😀b")]
    let returns := [("c.js", ""), ("/p/b.js", "\ufeffé\r\r\u2028😀b")]
    let stamper (sources : List (String × String)) : Stamper := ⟨some (.ofSources sources), some "/p", "d"⟩
    (∃ tag, (stamper feeds).tag ⟨6, 7⟩ = .ok tag ∧ (stamper pairs).tag ⟨5, 7⟩ = .ok tag) ∧
      ∃ tag, (stamper feeds).tag ⟨14, 15⟩ = .ok tag ∧ (stamper returns).tag ⟨13, 14⟩ = .ok tag := by
  intro feeds pairs returns stamper
  constructor
  · have start : (Span.mk 6 7).start = startOf feeds 1 + utf8Length ['é', '\n'] := by decide
    have start' : (Span.mk 5 7).start = startOf pairs 0 +
        utf8Length (LineEnding.carriageReturnLineFeed.convert ['é', '\n']) := by decide
    have split : ['é', '\n'] ++ '\n' :: ['\u2028', '😀', 'b'] =
        withoutMark "\ufeffé\n\n\u2028😀b".toList := by decide
    exact tag_convert .carriageReturnLineFeed rfl rfl rfl rfl rfl (by decide) split start start'
      (by decide) (by decide)
  · have start : (Span.mk 14 15).start =
        startOf feeds 1 + utf8Length ['é', '\n', '\n', '\u2028', '😀'] := by decide
    have start' : (Span.mk 13 14).start = startOf returns 1 +
        utf8Length (LineEnding.carriageReturn.convert ['é', '\n', '\n', '\u2028', '😀']) := by decide
    have split : ['é', '\n', '\n', '\u2028', '😀'] ++ 'b' :: [] =
        withoutMark "\ufeffé\n\n\u2028😀b".toList := by decide
    exact tag_convert .carriageReturn rfl rfl rfl rfl rfl (by decide) split start start'
      (by decide) (by decide)

end Stamper

end SourceStamp
