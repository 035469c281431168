import SourceStamp.Proofs.SourceMap.Characters
import SourceStamp.Proofs.Stamp.Log
import SourceStamp.Proofs.Stamp.Texts

/-! When stamping with the source map of a list of files fails. The only way is a target that stands
at a position which belongs to no file; a position past the end of a text is one of the last file,
and an argument without source text is shown by a placeholder.
-/

set_option autoImplicit false

namespace SourceStamp

open SourceFile

/-- Whether a span starts and ends between characters of the sources, or outside of them. -/
def Span.IsWhole (span : Span) (sources : List (String × String)) : Prop :=
  ¬ InsideCharacter sources span.start ∧ ¬ InsideCharacter sources span.stop

instance (span : Span) (sources : List (String × String)) : Decidable (span.IsWhole sources) :=
  inferInstanceAs (Decidable (_ ∧ _))

namespace Node

def IsLost (sources : List (String × String)) (node : Node) : Prop :=
  node.span.isDummy = false ∧ (node.span.start = 0 ∨ sources = [])

instance (sources : List (String × String)) (node : Node) : Decidable (node.IsLost sources) :=
  inferInstanceAs (Decidable (_ ∧ _))

def IsWhole (sources : List (String × String)) (node : Node) : Prop :=
  node.span.IsWhole sources ∧ ∀ subject, node.subject? = some subject → subject.span.IsWhole sources

theorem exists_subject_of_debug {node : Node} (kind : node.isTarget) {c : Call Node}
    (called : node.called? = some c) (debug : c.isOf "$debug") :
    ∃ subject rest, c.args = subject :: rest := by
  have inCall : ∀ d : Call Node, d.isTarget → d.isOf "$debug" → d.args ≠ [] := by
    intro d kind debug none_
    rcases Call.isTarget_cases kind with print | warn | ⟨-, subject, rest, shows⟩
    · exact absurd (Call.isOf_unique print debug) (by decide)
    · exact absurd (Call.isOf_unique warn debug) (by decide)
    · rw [none_] at shows
      contradiction
  apply List.exists_cons_of_ne_nil
  cases node with
  | call d =>
    cases called
    exact inCall c kind debug
  | optCall role span optional d =>
    cases role with
    | expression =>
      cases called
      exact inCall (d.withSpan span) kind debug
    | assignTarget => contradiction
  | _ => contradiction

end Node

namespace Stamper

variable {stamper : Stamper} {sources : List (String × String)}
  (asked : stamper.sourceMap = some (.ofSources sources))
include asked

theorem exists_sourceText_of_isWhole {arg : Argument Node} (whole : arg.span.IsWhole sources) :
    ∃ text, stamper.sourceText arg = .ok text :=
  exists_sourceText_of_asked asked fun _ => SourceMap.exists_snippetIn? whole.1 whole.2

theorem textOf_of_isLost {node : Node} (lost : node.IsLost sources) :
    stamper.textOf node = .error .noFile := by
  unfold textOf
  rw [tag_of_asked asked lost.1, SourceMap.locate_ofSources_eq_error lost.2]
  rfl

theorem exists_textOf_of_not_isLost {node : Node} (whole : node.IsWhole sources)
    (found : ¬ node.IsLost sources) : ∃ text, stamper.textOf node = .ok text := by
  refine exists_textOf_iff.2 ⟨(exists_tag_iff asked).2 fun written => ?_, fun subject shown => ?_⟩
  · exact SourceMap.exists_locate_ofSources fun nowhere => found ⟨written, nowhere⟩
  · exact exists_sourceText_of_isWhole asked (whole.2 subject shown)

-- Nothing is to be corrected about the column that the map gives.
theorem tag_of_isWhole {span : Span} (written : span.isDummy = false) (whole : span.IsWhole sources)
    {place : Location} (located : (SourceMap.ofSources sources).locate span.start = .ok place) :
    stamper.tag span = .ok (Tag.format (Path.relative stamper.baseDir place.file.name) place.line
      (place.col + 1)) := by
  rw [tag_of_asked asked written, located]
  obtain ⟨file, found, rfl⟩ := SourceMap.locate_ofSources_eq_ok_iff.1 located
  obtain ⟨member, first⟩ := SourceMap.mem_of_fileAt? found
  have column := utf16Column_locate_of_not_splits first fun splits => whole.1 ⟨file, member, splits⟩
  show Except.ok _ = _
  rw [column]

omit asked

/-- A pass over a program of the sources, in which no position that counts is inside of a character,
fails exactly if an outermost target stands at a position of no file, and it fails because of that.
A `$debug` call that is stamped has an argument to show. A place is never in front of its file, and
the column in a tag is always the one that the source map gives. -/
theorem run_fails_iff_lost (stamper : Stamper) (collects : Bool) {sources : List (String × String)}
    (program : Node) (asked : stamper.sourceMap = some (.ofSources sources))
    (whole : ∀ address old, program.OutermostTarget address old → old.span.IsWhole sources ∧
      ∀ subject, old.subject? = some subject → subject.span.IsWhole sources) :
    (stamper.run collects program = .error .noFile ↔
      ∃ address old, program.OutermostTarget address old ∧ old.span.isDummy = false ∧
        (old.span.start = 0 ∨ sources = [])) ∧
    (stamper.run collects program ≠ .error .noFile →
      ∃ report, stamper.run collects program = .ok report) ∧
    ∀ address old, program.OutermostTarget address old →
      (∀ call, old.called? = some call → call.isOf "$debug" →
        ∃ subject rest, call.args = subject :: rest) ∧
      ∀ place, (SourceMap.ofSources sources).locate old.span.start = .ok place →
        place.file.start ≤ old.span.start ∧ (old.span.isDummy = false → stamper.tag old.span = .ok
          (Tag.format (Path.relative stamper.baseDir place.file.name) place.line (place.col + 1))) := by
  obtain ⟨fails, works⟩ := run_eq_error_iff_of_textOf (P := Node.IsLost sources) program
    (fun _ _ _ lost => textOf_of_isLost asked lost)
    (fun address old outermost found =>
      exists_textOf_of_not_isLost asked (whole address old outermost) found) collects
  refine ⟨fails, works, ?_⟩
  intro address old outermost
  constructor
  · intro call called debug
    exact Node.exists_subject_of_debug outermost.holds called debug
  · intro place located
    obtain ⟨file, found, rfl⟩ := SourceMap.locate_ofSources_eq_ok_iff.1 located
    refine ⟨(SourceMap.mem_of_fileAt? found).2, fun written => ?_⟩
    exact tag_of_isWhole asked written (whole address old outermost).1 located

/-- A throw behind the end of an empty file has a tag, with the column as the map counts it there; a
span that ends in front of its start has no text, and none is needed. -/
theorem run_fails_iff_lost_past_end :
    let sources := [("a.js", "é\n"), ("b.js", "")]
    let stamper : Stamper := ⟨some (.ofSources sources), none, "log"⟩
    let x : Node := .ident ⟨⟨4, 1⟩, 0, "x", false⟩
    let shown : Node := .call ⟨⟨3, 5⟩, 0, .ident ⟨⟨0, 2⟩, 0, "$debug", false⟩, [⟨none, x⟩], none⟩
    let program : Node := .list [shown, .throwStmt ⟨9, 9⟩ x]
    (∃ report, stamper.run true program = .ok report) ∧ stamper.tag ⟨9, 9⟩ = .ok "[b.js:0:5] " := by
  intro sources stamper x shown program
  have settled : ∀ address old, program.OutermostTarget address old →
      old.IsWhole sources ∧ ¬ old.IsLost sources := by
    rw [Node.forall_outermost_iff_of_not_isTarget rfl]
    refine List.forall_mem_cons.2 ⟨?_, List.forall_mem_singleton.2 ?_⟩
    · refine (Node.forall_outermost_iff_of_isTarget rfl).2 ⟨⟨by decide +kernel, ?_⟩, by decide⟩
      rintro _ ⟨⟩
      decide +kernel
    · refine (Node.forall_outermost_iff_of_isTarget rfl).2 ⟨⟨by decide +kernel, ?_⟩, by decide⟩
      rintro _ ⟨⟩
  obtain ⟨fails, works, each⟩ := run_fails_iff_lost stamper true program rfl
    fun address old outermost => (settled address old outermost).1
  refine ⟨works fun failed => ?_, ?_⟩
  · obtain ⟨address, old, outermost, lost⟩ := fails.1 failed
    exact (settled address old outermost).2 lost
  · have outermost : program.OutermostTarget [1] (.throwStmt ⟨9, 9⟩ x) := Node.outermost_cons_iff.2
      ⟨by simp [program, Node.isTarget], _, rfl, Node.outermost_nil_iff.2 ⟨rfl, rfl⟩⟩
    have located : (SourceMap.ofSources sources).locate 9 = .ok ⟨⟨"b.js", "", 5⟩, 0, 4⟩ := by
      decide +kernel
    refine (((each [1] _ outermost).2 _ located).2 rfl).trans (congrArg Except.ok ?_)
    decide +kernel

end Stamper

end SourceStamp
