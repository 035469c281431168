import SourceStamp.Proofs.Stamp.Outermost

/-! A pass knows of its source map and its base directory only the texts of the outermost targets.
Where these stay the same the pass does, and it fails as one of them does.
-/

set_option autoImplicit false

namespace SourceStamp

def Node.IsWritten (node : Node) : Prop :=
  node.span.isDummy = false ∨ ∃ subject, node.subject? = some subject ∧ subject.span.isDummy = false

/-- What a pass over a program asks is answered: the place of each outermost target and the text that it
shows, where they stand in the source. -/
def SourceMap.AnswersAbout (sourceMap : SourceMap) (program : Node) : Prop :=
  ∀ address node, program.OutermostTarget address node →
    (node.span.isDummy = false → ∃ place, sourceMap.locate node.span.start = .ok place) ∧
      ∀ subject, node.subject? = some subject → subject.span.isDummy = false →
        ∃ text?, sourceMap.snippet? subject.span = .ok text?

namespace Stamper

variable {stamper other : Stamper}

theorem tag_of_isDummy {span : Span} (made : span.isDummy) : stamper.tag span = .ok Tag.unknown := by
  unfold tag
  split
  · rfl
  · rw [if_pos made]

theorem snippet?_of_isDummy {span : Span} (made : span.isDummy) :
    stamper.snippet? span = .ok none := by
  unfold snippet?
  split
  · rfl
  · rw [if_pos made]

theorem sourceText_of_isDummy {arg : Argument Node} (made : arg.span.isDummy) :
    stamper.sourceText arg = .ok (placeholder arg.expr) :=
  sourceText_of_snippet? (snippet?_of_isDummy made)

theorem tag_of_asked {sourceMap : SourceMap} (asked : stamper.sourceMap = some sourceMap)
    {span : Span} (written : span.isDummy = false) :
    stamper.tag span = sourceMap.locate span.start >>= fun place =>
      return Tag.format (Path.relative stamper.baseDir place.file.name) place.line
        (place.utf16Column span.start + 1) := by
  unfold tag
  rw [asked]
  dsimp only
  rw [written, if_neg Bool.false_ne_true]

theorem exists_tag_iff {sourceMap : SourceMap} (asked : stamper.sourceMap = some sourceMap)
    {span : Span} : (∃ tag, stamper.tag span = .ok tag) ↔
      (span.isDummy = false → ∃ place, sourceMap.locate span.start = .ok place) := by
  cases written : span.isDummy with
  | true => exact iff_of_true ⟨_, tag_of_isDummy written⟩ fun made => by contradiction
  | false =>
    rw [tag_of_asked asked written]
    constructor
    · rintro ⟨tag, known⟩ -
      obtain ⟨place, located, -⟩ := bind_eq_ok_iff.1 known
      exact ⟨place, located⟩
    · intro known
      obtain ⟨place, located⟩ := known rfl
      exact ⟨_, bind_eq_ok_iff.2 ⟨place, located, rfl⟩⟩

theorem snippet?_of_asked {sourceMap : SourceMap} (asked : stamper.sourceMap = some sourceMap)
    {span : Span} (written : span.isDummy = false) :
    stamper.snippet? span = sourceMap.snippet? span := by
  unfold snippet?
  rw [asked]
  dsimp only
  rw [written, if_neg Bool.false_ne_true]

theorem exists_sourceText_of_asked {sourceMap : SourceMap}
    (asked : stamper.sourceMap = some sourceMap) {arg : Argument Node}
    (known : arg.span.isDummy = false → ∃ text?, sourceMap.snippet? arg.span = .ok text?) :
    ∃ text, stamper.sourceText arg = .ok text := by
  cases written : arg.span.isDummy with
  | true => exact ⟨_, sourceText_of_isDummy written⟩
  | false =>
    obtain ⟨text?, found⟩ := known written
    exact ⟨_, sourceText_of_snippet? ((snippet?_of_asked asked written).trans found)⟩

theorem answersPass_of_answersAbout {program : Node}
    (answers : ∀ sourceMap ∈ stamper.sourceMap, sourceMap.AnswersAbout program) :
    stamper.AnswersPass program := by
  intro address node outermost
  cases asked : stamper.sourceMap with
  | none =>
    -- without a source map nothing is asked
    exact stamper.exists_textOf (fun sourceMap given => by rw [asked] at given; contradiction) node
  | some sourceMap =>
    obtain ⟨place, shown⟩ := answers sourceMap asked address node outermost
    refine exists_textOf_iff.2 ⟨(exists_tag_iff asked).2 place, fun subject found => ?_⟩
    exact exists_sourceText_of_asked asked (shown subject found)

-- The text of code that was made up is the same under all settings.
theorem exists_textOf_of_not_isWritten {node : Node} (made : ¬ node.IsWritten) :
    ∃ text, ∀ stamper : Stamper, stamper.textOf node = .ok text := by
  simp only [Node.IsWritten, not_or, Bool.not_eq_false, not_exists, not_and] at made
  obtain ⟨place, shown⟩ := made
  unfold textOf
  cases found : node.subject? with
  | none =>
    refine ⟨Tag.unknown, fun stamper => ?_⟩
    rw [tag_of_isDummy place]
    rfl
  | some subject =>
    refine ⟨Tag.unknown ++ placeholder subject.expr ++ " = ", fun stamper => ?_⟩
    rw [tag_of_isDummy place]
    simp only [sourceText_of_isDummy (shown subject found)]
    rfl

theorem run_eq_error_iff {collects : Bool} {program : Node} {error : LookupError} :
    stamper.run collects program = .error error ↔ stamper.pass program = .error error := by
  rw [run, bind_eq_error_iff]
  constructor
  · rintro (failed | ⟨⟨new, events⟩, -, done⟩)
    · exact failed
    · cases collects <;> contradiction
  · exact .inl

theorem exists_outermost_of_pass_eq_error {root : Node} {error : LookupError}
    (failed : stamper.pass root = .error error) :
    ∃ address node, root.OutermostTarget address node ∧ stamper.textOf node = .error error := by
  induction root using Node.induct with
  | step root ih =>
    rw [pass_eq, passNode] at failed
    cases kind : root.isTarget with
    | true =>
      obtain ⟨target, found⟩ := Node.exists_target kind
      rw [found] at failed
      obtain stamping | ⟨_, -, done⟩ := bind_eq_error_iff.1 failed
      · obtain unknown | ⟨_, -, done⟩ := bind_eq_error_iff.1 stamping
        · exact ⟨[], root, Node.outermost_nil_iff.2 ⟨rfl, kind⟩,
            (stamper.textOf_eq found).trans unknown⟩
        · contradiction
      · contradiction
    | false =>
      rw [Node.target?_eq_none kind] at failed
      obtain below | ⟨_, -, done⟩ := bind_eq_error_iff.1 failed
      · rw [List.mapM_map] at below
        obtain ⟨part, member, failed⟩ := exists_mem_of_mapM_eq_error below
        obtain ⟨rest, node, outermost, unknown⟩ := ih part member failed
        obtain ⟨index, found⟩ := List.getElem?_of_mem member
        exact ⟨index :: rest, node,
          Node.outermost_cons_iff.2 ⟨by simp [kind], part, found, outermost⟩, unknown⟩
      · contradiction

/-- If the texts of the nodes of one kind are missing for one reason, and all others are there, a
pass fails exactly if there is an outermost target of that kind. -/
theorem run_eq_error_iff_of_textOf {P : Node → Prop} {reason : LookupError} (program : Node)
    (missing : ∀ address old, program.OutermostTarget address old → P old →
      stamper.textOf old = .error reason)
    (known : ∀ address old, program.OutermostTarget address old → ¬ P old →
      ∃ text, stamper.textOf old = .ok text) (collects : Bool) :
    (stamper.run collects program = .error reason ↔
      ∃ address old, program.OutermostTarget address old ∧ P old) ∧
    (stamper.run collects program ≠ .error reason →
      ∃ report, stamper.run collects program = .ok report) := by
  have cause : ∀ failure, stamper.run collects program = .error failure → failure = reason ∧
      ∃ address old, program.OutermostTarget address old ∧ P old := by
    intro failure failed
    obtain ⟨address, old, outermost, unknown⟩ :=
      exists_outermost_of_pass_eq_error (run_eq_error_iff.1 failed)
    by_cases kind : P old
    · cases (missing address old outermost kind).symm.trans unknown
      exact ⟨rfl, address, old, outermost, kind⟩
    · obtain ⟨text, there⟩ := known address old outermost kind
      cases there.symm.trans unknown
  cases result : stamper.run collects program with
  | error failure =>
    obtain ⟨rfl, found⟩ := cause failure result
    exact ⟨iff_of_true rfl found, fun kept => absurd rfl kept⟩
  | ok report =>
    refine ⟨iff_of_false (by simp) ?_, fun _ => ⟨report, rfl⟩⟩
    rintro ⟨address, old, outermost, kind⟩
    obtain ⟨new, events, passed, -⟩ := run_eq_ok_iff.1 result
    obtain ⟨text, there⟩ := exists_pass_eq_ok_iff.1 ⟨_, passed⟩ address old outermost
    cases (missing address old outermost kind).symm.trans there

/-- Two stampers that give the outermost targets the same texts do the same. -/
theorem pass_congr (callee : other.debugCallee = stamper.debugCallee) {root new : Node}
    {events : List Event}
    (texts : ∀ address node, root.OutermostTarget address node →
      other.textOf node = stamper.textOf node)
    (result : stamper.pass root = .ok (new, events)) : other.pass root = .ok (new, events) := by
  induction root using Node.induct generalizing new events with
  | step root ih =>
    cases kind : root.isTarget with
    | true =>
      have text := (Node.forall_outermost_iff_of_isTarget kind).1 texts
      rw [pass_eq_ok_iff_of_isTarget kind] at result ⊢
      rwa [callee, text]
    | false =>
      have below := (Node.forall_outermost_iff_of_not_isTarget kind).1 texts
      rw [pass_eq_ok_iff_of_not_isTarget kind] at result ⊢
      obtain ⟨outcomes, results, rfl, rfl⟩ := result
      refine ⟨outcomes, ?_, rfl, rfl⟩
      rw [← List.map_id root.children, ← List.map_id outcomes]
      exact mapM_map_eq_ok results fun part member _ done => ih part member (below part member) done

end Stamper

end SourceStamp
