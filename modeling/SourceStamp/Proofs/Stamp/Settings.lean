import SourceStamp.Proofs.SourceMap.Characters
import SourceStamp.Proofs.Stamp.Log
import SourceStamp.Proofs.Stamp.Texts
import SourceStamp.Proofs.Syntax.Agreement

/-! What the settings reach. Which nodes are stamped, dropped and kept is settled by the tree alone;
the base directory shows in the texts that are put in, and the debug callee in one name.
-/

set_option autoImplicit false

namespace SourceStamp

namespace Node

/-- In what a stamped target may depend on the settings: the address of a node below it, and that
node under either setting. -/
inductive Varies : Node → Address → Node → Node → Prop
  -- The string in front of the arguments.
  | text {old : Node} {c : Call Node} {span : Span} {value value' : String} {raw : Option String} :
      old.called? = some c →
      Varies old [1] (.string ⟨span, value, raw⟩) (.string ⟨span, value', raw⟩)
  | callee {old : Node} {c : Call Node} {span : Span} {ctxt : Nat} {name name' : String}
      {optional : Bool} :
      old.called? = some c → c.isOf "$debug" →
      Varies old [0] (.ident ⟨span, ctxt, name, optional⟩) (.ident ⟨span, ctxt, name', optional⟩)
  | literal {span literalSpan : Span} {argument : Node} {value value' : String}
      {raw raw' : Option String} :
      argument.thrownShape? = some .literal →
      Varies (.throwStmt span argument) [0] (.string ⟨literalSpan, value, raw⟩)
        (.string ⟨literalSpan, value', raw'⟩)
  | head {span literalSpan headSpan : Span} {argument : Node} {exprs : List Node} {tail : Bool}
      {cooked cooked' : Option String} {raw raw' : String} {rest : List TemplateElement} :
      argument.thrownShape? = some .template →
      Varies (.throwStmt span argument) [0]
        (.template literalSpan exprs (⟨headSpan, tail, cooked, raw⟩ :: rest))
        (.template literalSpan exprs (⟨headSpan, tail, cooked', raw'⟩ :: rest))
  -- The string on the left of a thrown identifier.
  | summand {span literalSpan : Span} {argument : Node} {value value' : String}
      {raw : Option String} :
      argument.thrownShape? = some .ident →
      Varies (.throwStmt span argument) [0, 0] (.string ⟨literalSpan, value, raw⟩)
        (.string ⟨literalSpan, value', raw⟩)

theorem agree_withText {varies : Address → Node → Node → Prop} (c : Call Node)
    {name name' text text' : String} (typeArgs : Option Node)
    (callee : name' = name ∨ varies [0] (.ident ⟨c.callee.span, 0, name, false⟩)
      (.ident ⟨c.callee.span, 0, name', false⟩))
    (first : varies [1] (.string ⟨.dummy, text, none⟩) (.string ⟨.dummy, text', none⟩)) :
    Agree varies (.call (c.withText name text typeArgs)) (.call (c.withText name' text' typeArgs)) := by
  refine agree_of_children (.inl (alike_call rfl rfl rfl rfl)) ?_
  rintro (_ | _ | index)
  · refine .some (agree_of_no_children rfl rfl (callee.imp_left ?_))
    rintro rfl
    exact alike_refl _
  · exact .some (agree_of_no_children rfl rfl (.inr first))
  · -- behind the text both calls have what the old one has
    exact rel_agree_self _

variable {callee callee' text text' : String} {target : Target}

theorem agree_stamped_call {old : Node} {c : Call Node} (called : old.called? = some c)
    (found : c.target? = some target) :
    Agree old.Varies (target.stamped callee text) (target.stamped callee' text') := by
  rcases Call.isTarget_cases (Call.isTarget_of_target? found) with
    print | warn | ⟨debug, subject, rest, shows⟩
  · cases found.symm.trans (Call.target?_of_print print)
    exact agree_withText c none (.inl rfl) (.text called)
  · cases found.symm.trans (Call.target?_of_warn warn)
    exact agree_withText c none (.inl rfl) (.text called)
  · cases found.symm.trans (Call.target?_of_debug debug shows)
    exact agree_withText c c.typeArgs (.inr (.callee called debug)) (.text called)

-- Two forms of one target: they part in the texts, and at most in the callee besides.
theorem agree_stamped {old : Node} (found : old.target? = some target) :
    Agree old.Varies (target.stamped callee text) (target.stamped callee' text') := by
  have kind := isTarget_of_target? found
  cases old with
  | call c => exact agree_stamped_call rfl found
  | optCall role span optional c =>
    cases role with
    | expression => exact agree_stamped_call rfl found
    | assignTarget => cases kind
  | throwStmt span argument =>
    cases argument with
    | string literal =>
      cases found
      exact agree_throwStmt span (agree_of_no_children rfl rfl (.inr (.literal rfl)))
    | ident id =>
      cases found
      refine agree_throwStmt span (agree_of_children (.inl ⟨rfl, rfl⟩) ?_)
      rintro (_ | _ | index)
      · exact .some (agree_of_no_children rfl rfl (.inr (.summand rfl)))
      · exact .some (agree_refl _)
      · exact .none
    | template literalSpan exprs quasis =>
      cases exprs with
      | nil =>
        cases found
        exact agree_throwStmt span (agree_of_no_children rfl rfl (.inr (.literal rfl)))
      | cons expr exprs =>
        cases found
        cases quasis with
        | nil => exact agree_refl _
        | cons head rest =>
          refine agree_throwStmt span (agree_of_children (.inr (.head rfl)) ?_)
          intro index
          exact rel_agree_self _
    | _ => cases kind
  | _ => cases kind

def TargetsVary (root : Node) (address : Address) (node other : Node) : Prop :=
  ∃ place below old, address = place ++ below ∧ root.OutermostTarget place old ∧
    old.Varies below node other

theorem targetsVary_of_isTarget {root : Node} (kind : root.isTarget) {address : Address}
    {node other : Node} (varies : root.Varies address node other) :
    root.TargetsVary address node other :=
  ⟨[], address, root, rfl, outermost_nil_iff.2 ⟨rfl, kind⟩, varies⟩

theorem targetsVary_cons {root part : Node} (other : root.isTarget = false) {index : Nat}
    (found : root.children[index]? = some part) {rest : Address} {node node' : Node}
    (varies : part.TargetsVary rest node node') : root.TargetsVary (index :: rest) node node' := by
  obtain ⟨place, below, old, rfl, outermost, varies⟩ := varies
  exact ⟨index :: place, below, old, rfl,
    outermost_cons_iff.2 ⟨by simp [other], part, found, outermost⟩, varies⟩

end Node

namespace Stamper

open Node

variable {stamper other : Stamper}

/-- Passes under any two settings walk through the tree in the same way. -/
theorem agree_of_pass {root new new' : Node} {events events' : List Event}
    (result : stamper.pass root = .ok (new, events))
    (result' : other.pass root = .ok (new', events')) : Agree root.TargetsVary new new' := by
  induction root using Node.induct generalizing new new' events events' with
  | step root ih =>
    cases kind : root.isTarget with
    | true =>
      obtain ⟨target, text, found, -, rule, -⟩ := (pass_eq_ok_iff_of_isTarget kind).1 result
      obtain ⟨_, _, -, -, rule', -⟩ := (pass_eq_ok_iff_of_isTarget kind).1 result'
      obtain ⟨_, same, rfl⟩ := rule_iff.1 rule
      obtain ⟨_, same', rfl⟩ := rule_iff.1 rule'
      cases found.symm.trans same
      cases found.symm.trans same'
      exact (agree_stamped found).mono fun _ _ _ => targetsVary_of_isTarget kind
    | false =>
      obtain ⟨outcomes, results, rfl, -⟩ := (pass_eq_ok_iff_of_not_isTarget kind).1 result
      obtain ⟨outcomes', results', rfl, -⟩ := (pass_eq_ok_iff_of_not_isTarget kind).1 result'
      have fits : (outcomes.map Prod.fst).length = root.children.length := by
        rw [List.length_map, length_of_mapM results]
      have fits' : (outcomes'.map Prod.fst).length = root.children.length := by
        rw [List.length_map, length_of_mapM results']
      refine agree_of_children (.inl (withChildren_alike_withChildren root fits fits')) ?_
      intro index
      rw [children_withChildren root _ fits, children_withChildren root _ fits']
      cases found : root.children[index]? with
      | none =>
        have past := List.getElem?_eq_none_iff.1 found
        rw [List.getElem?_eq_none (by rwa [fits]), List.getElem?_eq_none (by rwa [fits'])]
        exact .none
      | some part =>
        obtain ⟨outcome, here, done⟩ := getElem?_of_mapM results found
        obtain ⟨outcome', here', done'⟩ := getElem?_of_mapM results' found
        rw [List.getElem?_map, List.getElem?_map, here, here']
        exact .some ((ih part (List.mem_of_getElem? found) done done').mono
          fun _ _ _ => targetsVary_cons kind found)

section

variable (same : other.sourceMap = stamper.sourceMap)
include same

theorem sourceText_eq_of_sourceMap_eq (arg : Argument Node) :
    other.sourceText arg = stamper.sourceText arg := by
  unfold sourceText snippet?
  rw [same]

theorem exists_textOf_of_sourceMap_eq {node : Node}
    (known : ∃ text, stamper.textOf node = .ok text) : ∃ text, other.textOf node = .ok text := by
  obtain ⟨place, shown⟩ := exists_textOf_iff.1 known
  refine exists_textOf_iff.2 ⟨?_, fun subject found => ?_⟩
  · cases asked : stamper.sourceMap with
    | none =>
      unfold Stamper.tag
      rw [same, asked]
      exact ⟨_, rfl⟩
    | some sourceMap => exact (exists_tag_iff (same.trans asked)).2 ((exists_tag_iff asked).1 place)
  · rw [sourceText_eq_of_sourceMap_eq same]
    exact shown subject found

theorem textOf_eq_of_relative_eq
    (paths : ∀ sourceMap ∈ stamper.sourceMap, ∀ pos place, sourceMap.locate pos = .ok place →
      Path.relative other.baseDir place.file.name = Path.relative stamper.baseDir place.file.name)
    (node : Node) : other.textOf node = stamper.textOf node := by
  have tags : other.tag node.span = stamper.tag node.span := by
    unfold Stamper.tag
    cases asked : stamper.sourceMap with
    | none => simp only [same, asked]
    | some sourceMap =>
      simp only [same, asked]
      refine if_congr Iff.rfl rfl (bind_congr_of_ok fun place located => ?_)
      rw [paths sourceMap asked node.span.start place located]
  simp only [textOf, tags, sourceText_eq_of_sourceMap_eq same]

end

/-- Passes over one program with one source map, but under different settings, give trees that agree
in all nodes, except for the texts that are put into the outermost targets and for the callee that
takes the place of `$debug`. Where the debug callees are the same, and the base directories lead to
the same paths of files, so are the reports. -/
theorem run_agrees (stamper other : Stamper) (collects : Bool) (program : Node)
    (same : other.sourceMap = stamper.sourceMap) (answers : stamper.AnswersPass program) :
    ∃ report report', stamper.run collects program = .ok report ∧
      other.run collects program = .ok report' ∧
      Node.Agree (fun address node node' => ∃ place below old, address = place ++ below ∧
        program.OutermostTarget place old ∧ old.Varies below node node')
        report.program report'.program ∧
      (other.debugCallee = stamper.debugCallee →
        (∀ sourceMap ∈ stamper.sourceMap, ∀ pos place, sourceMap.locate pos = .ok place →
          Path.relative other.baseDir place.file.name =
            Path.relative stamper.baseDir place.file.name) →
        report' = report) := by
  obtain ⟨new, events, passed, result⟩ := exists_run_of_answersPass answers collects
  have answers' : other.AnswersPass program := fun address node outermost =>
    exists_textOf_of_sourceMap_eq same (answers address node outermost)
  obtain ⟨new', events', passed', result'⟩ := exists_run_of_answersPass answers' collects
  refine ⟨_, _, result, result', ?_, ?_⟩
  · rw [reportOf_program, reportOf_program]
    exact agree_of_pass passed passed'
  · intro callee paths
    have again := pass_congr callee
      (fun _ node _ => textOf_eq_of_relative_eq same paths node) passed
    cases again.symm.trans passed'
    rfl

/-- Two spellings of one base directory give one report. The thrown identifier was made up: its tag
asks no base directory. -/
theorem run_agrees_debug :
    let sourceMap := SourceMap.ofSources [("/app/a.ts", "$debug(x)")]
    let x : Node := .ident ⟨⟨8, 9⟩, 0, "x", false⟩
    let shown : Node := .call ⟨⟨1, 10⟩, 0, .ident ⟨⟨1, 7⟩, 0, "$debug", false⟩, [⟨none, x⟩], none⟩
    let program : Node := .list [.throwStmt ⟨0, 0⟩ x, shown]
    ∃ report, Stamper.run ⟨some sourceMap, some "/app", "log"⟩ true program = .ok report ∧
      Stamper.run ⟨some sourceMap, some "/app/./", "log"⟩ true program = .ok report ∧
      ∃ report', Stamper.run ⟨some sourceMap, none, "show"⟩ true program = .ok report' ∧
        Node.Agree (fun address node node' => ∃ place below old, address = place ++ below ∧
          program.OutermostTarget place old ∧ old.Varies below node node')
          report.program report'.program := by
  intro sourceMap x shown program
  let stamper : Stamper := ⟨some sourceMap, some "/app", "log"⟩
  have answers : stamper.AnswersPass program := by
    rw [answersPass_iff_of_not_isTarget rfl]
    refine List.forall_mem_cons.2 ⟨?_, List.forall_mem_singleton.2 ?_⟩
    · exact (answersPass_iff_of_isTarget rfl).2 ⟨"[unknown:0:0] ", by decide +kernel⟩
    · exact (answersPass_iff_of_isTarget rfl).2 ⟨"[a.ts:1:1] x = ", by decide +kernel⟩
  obtain ⟨report, same, passed, again, -, equal⟩ :=
    run_agrees stamper ⟨some sourceMap, some "/app/./", "log"⟩ true program rfl answers
  obtain ⟨first, report', passed₁, passed', agree, -⟩ :=
    run_agrees stamper ⟨some sourceMap, none, "show"⟩ true program rfl answers
  cases passed.symm.trans passed₁
  have paths : ∀ map ∈ stamper.sourceMap, ∀ pos place, map.locate pos = .ok place →
      Path.relative (some "/app/./") place.file.name = Path.relative (some "/app") place.file.name := by
    rintro _ ⟨⟩ pos place located
    obtain ⟨file, found, rfl⟩ := SourceMap.locate_ofSources_eq_ok_iff.1 located
    cases List.mem_singleton.1 (SourceMap.mem_of_fileAt? found).1
    show Path.relative (some "/app/./") "/app/a.ts" = Path.relative (some "/app") "/app/a.ts"
    decide +kernel
  cases equal rfl paths
  exact ⟨report, passed, again, report', passed', agree⟩

end Stamper

end SourceStamp
