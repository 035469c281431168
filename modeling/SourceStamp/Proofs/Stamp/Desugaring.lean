import SourceStamp.Proofs.Stamp.Face
import SourceStamp.Proofs.Stamp.Outermost
import SourceStamp.Proofs.Syntax.Spans

/-! Optional calls that are stamped, written as plain ones. A target looks the same from outside
whichever of the two ways it is written, and so do the texts that it gets, so it makes no difference
whether a tree is rewritten to plain calls before a pass or after it.
-/

set_option autoImplicit false

namespace SourceStamp

namespace Node

/-- An optional call that is a target, as a plain call in the place of its chain. -/
def plain : Node → Node
  | .optCall .expression span optional c =>
    if c.isTarget then .call (c.withSpan span) else .optCall .expression span optional c
  | node => node

def desugar : Node → Node := fold fun node parts => (node.withChildren parts).plain

theorem desugar_eq (node : Node) : node.desugar = (node.mapChildren desugar).plain := fold_eq _ node

/-! ## One node -/

-- What cannot tell the chain from the call does not notice the rewriting.
theorem view_plain {α : Type} (view : Node → α)
    (same : ∀ span optional c,
      view (.call (c.withSpan span)) = view (.optCall .expression span optional c))
    (node : Node) : view node.plain = view node := by
  cases node with
  | optCall role span optional c =>
    cases role with
    | expression =>
      rw [plain]
      split
      · exact same span optional c
      · rfl
    | assignTarget => rfl
  | _ => rfl

@[simp] theorem face_plain (node : Node) : node.plain.face = node.face :=
  view_plain face (fun _ _ _ => rfl) node

@[simp] theorem span_plain (node : Node) : node.plain.span = node.span :=
  view_plain span (fun _ _ _ => rfl) node

@[simp] theorem isTarget_plain (node : Node) : node.plain.isTarget = node.isTarget :=
  view_plain isTarget (fun _ _ _ => rfl) node

@[simp] theorem subject?_plain (node : Node) : node.plain.subject? = node.subject? :=
  view_plain subject? (fun _ _ _ => rfl) node

@[simp] theorem target?_plain (node : Node) : node.plain.target? = node.target? :=
  view_plain target? (fun _ _ _ => rfl) node

@[simp] theorem children_plain (node : Node) : node.plain.children = node.children :=
  view_plain children (fun _ _ _ => rfl) node

theorem plain_plain (node : Node) : node.plain.plain = node.plain := by
  cases node with
  | optCall role span optional c =>
    cases role with
    | expression =>
      by_cases kind : c.isTarget
      · rw [plain, if_pos kind]
        rfl
      · rw [plain, if_neg kind, plain, if_neg kind]
    | assignTarget => rfl
  | _ => rfl

theorem plain_of_not_isTarget {node : Node} (other : node.isTarget = false) : node.plain = node := by
  cases node with
  | optCall role span optional c =>
    cases role with
    | expression =>
      have none_ : ¬ c.isTarget := by simpa [isTarget] using other
      rw [plain, if_neg none_]
    | assignTarget => rfl
  | _ => rfl

theorem rule_plain {debugCallee text : String} {node new : Node}
    (rule : Rule debugCallee text node new) :
    Rule debugCallee text node.plain new ∧ new.plain = new := by
  refine ⟨?_, ?_⟩
  · obtain ⟨target, found, rfl⟩ := rule_iff.1 rule
    exact rule_iff.2 ⟨target, by rw [target?_plain, found], rfl⟩
  · induction rule with
    | chain _ ih => exact ih
    | _ => rfl

/-! ## The whole tree -/

theorem keepsFace_desugar : KeepsFace desugar where
  face_eq := by
    intro node
    rw [desugar_eq, face_plain]
    exact face_withChildren node _
  below := by
    intro node other
    rw [desugar_eq]
    cases node with
    | call | optCall | throwStmt => contradiction
    | record => simp [plain]
    | _ => rfl

theorem desugar_of_not_isTarget {node : Node} (other : node.isTarget = false) :
    node.desugar = node.mapChildren desugar := by
  rw [desugar_eq, plain_of_not_isTarget]
  rw [keepsFace_desugar.isTarget_mapChildren, other]

/-- No optional call that is a target is left. -/
theorem everywhere_plain_desugar (node : Node) :
    node.desugar.Everywhere fun part => part.plain = part := by
  induction node using Node.induct with
  | step node ih =>
    rw [desugar_eq, everywhere_iff, children_plain, children_mapChildren, List.forall_mem_map]
    exact ⟨plain_plain _, ih⟩

theorem leafSpan_desugar (node : Node) : node.desugar.leafSpan = node.leafSpan := by
  rw [desugar_eq, view_plain leafSpan fun _ _ _ => rfl]
  cases node with
  | record => simp [leafSpan]
  | _ => rfl

theorem span_desugar (node : Node) : node.desugar.span = node.span := by
  rw [desugar_eq, span_plain]
  cases node with
  | record fields =>
    rw [mapChildren_record, span_record, span_record, lookup_map, Option.map_map]
    simp only [Function.comp_def, leafSpan_desugar]
  | _ => rfl

theorem subject?_desugar (node : Node) :
    node.desugar.subject? = node.subject?.map fun arg => ⟨arg.spread, arg.expr.desugar⟩ := by
  have inCall : ∀ c : Call Node,
      (if (c.map desugar).isOf "$debug" then (c.map desugar).args.head? else none) =
        (if c.isOf "$debug" then c.args.head? else none).map
          fun arg => ⟨arg.spread, arg.expr.desugar⟩ := by
    intro c
    rw [(keepsFace_desugar.alike c).isOf_eq]
    split
    · exact List.head?_map
    · rfl
  rw [desugar_eq, subject?_plain]
  cases node with
  | call c =>
    rw [mapChildren_call]
    exact inCall c
  | optCall role span optional c =>
    rw [mapChildren_optCall]
    cases role with
    | expression => exact inCall c
    | assignTarget => rfl
  | record => simp [subject?]
  | _ => rfl

end Node

namespace Stamper

open Node

theorem placeholder_eq_face (node : Node) :
    placeholder node = (node.face.1.map Ident.name).getD "<expr>" := by
  cases node <;> rfl

variable (stamper : Stamper)

theorem sourceText_desugar (arg : Argument Node) :
    stamper.sourceText ⟨arg.spread, arg.expr.desugar⟩ = stamper.sourceText arg := by
  have same : (Argument.mk arg.spread arg.expr.desugar).span = arg.span := by
    unfold Argument.span
    rw [span_desugar]
  unfold sourceText
  rw [same, placeholder_eq_face, placeholder_eq_face, keepsFace_desugar.face_eq]

theorem textOf_desugar (node : Node) : stamper.textOf node.desugar = stamper.textOf node := by
  unfold textOf
  rw [span_desugar, subject?_desugar]
  cases node.subject? with
  | none => rfl
  | some subject => simp only [Option.map_some, sourceText_desugar]

variable {stamper}

theorem face_of_pass {node new : Node} {events : List Event}
    (result : stamper.pass node = .ok (new, events)) : new.face = node.face := by
  cases kind : node.isTarget with
  | true =>
    obtain ⟨_, _, -, -, rule, -⟩ := (pass_eq_ok_iff_of_isTarget kind).1 result
    exact rule.face_eq
  | false =>
    obtain ⟨_, -, rfl, -⟩ := (pass_eq_ok_iff_of_not_isTarget kind).1 result
    exact face_withChildren node _

-- On a target: the rule applies to the plain call as to the optional one.
theorem pass_desugar_of_isTarget {node new : Node} {events : List Event} (kind : node.isTarget)
    (result : stamper.pass node = .ok (new, events)) :
    stamper.pass node.desugar = .ok (new.desugar, events) := by
  obtain ⟨target, text, found, known, rule, rfl⟩ := (pass_eq_ok_iff_of_isTarget kind).1 result
  obtain ⟨target', found', logged⟩ := keepsFace_desugar.exists_target found
  obtain ⟨rule', plainNew⟩ := rule_plain (keepsFace_desugar.rule rule)
  have kind' : node.desugar.isTarget := by
    rw [desugar_eq, isTarget_plain, keepsFace_desugar.isTarget_mapChildren, kind]
  apply (pass_eq_ok_iff_of_isTarget kind').2
  refine ⟨target', text, ?_, ?_, ?_, by rw [logged]⟩
  · rw [desugar_eq, target?_plain, found']
  · rw [textOf_desugar, known]
  · rw [desugar_eq node, desugar_eq new, plainNew]
    exact rule'

/-- What a pass makes of a tree it makes of the desugared tree, desugared, and logs the same. -/
theorem pass_desugar {node new : Node} {events : List Event}
    (result : stamper.pass node = .ok (new, events)) :
    stamper.pass node.desugar = .ok (new.desugar, events) := by
  induction node using Node.induct generalizing new events with
  | step node ih =>
    cases kind : node.isTarget with
    | true => exact pass_desugar_of_isTarget kind result
    | false =>
      obtain ⟨outcomes, results, rfl, rfl⟩ := (pass_eq_ok_iff_of_not_isTarget kind).1 result
      have size := length_of_mapM results
      have faces : (outcomes.map Prod.fst).map face = node.children.map face := by
        rw [List.map_map]
        exact map_eq_map_of_mapM results fun part _ outcome done => face_of_pass done
      have passed : (node.withChildren (outcomes.map Prod.fst)).desugar =
          node.withChildren ((outcomes.map Prod.fst).map desugar) := by
        rw [desugar_of_not_isTarget (by rw [isTarget_withChildren faces, kind])]
        exact mapChildren_withChildren desugar node _ (by simp [size])
      rw [desugar_of_not_isTarget kind, passed]
      apply (pass_eq_ok_iff_of_not_isTarget
        (by rw [keepsFace_desugar.isTarget_mapChildren, kind])).2
      refine ⟨outcomes.map fun outcome => (outcome.1.desugar, outcome.2), ?_, ?_, ?_⟩
      · rw [children_mapChildren]
        exact mapM_map_eq_ok results fun part member _ done => ih part member done
      · rw [mapChildren, withChildren_withChildren _ _ _ (by simp) (by simp [size]), List.map_map,
          List.map_map]
        rfl
      · rw [keepsFace_desugar.emptyDebug?_mapChildren, List.flatMap_map]

/-- Whether the optional targets of a tree are made plain before a pass or after it, the tree that
comes out is the same, and so is all that is reported. -/
theorem run_desugar (stamper : Stamper) (collects : Bool) (program : Node)
    (answers : stamper.AnswersPass program) :
    ∃ report, stamper.run collects program = .ok report ∧
      stamper.run collects program.desugar =
        .ok ⟨report.program.desugar, report.events, report.diagnostics⟩ ∧
      program.desugar.Everywhere fun node => node.plain = node := by
  obtain ⟨new, events, passed, result⟩ := exists_run_of_answersPass answers collects
  refine ⟨reportOf collects new events, result, ?_, everywhere_plain_desugar program⟩
  apply run_eq_ok_iff.2
  refine ⟨new.desugar, events, pass_desugar passed, ?_⟩
  cases collects <;> rfl

/-- An optional call within an optional call within a throw: the pass stops at the outer call, the
desugaring does not. -/
theorem run_desugar_nested :
    let stamper : Stamper :=
      ⟨some (.ofSources [("a.ts", "throw $print?.($debug?.(x))")]), none, "log"⟩
    let called (start stop : Nat) (name : String) (arg : Node) : Call Node :=
      ⟨⟨start, stop⟩, 0, .ident ⟨⟨start, start + 6⟩, 0, name, false⟩, [⟨none, arg⟩], none⟩
    let x : Node := .ident ⟨⟨25, 26⟩, 0, "x", false⟩
    let chain (call : Call Node) : Node := .optCall .expression call.span true call
    let program : Node :=
      .throwStmt ⟨1, 28⟩ (chain (called 7 28 "$print" (chain (called 16 27 "$debug" x))))
    program.desugar =
        .throwStmt ⟨1, 28⟩ (.call (called 7 28 "$print" (.call (called 16 27 "$debug" x)))) ∧
      ∃ report, stamper.run true program = .ok report ∧
        stamper.run true program.desugar =
          .ok ⟨report.program.desugar, report.events, report.diagnostics⟩ ∧
        report.events = [.messageCall .print "[a.ts:1:7] "] := by
  intro stamper called x chain program
  let outer : Node := chain (called 7 28 "$print" (chain (called 16 27 "$debug" x)))
  have text : stamper.textOf outer = .ok "[a.ts:1:7] " := by decide +kernel
  have answers : stamper.AnswersPass program := by
    rw [answersPass_iff_of_not_isTarget rfl]
    exact List.forall_mem_singleton.2 ((answersPass_iff_of_isTarget rfl).2 ⟨_, text⟩)
  have log : (stamper.run true program).toOption.map Report.events =
      some [.messageCall .print "[a.ts:1:7] "] := by decide +kernel
  obtain ⟨report, result, same, -⟩ := run_desugar stamper true program answers
  rw [result] at log
  exact ⟨rfl, report, result, same, Option.some.inj log⟩

end Stamper

end SourceStamp
