import SourceStamp.Proofs.Stamp.Rules
import SourceStamp.Proofs.Syntax.Address
import SourceStamp.SourceMap.Files
import SourceStamp.Stamp.Pass

/-! What one pass makes of a tree. The outermost targets are found on the tree as it stands; each of
them is replaced by what its rule says, all at once, and nothing else changes. A pass fails only
where the source map does not answer for an outermost target.
-/

set_option autoImplicit false

namespace SourceStamp

abbrev Node.OutermostTarget (root : Node) (address : Node.Address) (node : Node) : Prop :=
  Node.Outermost (fun node => node.isTarget) root address node

abbrev Node.OutsideTargets (root : Node) (address : Node.Address) (node : Node) : Prop :=
  Node.Outside (fun node => node.isTarget) root address node

namespace Node

variable {P : Node → Prop} {root : Node}

theorem forall_outermost_iff_of_isTarget (kind : root.isTarget) :
    (∀ address node, root.OutermostTarget address node → P node) ↔ P root := by
  constructor
  · intro all
    exact all [] root (outermost_nil_iff.2 ⟨rfl, kind⟩)
  · intro here address node outermost
    cases address with
    | nil =>
      obtain ⟨rfl, -⟩ := outermost_nil_iff.1 outermost
      exact here
    | cons => exact absurd kind (outermost_cons_iff.1 outermost).1

theorem forall_outermost_iff_of_not_isTarget (other : root.isTarget = false) :
    (∀ address node, root.OutermostTarget address node → P node) ↔
      ∀ part ∈ root.children, ∀ address node, part.OutermostTarget address node → P node := by
  constructor
  · intro all part member address node inPart
    obtain ⟨index, found⟩ := List.getElem?_of_mem member
    exact all (index :: address) node
      (outermost_cons_iff.2 ⟨by simp [other], part, found, inPart⟩)
  · intro all address node outermost
    cases address with
    | nil => simp [other, outermost_nil_iff] at outermost
    | cons index rest =>
      obtain ⟨-, part, found, inPart⟩ := outermost_cons_iff.1 outermost
      exact all part (List.mem_of_getElem? found) rest node inPart

end Node

namespace Stamper

variable {stamper : Stamper}

def AnswersPass (stamper : Stamper) (root : Node) : Prop :=
  ∀ address node, root.OutermostTarget address node → ∃ text, stamper.textOf node = .ok text

theorem pass_eq_ok_iff_of_isTarget {node new : Node} {events : List Event} (kind : node.isTarget) :
    stamper.pass node = .ok (new, events) ↔
      ∃ target text, node.target? = some target ∧ stamper.textOf node = .ok text ∧
        Rule stamper.debugCallee text node new ∧ events = [target.event text] := by
  obtain ⟨target, found⟩ := Node.exists_target kind
  rw [pass_eq, passNode, found, bind_eq_ok_iff]
  constructor
  · rintro ⟨⟨stamped, event⟩, result, same⟩
    cases same
    obtain ⟨text, known, result⟩ := bind_eq_ok_iff.1 result
    cases result
    exact ⟨target, text, rfl, (stamper.textOf_eq found).trans known,
      Node.rule_iff.2 ⟨target, found, rfl⟩, rfl⟩
  · rintro ⟨_, text, ⟨⟩, known, rule, rfl⟩
    obtain ⟨_, found', rfl⟩ := Node.rule_iff.1 rule
    cases found.symm.trans found'
    have known := (stamper.textOf_eq found).symm.trans known
    exact ⟨_, bind_eq_ok_iff.2 ⟨text, known, rfl⟩, rfl⟩

theorem pass_eq_ok_iff_of_not_isTarget {node new : Node} {events : List Event}
    (other : node.isTarget = false) :
    stamper.pass node = .ok (new, events) ↔
      ∃ outcomes, node.children.mapM stamper.pass = .ok outcomes ∧
        new = node.withChildren (outcomes.map Prod.fst) ∧
        events = node.emptyDebug?.toList.map Event.emptyDebug ++ outcomes.flatMap Prod.snd := by
  rw [pass_eq, passNode, Node.target?_eq_none other]
  simp only [List.mapM_map, Function.comp_def, id, bind_eq_ok_iff, pure_eq_ok_iff, Prod.mk.injEq]
  constructor
  · rintro ⟨outcomes, results, rfl, rfl⟩
    exact ⟨outcomes, results, rfl, rfl⟩
  · rintro ⟨outcomes, results, rfl, rfl⟩
    exact ⟨outcomes, results, rfl, rfl⟩

theorem answersPass_iff_of_isTarget {root : Node} (kind : root.isTarget) :
    stamper.AnswersPass root ↔ ∃ text, stamper.textOf root = .ok text :=
  Node.forall_outermost_iff_of_isTarget kind

theorem answersPass_iff_of_not_isTarget {root : Node} (other : root.isTarget = false) :
    stamper.AnswersPass root ↔ ∀ part ∈ root.children, stamper.AnswersPass part :=
  Node.forall_outermost_iff_of_not_isTarget other

-- A pass has a result exactly if the source map answers what it asks.
theorem exists_pass_eq_ok_iff {root : Node} :
    (∃ outcome, stamper.pass root = .ok outcome) ↔ stamper.AnswersPass root := by
  induction root using Node.induct with
  | step root ih =>
    cases kind : root.isTarget with
    | true =>
      rw [answersPass_iff_of_isTarget kind]
      constructor
      · rintro ⟨⟨new, events⟩, result⟩
        obtain ⟨target, text, -, known, -⟩ := (pass_eq_ok_iff_of_isTarget kind).1 result
        exact ⟨text, known⟩
      · rintro ⟨text, known⟩
        obtain ⟨target, found⟩ := Node.exists_target kind
        exact ⟨(_, _), (pass_eq_ok_iff_of_isTarget kind).2
          ⟨target, text, found, known, Node.rule_iff.2 ⟨target, found, rfl⟩, rfl⟩⟩
    | false =>
      rw [answersPass_iff_of_not_isTarget kind]
      constructor
      · rintro ⟨⟨new, events⟩, result⟩ part member
        obtain ⟨outcomes, results, -⟩ := (pass_eq_ok_iff_of_not_isTarget kind).1 result
        obtain ⟨index, found⟩ := List.getElem?_of_mem member
        obtain ⟨outcome, -, done⟩ := getElem?_of_mapM results found
        exact (ih part member).1 ⟨outcome, done⟩
      · intro answers
        obtain ⟨outcomes, results⟩ := exists_mapM_eq_ok fun part member =>
          (ih part member).2 (answers part member)
        exact ⟨(_, _), (pass_eq_ok_iff_of_not_isTarget kind).2 ⟨outcomes, results, rfl, rfl⟩⟩

def Stamps (stamper : Stamper) (root : Node) (put : Node.Address → Option Node) : Prop :=
  ∀ address new, put address = some new ↔
    ∃ old, root.OutermostTarget address old ∧ stamper.Rewrites old new

theorem exists_stamps (stamper : Stamper) (root : Node) : ∃ put, stamper.Stamps root put := by
  classical
  let Stamped (address : Node.Address) (new : Node) : Prop :=
    ∃ old, root.OutermostTarget address old ∧ stamper.Rewrites old new
  refine ⟨fun address => if stamped : ∃ new, Stamped address new then some stamped.choose else none, ?_⟩
  intro address new
  by_cases stamped : ∃ new, Stamped address new
  · obtain ⟨old, outermost, rewrites⟩ := stamped.choose_spec
    simp only [stamped, dite_true, Option.some.injEq]
    constructor
    · rintro rfl
      exact ⟨old, outermost, rewrites⟩
    · rintro ⟨old', outermost', rewrites'⟩
      cases outermost.reached.symm.trans outermost'.reached
      exact rewrites.unique rewrites'
  · simp only [stamped, dite_false, reduceCtorEq, false_iff]
    exact fun here => stamped ⟨new, here⟩

theorem Stamps.onlyOutermost {root : Node} {put : Node.Address → Option Node}
    (stamps : stamper.Stamps root put) :
    Node.OnlyOutermost (fun node => node.isTarget) root put := by
  intro address new here
  obtain ⟨old, outermost, -⟩ := (stamps address new).1 here
  exact ⟨old, outermost⟩

theorem Stamps.child {root part : Node} {put : Node.Address → Option Node} {index : Nat}
    (stamps : stamper.Stamps root put) (other : root.isTarget = false)
    (found : root.children[index]? = some part) :
    stamper.Stamps part fun rest => put (index :: rest) := by
  intro rest new
  rw [stamps (index :: rest) new]
  constructor
  · rintro ⟨old, outermost, rewrites⟩
    obtain ⟨-, part', found', inPart⟩ := Node.outermost_cons_iff.1 outermost
    cases found.symm.trans found'
    exact ⟨old, inPart, rewrites⟩
  · rintro ⟨old, inPart, rewrites⟩
    exact ⟨old, Node.outermost_cons_iff.2 ⟨by simp [other], part, found, inPart⟩, rewrites⟩

theorem pass_eq_replace {root new : Node} {events : List Event} {put : Node.Address → Option Node}
    (result : stamper.pass root = .ok (new, events)) (stamps : stamper.Stamps root put) :
    new = root.replace put := by
  induction root using Node.induct generalizing new events put with
  | step root ih =>
    cases kind : root.isTarget with
    | true =>
      obtain ⟨target, text, -, known, rule, -⟩ := (pass_eq_ok_iff_of_isTarget kind).1 result
      have here : put [] = some new := (stamps [] new).2
        ⟨root, Node.outermost_nil_iff.2 ⟨rfl, kind⟩, text, known, rule⟩
      exact (Node.replace_of_some here).symm
    | false =>
      obtain ⟨outcomes, results, rfl, -⟩ := (pass_eq_ok_iff_of_not_isTarget kind).1 result
      rw [Node.replace_eq, stamps.onlyOutermost.eq_none (by simp [kind])]
      apply congrArg root.withChildren
      apply Eq.symm
      rw [List.mapIdx_eq_iff]
      intro index
      rw [List.getElem?_map]
      cases found : root.children[index]? with
      | none =>
        have : outcomes.length ≤ index := by
          rw [length_of_mapM results]
          exact List.getElem?_eq_none_iff.1 found
        rw [List.getElem?_eq_none this]
        rfl
      | some part =>
        obtain ⟨⟨stamped, inner⟩, here, done⟩ := getElem?_of_mapM results found
        rw [here]
        exact congrArg some (ih part (List.mem_of_getElem? found) done (stamps.child kind found))

def reportOf (collects : Bool) (new : Node) (events : List Event) : Report :=
  if collects then
    ⟨new, events.filter fun event => event.diagnostic?.isNone,
      (events.filterMap Event.diagnostic?).eraseDups⟩
  else ⟨new, events, []⟩

@[simp] theorem reportOf_program (collects : Bool) (new : Node) (events : List Event) :
    (reportOf collects new events).program = new := by
  cases collects <;> rfl

-- What a collector takes out of the log.
theorem mem_filterMap_diagnostic?_iff {events : List Event} {diagnostic : Diagnostic} :
    diagnostic ∈ events.filterMap Event.diagnostic? ↔ ∃ span, .emptyDebug span ∈ events ∧
      diagnostic = ⟨span, "warning: " ++ Event.emptyDebugMessage⟩ := by
  rw [List.mem_filterMap]
  constructor
  · rintro ⟨event, among, found⟩
    cases event with
    | emptyDebug span =>
      cases found
      exact ⟨span, among, rfl⟩
    | _ => contradiction
  · rintro ⟨span, among, rfl⟩
    exact ⟨_, among, rfl⟩

theorem run_eq_ok_iff {collects : Bool} {program : Node} {report : Report} :
    stamper.run collects program = .ok report ↔
      ∃ new events, stamper.pass program = .ok (new, events) ∧
        report = reportOf collects new events := by
  rw [run, bind_eq_ok_iff]
  cases collects with
  | true | false =>
    constructor
    · rintro ⟨⟨new, events⟩, result, same⟩
      cases same
      exact ⟨new, events, result, rfl⟩
    · rintro ⟨new, events, result, rfl⟩
      exact ⟨(new, events), result, rfl⟩

theorem exists_run_of_answersPass {program : Node} (answers : stamper.AnswersPass program)
    (collects : Bool) : ∃ new events, stamper.pass program = .ok (new, events) ∧
      stamper.run collects program = .ok (reportOf collects new events) := by
  obtain ⟨⟨new, events⟩, passed⟩ := exists_pass_eq_ok_iff.2 answers
  exact ⟨new, events, passed, run_eq_ok_iff.2 ⟨new, events, passed, rfl⟩⟩

-- A target is found again, stamped, at its address.
theorem run_at?_of_outermostTarget {collects : Bool} {program old : Node} {report : Report}
    (result : stamper.run collects program = .ok report) {address : Node.Address}
    (outermost : program.OutermostTarget address old) :
    ∃ new, stamper.Rewrites old new ∧ report.program.at? address = some new := by
  obtain ⟨whole, events, passed, rfl⟩ := run_eq_ok_iff.1 result
  obtain ⟨put, stamps⟩ := stamper.exists_stamps program
  obtain ⟨text, known⟩ := exists_pass_eq_ok_iff.1 ⟨_, passed⟩ address old outermost
  obtain ⟨target, found⟩ := Node.exists_target outermost.holds
  have rewrites : stamper.Rewrites old (target.stamped stamper.debugCallee text) :=
    ⟨text, known, Node.rule_iff.2 ⟨target, found, rfl⟩⟩
  refine ⟨_, rewrites, ?_⟩
  rw [reportOf_program, pass_eq_replace passed stamps]
  exact Node.at?_replace_of_outermost stamps.onlyOutermost outermost
    ((stamps address _).2 ⟨old, outermost, rewrites⟩)

/-- One pass, with diagnostics collected or not, replaces the outermost targets of the tree, all at
once and each by what its rule says. Every node that is not part of a target stays what it is. -/
theorem run_stamps_outermost (stamper : Stamper) (collects : Bool) (program : Node)
    (answers : stamper.AnswersPass program) :
    ∃ report, stamper.run collects program = .ok report ∧
      (∃ put, stamper.Stamps program put ∧ report.program = program.replace put) ∧
      (∀ address old, program.OutermostTarget address old →
        ∃ new, stamper.Rewrites old new ∧ report.program.at? address = some new) ∧
      ∀ address node, program.OutsideTargets address node →
        ∃ kept, report.program.at? address = some kept ∧ node.Alike kept := by
  obtain ⟨new, events, passed, result⟩ := exists_run_of_answersPass answers collects
  obtain ⟨put, stamps⟩ := stamper.exists_stamps program
  have whole : (reportOf collects new events).program = program.replace put := by
    rw [reportOf_program, pass_eq_replace passed stamps]
  refine ⟨_, result, ⟨put, stamps, whole⟩, ?_, ?_⟩
  · intro address old outermost
    exact run_at?_of_outermostTarget result outermost
  · intro address node outside
    rw [whole]
    exact Node.alike_at?_replace stamps.onlyOutermost outside

/-- The call inside of the stamped one is carried over as it is. -/
theorem run_stamps_outermost_nested :
    let stamper : Stamper :=
      ⟨some (.ofSources [("/app/a.ts", "$print($debug(x))\nthrow e")]), some "/app", "log"⟩
    let inner : Node := .call ⟨⟨8, 17⟩, 0, .ident ⟨⟨8, 14⟩, 0, "$debug", false⟩,
      [⟨none, .ident ⟨⟨15, 16⟩, 0, "x", false⟩⟩], none⟩
    let outer : Node :=
      .call ⟨⟨1, 18⟩, 0, .ident ⟨⟨1, 7⟩, 0, "$print", false⟩, [⟨none, inner⟩], none⟩
    let program : Node := .list [outer, .throwStmt ⟨19, 26⟩ (.ident ⟨⟨25, 26⟩, 0, "e", false⟩)]
    stamper.AnswersPass program ∧ ∃ report, stamper.run true program = .ok report ∧
      report.program.at? [0] = some (.call ⟨⟨1, 18⟩, 0, .ident ⟨⟨1, 7⟩, 0, "print", false⟩,
        [⟨none, .string ⟨.dummy, "[a.ts:1:1] ", none⟩⟩, ⟨none, inner⟩], none⟩) := by
  intro stamper inner outer program
  have text : stamper.textOf outer = .ok "[a.ts:1:1] " := by decide +kernel
  have answers : stamper.AnswersPass program := by
    have second : stamper.textOf (.throwStmt ⟨19, 26⟩ (.ident ⟨⟨25, 26⟩, 0, "e", false⟩)) =
        .ok "[a.ts:2:1] " := by decide +kernel
    rw [answersPass_iff_of_not_isTarget rfl]
    refine List.forall_mem_cons.2 ⟨?_, List.forall_mem_singleton.2 ?_⟩
    · exact (answersPass_iff_of_isTarget rfl).2 ⟨_, text⟩
    · exact (answersPass_iff_of_isTarget rfl).2 ⟨_, second⟩
  refine ⟨answers, ?_⟩
  obtain ⟨report, result, -, stamped, -⟩ := run_stamps_outermost stamper true program answers
  have outermost : program.OutermostTarget [0] outer :=
    Node.outermost_cons_iff.2 ⟨by simp [program, Node.isTarget], outer, rfl,
      Node.outermost_nil_iff.2 ⟨rfl, rfl⟩⟩
  obtain ⟨new, rewrites, found⟩ := stamped [0] outer outermost
  have rule : stamper.Rewrites outer _ := ⟨_, text, .print rfl⟩
  exact ⟨report, result, found.trans (congrArg some (rewrites.unique rule))⟩

end Stamper

end SourceStamp
