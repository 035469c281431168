import SourceStamp.Proofs.Stamp.Layers
import SourceStamp.Proofs.Stamp.Outermost

/-! Passes in a row. A pass leaves what lies inside of a target to the next one, so the targets on a
path are stamped from the outside to the inside. If no throw is a target again afterwards, this ends
with the tree in which every target has been stamped once, the inner ones first.
-/

set_option autoImplicit false

namespace SourceStamp

namespace Stamper

/-- All targets of a tree stamped once, those in a node before the node. The text of a target is that
of the node as it stood before anything in it was stamped. -/
inductive FullyStamped (stamper : Stamper) : Node → Node → Prop
  | target {node new : Node} {parts : List Node} {text : String} : node.isTarget →
      List.Forall₂ (FullyStamped stamper) node.children parts → stamper.textOf node = .ok text →
      Rule stamper.debugCallee text (node.withChildren parts) new → FullyStamped stamper node new
  | other {node : Node} {parts : List Node} : node.isTarget = false →
      List.Forall₂ (FullyStamped stamper) node.children parts →
      FullyStamped stamper node (node.withChildren parts)

variable {stamper : Stamper} {label : Node → String}

def Labels (stamper : Stamper) (label : Node → String) (root : Node) : Prop :=
  root.AllTargets fun target => stamper.textOf target = .ok (label target)

def labelOf (stamper : Stamper) (node : Node) : String := (stamper.textOf node).toOption.getD ""

theorem labelOf_eq {node : Node} {text : String} (known : stamper.textOf node = .ok text) :
    stamper.labelOf node = text := by
  rw [labelOf, known]
  rfl

theorem labels_labelOf {root : Node}
    (answers : root.AllTargets fun node => ∃ text, stamper.textOf node = .ok text) :
    stamper.Labels stamper.labelOf root := by
  intro address node reached kind
  obtain ⟨text, known⟩ := answers address node reached kind
  rw [labelOf_eq known, known]

theorem fullyStamped_stampAll {root : Node} (labels : stamper.Labels label root) :
    stamper.FullyStamped root (root.stampAll stamper.debugCallee label) := by
  induction root using Node.induct with
  | step root ih =>
    obtain ⟨here, below⟩ := Node.everywhere_iff.1 labels
    have parts : List.Forall₂ stamper.FullyStamped root.children
        (root.children.map (Node.stampAll stamper.debugCallee label)) :=
      List.forall₂_map_right_iff.2 (List.forall₂_same.2 fun part member => ih part member (below part member))
    cases kind : root.isTarget with
    | true =>
      have mapped : (root.mapChildren (Node.stampAll stamper.debugCallee label)).isTarget := by
        rw [Node.isTarget_mapChildren fun part _ => Node.face_stampAll part, kind]
      rw [Node.stampAll_of_isTarget kind]
      exact .target kind parts (here kind) (Node.rule_stampedWith mapped)
    | false =>
      rw [Node.stampAll_of_not_isTarget kind]
      exact .other kind parts

theorem eq_stampOutermost_of_pass {root new : Node} {events : List Event}
    (labels : stamper.Labels label root) (result : stamper.pass root = .ok (new, events)) :
    new = root.stampOutermost stamper.debugCallee label := by
  induction root using Node.induct generalizing new events with
  | step root ih =>
    obtain ⟨here, below⟩ := Node.everywhere_iff.1 labels
    cases kind : root.isTarget with
    | true =>
      obtain ⟨target, text, -, known, rule, -⟩ := (pass_eq_ok_iff_of_isTarget kind).1 result
      cases known.symm.trans (here kind)
      rw [Node.stampOutermost_of_isTarget kind, Node.stampedWith_eq rule]
    | false =>
      obtain ⟨outcomes, results, rfl, -⟩ := (pass_eq_ok_iff_of_not_isTarget kind).1 result
      rw [Node.stampOutermost_of_not_isTarget kind]
      apply congrArg root.withChildren
      apply map_eq_map_of_mapM results
      intro part member outcome done
      exact ih part member (below part member) done

theorem exists_pass_of_labels {root : Node} (labels : stamper.Labels label root) :
    ∃ events, stamper.pass root = .ok (root.stampOutermost stamper.debugCallee label, events) := by
  have answers : stamper.AnswersPass root := fun address node outermost =>
    ⟨label node, labels address node outermost.reached outermost.holds⟩
  obtain ⟨⟨new, events⟩, result⟩ := exists_pass_eq_ok_iff.2 answers
  cases eq_stampOutermost_of_pass labels result
  exact ⟨events, result⟩

-- Without a target in the tree a pass has nothing to tell but of calls that show nothing.
theorem events_of_pass {root new : Node} {events : List Event} (none_ : root.targetDepth = 0)
    (result : stamper.pass root = .ok (new, events)) {event : Event} (member : event ∈ events) :
    ∃ span, event = .emptyDebug span := by
  induction root using Node.induct generalizing new events with
  | step root ih =>
    have other := Node.isTarget_eq_false_of_targetDepth none_
    obtain ⟨outcomes, results, -, rfl⟩ := (pass_eq_ok_iff_of_not_isTarget other).1 result
    rcases List.mem_append.1 member with here | below
    · obtain ⟨span, -, rfl⟩ := List.mem_map.1 here
      exact ⟨span, rfl⟩
    · obtain ⟨outcome, among, member⟩ := List.mem_flatMap.1 below
      obtain ⟨part, inRoot, done⟩ := exists_mem_of_mapM results among
      exact ih part inRoot (Node.targetDepth_of_mem_children none_ inRoot) done member

theorem reportOf_events {collects : Bool} {new : Node} {events : List Event} {event : Event}
    (member : event ∈ (reportOf collects new events).events) : event ∈ events := by
  cases collects with
  | true => exact List.mem_of_mem_filter member
  | false => exact member

def treeAfter (stamper : Stamper) (label : Node → String) : Nat → Node → Node
  | 0, root => root
  | passes + 1, root =>
    stamper.treeAfter label passes (root.stampOutermost stamper.debugCallee label)

-- The recursion follows the first pass; this is the last one.
theorem treeAfter_succ (passes : Nat) (root : Node) :
    stamper.treeAfter label (passes + 1) root =
      (stamper.treeAfter label passes root).stampOutermost stamper.debugCallee label := by
  induction passes generalizing root with
  | zero => rfl
  | succ passes ih => exact ih (root.stampOutermost stamper.debugCallee label)

-- The reports of passes in a row: the trees follow each other, and so do the passes.
theorem exists_runTimes {root : Node}
    (labels : ∀ done, stamper.Labels label (stamper.treeAfter label done root)) (collects : Bool)
    (passes : Nat) :
    ∃ reports, stamper.runTimes collects passes root = .ok reports ∧ reports.length = passes ∧
      ∀ index report, reports[index]? = some report →
        report.program = stamper.treeAfter label (index + 1) root ∧
        ∃ events, stamper.pass (stamper.treeAfter label index root) = .ok (report.program, events) ∧
          ∀ event ∈ report.events, event ∈ events := by
  induction passes generalizing root with
  | zero => exact ⟨[], rfl, rfl, fun index report found => by simp at found⟩
  | succ passes ih =>
    obtain ⟨events, passed⟩ := exists_pass_of_labels (labels 0)
    let first : Report := reportOf collects (root.stampOutermost stamper.debugCallee label) events
    have ran : stamper.run collects root = .ok first := run_eq_ok_iff.2 ⟨_, events, passed, rfl⟩
    obtain ⟨reports, rest, size, each⟩ := ih fun done => labels (done + 1)
    refine ⟨first :: reports, ?_, congrArg Nat.succ size, ?_⟩
    · exact bind_eq_ok_iff.2 ⟨first, ran, bind_eq_ok_iff.2 ⟨reports, by rwa [reportOf_program], rfl⟩⟩
    · intro index report found
      cases index with
      | zero =>
        cases Option.some.inj found
        rw [reportOf_program]
        exact ⟨rfl, events, passed, fun event member => reportOf_events member⟩
      | succ index => exact each index report found

section

variable (fresh : Node.IsFresh stamper.debugCallee)
include fresh

theorem allTargets_treeAfter {P : Node → Prop} {root : Node}
    (lasting : root.AllTargets fun part => part.throwsLiteral = false) (known : root.AllTargets P)
    (passes : Nat) : (stamper.treeAfter label passes root).AllTargets P := by
  induction passes generalizing root with
  | zero => exact known
  | succ passes ih =>
    exact ih (Node.allTargets_stampOutermost fresh lasting lasting)
      (Node.allTargets_stampOutermost fresh lasting known)

theorem targetDepth_treeAfter {root : Node}
    (lasting : root.AllTargets fun part => part.throwsLiteral = false) {passes : Nat}
    (deep : root.targetDepth ≤ passes) : (stamper.treeAfter label passes root).targetDepth = 0 := by
  induction passes generalizing root with
  | zero => exact Nat.le_zero.1 deep
  | succ passes ih =>
    rw [treeAfter]
    exact ih (Node.allTargets_stampOutermost fresh lasting lasting)
      (Node.targetDepth_stampOutermost fresh lasting deep)

theorem stampAll_treeAfter {root : Node}
    (lasting : root.AllTargets fun part => part.throwsLiteral = false) (passes : Nat) :
    (stamper.treeAfter label passes root).stampAll stamper.debugCallee label =
      root.stampAll stamper.debugCallee label := by
  induction passes with
  | zero => rfl
  | succ passes ih =>
    rw [treeAfter_succ, Node.stampAll_stampOutermost fresh, ih]
    exact allTargets_treeAfter fresh lasting lasting passes

theorem treeAfter_eq_stampAll {root : Node}
    (lasting : root.AllTargets fun part => part.throwsLiteral = false) {passes : Nat}
    (deep : root.targetDepth ≤ passes) :
    stamper.treeAfter label passes root = root.stampAll stamper.debugCallee label := by
  rw [← stampAll_treeAfter fresh lasting passes]
  exact (Node.stampAll_eq_self (targetDepth_treeAfter fresh lasting deep)).symm

end

/-- Passes in a row over a tree without thrown literals. Once there have been as many as targets are
nested in one another, every target has been stamped exactly once, with the text it had at the
start; what comes after that changes nothing and logs no stamping. -/
theorem runTimes_stamps_all (stamper : Stamper) (program : Node)
    (fresh : stamper.debugCallee ∉ ["$print", "$warn", "$debug"])
    (lasting : program.Everywhere fun node => node.throwsLiteral = false)
    (answers : program.Everywhere fun node =>
      node.isTarget → ∃ text, stamper.textOf node = .ok text) :
    ∃ full, stamper.FullyStamped program full ∧ ∀ collects passes, ∃ reports,
      stamper.runTimes collects passes program = .ok reports ∧ reports.length = passes ∧
      (∀ done tree, (program :: reports.map Report.program)[done]? = some tree →
        program.targetDepth ≤ done → tree = full) ∧
      ∀ done report, reports[done]? = some report → program.targetDepth ≤ done →
        ∀ event ∈ report.events, ("level", "DEBUG") ∉ event.fields := by
  have fresh : Node.IsFresh stamper.debugCallee := by simpa [Node.IsFresh] using fresh
  have lasting : program.AllTargets fun node => node.throwsLiteral = false :=
    fun address node reached _ => lasting address node reached
  have labels : stamper.Labels stamper.labelOf program := labels_labelOf answers
  refine ⟨_, fullyStamped_stampAll labels, ?_⟩
  intro collects passes
  obtain ⟨reports, result, size, each⟩ := exists_runTimes
    (allTargets_treeAfter fresh lasting labels) collects passes
  refine ⟨reports, result, size, ?_, ?_⟩
  · intro done tree found deep
    rw [← treeAfter_eq_stampAll fresh lasting deep]
    cases done with
    | zero => exact (Option.some.inj found).symm
    | succ index =>
      rw [List.getElem?_cons_succ, List.getElem?_map] at found
      obtain ⟨report, here, rfl⟩ := Option.map_eq_some_iff.1 found
      exact (each index report here).1
  · intro done report found deep event member
    obtain ⟨-, events, passed, among⟩ := each done report found
    obtain ⟨span, rfl⟩ := events_of_pass (targetDepth_treeAfter fresh lasting deep) passed
      (among event member)
    simp [Event.fields]

/-- A call within a call within an optional call takes three passes; the fourth changes nothing. -/
theorem runTimes_stamps_all_three_deep :
    let table : LookupTable := ⟨⟨"a.ts", "", 1⟩, [(3, 1, 2), (9, 1, 8)], [(⟨9, 12⟩, "f()")]⟩
    let stamper : Stamper := ⟨some table.sourceMap, none, "log"⟩
    let called (name : String) (start : Nat) (args : List (Argument Node)) : Call Node :=
      ⟨⟨start, 20⟩, 0, .ident ⟨⟨start, start + 2⟩, 0, name, false⟩, args, none⟩
    let inner : Node := .call (called "$debug" 9 [⟨none, .ident ⟨⟨9, 12⟩, 0, "f", false⟩⟩])
    let middle : Node := .call (called "$warn" 3 [⟨none, inner⟩])
    let program : Node :=
      .list [.optCall .expression ⟨1, 21⟩ true (called "$print" 2 [⟨none, middle⟩])]
    program.targetDepth = 3 ∧ ∃ full, stamper.FullyStamped program full ∧
      ∃ reports, stamper.runTimes false 4 program = .ok reports ∧
        (reports.map Report.program)[2]? = some full ∧ (reports.map Report.program)[3]? = some full := by
  intro table stamper called inner middle program
  have total : ∀ sourceMap ∈ stamper.sourceMap, sourceMap.Answers := by
    rintro _ ⟨⟩
    exact table.answers
  have lasting : program.Everywhere fun node => node.throwsLiteral = false := by
    have ident (id : Ident) : (Node.ident id).Everywhere fun node => node.throwsLiteral = false :=
      Node.everywhere_iff.2 ⟨rfl, by simp [Node.children]⟩
    refine Node.everywhere_iff.2 ⟨rfl, List.forall_mem_singleton.2 (Node.everywhere_iff.2 ⟨rfl, ?_⟩)⟩
    refine List.forall_mem_cons.2 ⟨ident _, List.forall_mem_singleton.2 (Node.everywhere_iff.2 ⟨rfl, ?_⟩)⟩
    refine List.forall_mem_cons.2 ⟨ident _, List.forall_mem_singleton.2 (Node.everywhere_iff.2 ⟨rfl, ?_⟩)⟩
    exact List.forall_mem_cons.2 ⟨ident _, List.forall_mem_singleton.2 (ident _)⟩
  obtain ⟨full, stamped, runs⟩ := runTimes_stamps_all stamper program (by decide) lasting
    fun _ node _ _ => stamper.exists_textOf total node
  obtain ⟨reports, result, size, trees, -⟩ := runs false 4
  refine ⟨rfl, full, stamped, reports, result, ?_, ?_⟩
  · obtain ⟨tree, found⟩ : ∃ tree, (reports.map Report.program)[2]? = some tree :=
      ⟨_, List.getElem?_eq_getElem (by simp [size])⟩
    rw [found, trees 3 tree found (Nat.le_refl 3)]
  · obtain ⟨tree, found⟩ : ∃ tree, (reports.map Report.program)[3]? = some tree :=
      ⟨_, List.getElem?_eq_getElem (by simp [size])⟩
    rw [found, trees 4 tree found (by decide)]

end Stamper

end SourceStamp
