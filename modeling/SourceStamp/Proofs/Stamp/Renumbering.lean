import SourceStamp.Proofs.Stamp.Outermost
import SourceStamp.Proofs.Syntax.Spans

/-! Passes over a tree with other spans. Which nodes are targets, and what is made of them, does not
depend on spans, and all spans that are put in are taken over or made up. So if the texts of the
outermost targets stay the same, the spans may be changed before a pass or after it, as long as what
was made up stays so.
-/

set_option autoImplicit false

namespace SourceStamp

variable {f : Span → Span}

def Target.mapSpans (f : Span → Span) : Target → Target
  | .message mode c => .message mode (c.mapSpans f)
  | .debug c subject => .debug (c.mapSpans f) (subject.mapSpans f)
  | .thrownLiteral span text literalSpan => .thrownLiteral (f span) text (f literalSpan)
  | .thrownTemplate span literalSpan exprs quasis =>
    .thrownTemplate (f span) (f literalSpan) (exprs.map (Node.mapSpans f))
      (quasis.map (TemplateElement.mapSpan f))
  | .thrownIdent span id => .thrownIdent (f span) (id.mapSpan f)

def Event.mapSpan (f : Span → Span) : Event → Event
  | .emptyDebug span => .emptyDebug (f span)
  | event => event

def Diagnostic.mapSpan (f : Span → Span) (diagnostic : Diagnostic) : Diagnostic :=
  ⟨f diagnostic.span, diagnostic.message⟩

def Report.mapSpans (f : Span → Span) (report : Report) : Report :=
  ⟨report.program.mapSpans f, report.events.map (Event.mapSpan f),
    report.diagnostics.map (Diagnostic.mapSpan f)⟩

-- The log does not name places in the program.
theorem Event.fields_mapSpan (event : Event) : (event.mapSpan f).fields = event.fields := by
  cases event <;> rfl

theorem Event.diagnostic?_mapSpan (event : Event) :
    (event.mapSpan f).diagnostic? = event.diagnostic?.map (Diagnostic.mapSpan f) := by
  cases event <;> rfl

namespace Call

variable (c : Call Node)

theorem intrinsic?_mapSpans : (c.mapSpans f).intrinsic? = c.intrinsic? := by
  obtain ⟨span, ctxt, callee, args, typeArgs⟩ := c
  cases callee <;> simp [intrinsic?, mapSpans, map, mapOwnSpans, Ident.mapSpan]

theorem isOf_mapSpans (name : String) : (c.mapSpans f).isOf name = c.isOf name := by
  obtain ⟨span, ctxt, callee, args, typeArgs⟩ := c
  cases callee <;> simp [isOf, mapSpans, map, mapOwnSpans, Ident.mapSpan]

theorem target?_mapSpans : (c.mapSpans f).target? = c.target?.map (Target.mapSpans f) := by
  unfold target?
  rw [intrinsic?_mapSpans, args_mapSpans]
  cases c.args with
  | nil => split <;> simp_all [Target.mapSpans]
  | cons => split <;> simp_all [Target.mapSpans]

end Call

namespace Node

theorem isSome_target? (node : Node) : node.target?.isSome = node.isTarget := by
  cases kind : node.isTarget with
  | true =>
    obtain ⟨target, found⟩ := exists_target kind
    rw [found]
    rfl
  | false =>
    rw [target?_eq_none kind]
    rfl

theorem target?_mapSpans (node : Node) :
    (node.mapSpans f).target? = node.target?.map (Target.mapSpans f) := by
  cases node with
  | call c =>
    rw [mapSpans_call]
    exact c.target?_mapSpans
  | optCall role span optional c =>
    rw [mapSpans_optCall]
    cases role with
    | expression => exact (c.withSpan span).target?_mapSpans
    | assignTarget => rfl
  | throwStmt span argument =>
    rw [mapSpans_throwStmt]
    cases argument with
    | template literalSpan exprs quasis =>
      rw [mapSpans_template]
      cases exprs with
      | nil => cases quasis <;> rfl
      | cons => rfl
    | call | optCall | record | list => simp [target?]
    | _ => rfl
  | record | list | template => simp [target?]
  | _ => rfl

theorem isTarget_mapSpans (node : Node) : (node.mapSpans f).isTarget = node.isTarget := by
  rw [← isSome_target?, target?_mapSpans, Option.isSome_map, isSome_target?]

theorem subject?_mapSpans (node : Node) :
    (node.mapSpans f).subject? = node.subject?.map (Argument.mapSpans f) := by
  have inCall : ∀ c : Call Node,
      (if (c.mapSpans f).isOf "$debug" then (c.mapSpans f).args.head? else none) =
        (if c.isOf "$debug" then c.args.head? else none).map (Argument.mapSpans f) := by
    intro c
    rw [Call.isOf_mapSpans, Call.args_mapSpans, List.head?_map]
    split <;> rfl
  cases node with
  | call c =>
    rw [mapSpans_call]
    exact inCall c
  | optCall role span optional c =>
    rw [mapSpans_optCall]
    cases role with
    | expression => exact inCall c
    | assignTarget => rfl
  | _ => simp [subject?]

theorem emptyDebug?_mapSpans (node : Node) :
    (node.mapSpans f).emptyDebug? = node.emptyDebug?.map f := by
  have inCall : ∀ c : Call Node,
      (if (c.mapSpans f).intrinsic? = some .debug ∧ (c.mapSpans f).args.isEmpty then
        some (c.mapSpans f).span else none) =
        (if c.intrinsic? = some .debug ∧ c.args.isEmpty then some c.span else none).map f := by
    intro c
    rw [Call.intrinsic?_mapSpans, Call.args_mapSpans, List.isEmpty_map]
    split <;> rfl
  cases node with
  | call c =>
    rw [mapSpans_call]
    exact inCall c
  | optCall role span optional c =>
    rw [mapSpans_optCall]
    cases role with
    | expression => exact inCall c
    | assignTarget => rfl
  | _ => simp [emptyDebug?]

theorem mem_ownSpans_of_emptyDebug? {node : Node} {span : Span} (found : node.emptyDebug? = some span) :
    span ∈ node.ownSpans := by
  have inCall : ∀ c : Call Node,
      (if c.intrinsic? = some .debug ∧ c.args.isEmpty then some c.span else none) = some span →
        span ∈ c.ownSpans := by
    intro c found
    split at found
    · cases found
      exact List.mem_cons_self
    · contradiction
  cases node with
  | call c => exact inCall c found
  | optCall role chain optional c =>
    cases role with
    | expression => exact List.mem_cons_of_mem chain (inCall c found)
    | assignTarget => contradiction
  | _ => contradiction

end Node

theorem Target.event_mapSpans (text : String) (target : Target) :
    (target.mapSpans f).event text = (target.event text).mapSpan f := by
  cases target <;> rfl

theorem Target.stamped_mapSpans (made : f .dummy = .dummy) (callee text : String) (target : Target) :
    (target.mapSpans f).stamped callee text = (target.stamped callee text).mapSpans f := by
  have inCall : ∀ (c : Call Node) (name : String) (typeArgs : Option Node),
      callWith (c.mapSpans f) name text (typeArgs.map (Node.mapSpans f)) =
        (callWith c name text typeArgs).mapSpans f := by
    intro c name typeArgs
    simp [callWith, textNode, Call.mapSpans, Call.map, Call.mapOwnSpans, Ident.mapSpan,
      StringLit.mapSpan, made, Node.span_mapSpans made]
  cases target with
  | message mode c => exact inCall c mode.callee none
  | debug c subject => exact inCall c callee c.typeArgs
  | thrownTemplate span literalSpan exprs quasis =>
    cases quasis <;> simp [mapSpans, stamped, prependHead, TemplateElement.mapSpan]
  | thrownLiteral span thrown literalSpan => rfl
  | thrownIdent span id => simp [mapSpans, stamped, textNode, StringLit.mapSpan, Ident.mapSpan, made]

namespace Stamper

open Node

variable {stamper other : Stamper}

theorem placeholder_mapSpans (node : Node) : placeholder (node.mapSpans f) = placeholder node := by
  cases node <;> simp [placeholder, Ident.mapSpan]

/-- What a pass makes of a tree it makes of the tree with other spans, with these spans. -/
theorem pass_mapSpans (made : f .dummy = .dummy) (callee : other.debugCallee = stamper.debugCallee)
    {root new : Node} {events : List Event}
    (texts : ∀ address node, root.OutermostTarget address node → ∀ text,
      stamper.textOf node = .ok text → other.textOf (node.mapSpans f) = .ok text)
    (result : stamper.pass root = .ok (new, events)) :
    other.pass (root.mapSpans f) = .ok (new.mapSpans f, events.map (Event.mapSpan f)) := by
  -- on the tree: what is below a target is not visited, so its text alone has to be known
  induction root using Node.induct generalizing new events with
  | step root ih =>
    cases kind : root.isTarget with
    | true =>
      obtain ⟨target, text, found, known, rule, rfl⟩ := (pass_eq_ok_iff_of_isTarget kind).1 result
      obtain ⟨_, found', rfl⟩ := rule_iff.1 rule
      cases found.symm.trans found'
      have moved : (root.mapSpans f).target? = some (target.mapSpans f) := by
        rw [target?_mapSpans, found]
        rfl
      refine (pass_eq_ok_iff_of_isTarget (by rw [isTarget_mapSpans, kind])).2
        ⟨_, text, moved, (forall_outermost_iff_of_isTarget kind).1 texts text known,
          rule_iff.2 ⟨_, moved, ?_⟩, ?_⟩
      · rw [callee, Target.stamped_mapSpans made]
      · rw [Target.event_mapSpans]
        rfl
    | false =>
      have below := (forall_outermost_iff_of_not_isTarget kind).1 texts
      obtain ⟨outcomes, results, rfl, rfl⟩ := (pass_eq_ok_iff_of_not_isTarget kind).1 result
      refine (pass_eq_ok_iff_of_not_isTarget (by rw [isTarget_mapSpans, kind])).2
        ⟨outcomes.map fun outcome => (outcome.1.mapSpans f, outcome.2.map (Event.mapSpan f)),
          ?_, ?_, ?_⟩
      · rw [children_mapSpans]
        exact mapM_map_eq_ok results fun part member _ done => ih part member (below part member) done
      · rw [mapSpans_withChildren f root _ (by rw [List.length_map, length_of_mapM results]),
          List.map_map, List.map_map]
        rfl
      · rw [emptyDebug?_mapSpans, List.map_append, List.map_flatMap, List.flatMap_map]
        cases root.emptyDebug? <;> rfl

/-- A warning points at a span of the program. -/
theorem of_emptyDebug_mem {P : Span → Prop} {root new : Node} {events : List Event}
    (result : stamper.pass root = .ok (new, events))
    (all : root.Everywhere fun node => ∀ span ∈ node.ownSpans, P span) {span : Span}
    (member : Event.emptyDebug span ∈ events) : P span := by
  induction root using Node.induct generalizing new events with
  | step root ih =>
    obtain ⟨here, below⟩ := everywhere_iff.1 all
    cases kind : root.isTarget with
    | true =>
      obtain ⟨target, text, -, -, -, rfl⟩ := (pass_eq_ok_iff_of_isTarget kind).1 result
      cases target <;> simp [Target.event] at member
    | false =>
      obtain ⟨outcomes, results, -, rfl⟩ := (pass_eq_ok_iff_of_not_isTarget kind).1 result
      obtain warned | inner := List.mem_append.1 member
      · obtain ⟨_, found, same⟩ := List.mem_map.1 warned
        cases same
        exact here span (mem_ownSpans_of_emptyDebug? (Option.mem_toList.1 found))
      · obtain ⟨outcome, among, member⟩ := List.mem_flatMap.1 inner
        obtain ⟨part, child, done⟩ := exists_mem_of_mapM results among
        exact ih part child done (below part child) member

end Stamper

theorem eraseDups_map {α β : Type} [DecidableEq α] [DecidableEq β] {g : α → β} {items : List α}
    (inj : ∀ item ∈ items, ∀ other ∈ items, g item = g other → item = other) :
    (items.map g).eraseDups = items.eraseDups.map g := by
  match items with
  | [] => rfl
  | item :: rest =>
    have kept : (rest.map g).filter (fun b => !b == g item) =
        (rest.filter fun b => !b == item).map g := by
      rw [List.filter_map]
      congr 1
      apply List.filter_congr
      intro other member
      have same : g other = g item ↔ other = item :=
        ⟨inj other (List.mem_cons_of_mem item member) item List.mem_cons_self, congrArg g⟩
      simp [same]
    have shorter : (rest.filter fun b => !b == item).length < rest.length + 1 :=
      Nat.lt_succ_of_le (List.length_filter_le _ rest)
    rw [List.map_cons, List.eraseDups_cons, List.eraseDups_cons, kept, List.map_cons, eraseDups_map]
    intro first member second member'
    exact inj first (List.mem_cons_of_mem item (List.mem_filter.1 member).1) second
      (List.mem_cons_of_mem item (List.mem_filter.1 member').1)
termination_by items.length

namespace Stamper

theorem reportOf_mapSpans {events : List Event} (collects : Bool) (new : Node)
    (inj : ∀ span, .emptyDebug span ∈ events → ∀ other, .emptyDebug other ∈ events →
      f span = f other → span = other) :
    reportOf collects (new.mapSpans f) (events.map (Event.mapSpan f)) =
      (reportOf collects new events).mapSpans f := by
  cases collects with
  | false => rfl
  | true =>
    have kept : (events.map (Event.mapSpan f)).filter (fun event => event.diagnostic?.isNone) =
        (events.filter fun event => event.diagnostic?.isNone).map (Event.mapSpan f) := by
      rw [List.filter_map]
      simp [Function.comp_def, Event.diagnostic?_mapSpan]
    have warned : (events.map (Event.mapSpan f)).filterMap Event.diagnostic? =
        (events.filterMap Event.diagnostic?).map (Diagnostic.mapSpan f) := by
      rw [List.filterMap_map, List.map_filterMap]
      exact List.filterMap_congr fun event _ => event.diagnostic?_mapSpan
    unfold reportOf Report.mapSpans
    simp only [if_true, kept, warned]
    rw [eraseDups_map]
    intro first member second member' same
    obtain ⟨span, among, rfl⟩ := mem_filterMap_diagnostic?_iff.1 member
    obtain ⟨other, among', rfl⟩ := mem_filterMap_diagnostic?_iff.1 member'
    rw [inj span among other among' (Diagnostic.mk.inj same).1]

/-- A run over the tree with other spans reports the same, with these spans. Of two warnings none is
taken for the other, as long as no two spans of the tree become one. -/
theorem run_mapSpans {stamper other : Stamper} (made : f .dummy = .dummy)
    (callee : other.debugCallee = stamper.debugCallee) {program : Node}
    (texts : ∀ address node, program.OutermostTarget address node → ∃ text,
      stamper.textOf node = .ok text ∧ other.textOf (node.mapSpans f) = .ok text)
    {P : Span → Prop} (all : program.Everywhere fun node => ∀ span ∈ node.ownSpans, P span)
    (inj : ∀ span, P span → ∀ other, P other → f span = f other → span = other) (collects : Bool) :
    ∃ report, stamper.run collects program = .ok report ∧
      other.run collects (program.mapSpans f) = .ok (report.mapSpans f) := by
  have answers : stamper.AnswersPass program := fun address node outermost =>
    (texts address node outermost).imp fun _ => And.left
  obtain ⟨⟨new, events⟩, passed⟩ := exists_pass_eq_ok_iff.2 answers
  have passed' : other.pass (program.mapSpans f) =
      .ok (new.mapSpans f, events.map (Event.mapSpan f)) := by
    refine pass_mapSpans made callee ?_ passed
    intro address node outermost text known
    obtain ⟨_, known', moved⟩ := texts address node outermost
    cases known.symm.trans known'
    exact moved
  have apart : ∀ span, .emptyDebug span ∈ events → ∀ other, .emptyDebug other ∈ events →
      f span = f other → span = other := fun span warned other warned' =>
    inj span (of_emptyDebug_mem passed all warned) other (of_emptyDebug_mem passed all warned')
  exact ⟨_, run_eq_ok_iff.2 ⟨new, events, passed, rfl⟩,
    run_eq_ok_iff.2 ⟨_, _, passed', (reportOf_mapSpans collects new apart).symm⟩⟩

end Stamper

end SourceStamp
