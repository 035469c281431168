import SourceStamp.Proofs.Stamp.Log

/-! What is reported of `$debug` calls that show nothing. Each of them that is not part of a target
gives one warning; a collector of diagnostics takes the warnings and drops repeated ones, and that is
all it changes. The call itself stays, and a pass goes on into its type arguments.
-/

set_option autoImplicit false

namespace SourceStamp

theorem nodup_eraseDups {α : Type} [DecidableEq α] (items : List α) : items.eraseDups.Nodup := by
  match items with
  | [] => exact List.nodup_nil
  | item :: rest =>
    have shorter : (rest.filter fun b => !b == item).length < rest.length + 1 :=
      Nat.lt_succ_of_le (List.length_filter_le _ rest)
    rw [List.eraseDups_cons, List.nodup_cons]
    exact ⟨by simp [List.mem_eraseDups], nodup_eraseDups _⟩
termination_by items.length

def Event.isWarning (event : Event) : Bool := event.fields.contains ("level", "WARN")

theorem Event.isWarning_emptyDebug (span : Span) : (Event.emptyDebug span).isWarning := by
  simp [isWarning, fields]

theorem Target.isWarning_event (target : Target) (text : String) :
    (target.event text).isWarning = false := by
  cases target <;> simp [Target.event, Event.isWarning, Event.fields]

theorem Call.intrinsic?_eq_debug_iff {c : Call Node} : c.intrinsic? = some .debug ↔ c.isOf "$debug" := by
  unfold Call.intrinsic? Call.isOf
  cases c.callee with
  | ident id =>
    unfold Intrinsic.ofName?
    dsimp only
    split_ifs with print warn debug <;> simp_all
  | _ => simp

namespace Node

inductive CallForm : (Call Node → Node) → Prop
  | plain : CallForm Node.call
  | optional {span : Span} {optional : Bool} : CallForm (Node.optCall .expression span optional)

structure EmptyDebugAt (root : Node) (address : Address) (form : Call Node → Node) (c : Call Node) :
    Prop where
  reached : root.at? address = some (form c)
  clear : NoneAbove (fun node => node.isTarget) root address
  form : CallForm form
  callee : c.isOf "$debug"
  args : c.args = []

theorem isTarget_of_emptyDebug {c : Call Node} (callee : c.isOf "$debug") (args : c.args = []) :
    c.isTarget = false := by
  cases kind : c.isTarget with
  | false => rfl
  | true =>
    rcases Call.isTarget_cases kind with print | warn | ⟨-, subject, rest, shows⟩
    · exact absurd (Call.isOf_unique print callee) (by decide)
    · exact absurd (Call.isOf_unique warn callee) (by decide)
    · cases args.symm.trans shows

theorem CallForm.isTarget {form : Call Node → Node} (known : CallForm form) (c : Call Node) :
    (form c).isTarget = c.isTarget := by
  cases known <;> rfl

theorem CallForm.children {form : Call Node → Node} (known : CallForm form) (c : Call Node) :
    (form c).children = c.children := by
  cases known <;> rfl

theorem CallForm.withChildren {form : Call Node → Node} (known : CallForm form) (c : Call Node)
    (parts : List Node) : (form c).withChildren parts = form (c.withChildren parts) := by
  cases known <;> rfl

theorem emptyDebug?_eq_some_iff {node : Node} {span : Span} :
    node.emptyDebug? = some span ↔
      ∃ form c, CallForm form ∧ node = form c ∧ c.isOf "$debug" ∧ c.args = [] ∧ span = c.span := by
  have inCall : ∀ c : Call Node,
      (if c.intrinsic? = some .debug ∧ c.args.isEmpty then some c.span else none) = some span ↔
        c.isOf "$debug" ∧ c.args = [] ∧ span = c.span := by
    intro c
    rw [Option.ite_none_right_eq_some, Call.intrinsic?_eq_debug_iff, List.isEmpty_iff, and_assoc,
      Option.some.injEq, eq_comm (b := span)]
  constructor
  · intro found
    cases node with
    | call c => exact ⟨_, c, .plain, rfl, (inCall c).1 found⟩
    | optCall role chain optional c =>
      cases role with
      | expression => exact ⟨_, c, .optional, rfl, (inCall c).1 found⟩
      | assignTarget => contradiction
    | _ => contradiction
  · rintro ⟨form, c, known, rfl, shows⟩
    cases known with
    | plain | optional => exact (inCall c).2 shows

theorem EmptyDebugAt.outside {root : Node} {address : Address} {form : Call Node → Node}
    {c : Call Node} (empty : root.EmptyDebugAt address form c) :
    root.OutsideTargets address (form c) where
  reached := empty.reached
  clear := empty.clear
  fails := by rw [empty.form.isTarget, isTarget_of_emptyDebug empty.callee empty.args]; simp

theorem exists_emptyDebugAt_iff {root : Node} {address : Address} {span : Span} :
    (∃ form c, root.EmptyDebugAt address form c ∧ span = c.span) ↔
      ∃ node, root.OutsideTargets address node ∧ node.emptyDebug? = some span := by
  constructor
  · rintro ⟨form, c, empty, rfl⟩
    exact ⟨_, empty.outside,
      emptyDebug?_eq_some_iff.2 ⟨form, c, empty.form, rfl, empty.callee, empty.args, rfl⟩⟩
  · rintro ⟨node, outside, found⟩
    obtain ⟨form, c, known, rfl, callee, args, same⟩ := emptyDebug?_eq_some_iff.1 found
    exact ⟨form, c, ⟨outside.reached, outside.clear, known, callee, args⟩, same⟩

def emptyDebugPlaces (root : Node) : List Address :=
  root.placesOutside (fun node => node.isTarget) (fun node => node.emptyDebug?.isSome)

theorem mem_emptyDebugPlaces_iff {root : Node} {address : Address} :
    address ∈ root.emptyDebugPlaces ↔ ∃ form c, root.EmptyDebugAt address form c := by
  rw [emptyDebugPlaces, mem_placesOutside_iff]
  constructor
  · rintro ⟨node, outside, found⟩
    obtain ⟨span, found⟩ := Option.isSome_iff_exists.1 found
    obtain ⟨form, c, empty, -⟩ := exists_emptyDebugAt_iff.2 ⟨node, outside, found⟩
    exact ⟨form, c, empty⟩
  · rintro ⟨form, c, empty⟩
    obtain ⟨node, outside, found⟩ := exists_emptyDebugAt_iff.1 ⟨form, c, empty, rfl⟩
    exact ⟨node, outside, Option.isSome_of_eq_some found⟩

end Node

namespace Stamper

variable {stamper : Stamper}

/-- The places of the `$debug` calls that show nothing and the warnings of a pass, one next to the
other. -/
theorem warnings_of_pass {root new : Node} {events : List Event}
    (result : stamper.pass root = .ok (new, events)) :
    List.Forall₂ (fun address event => ∃ node span, root.OutsideTargets address node ∧
        node.emptyDebug? = some span ∧ event = .emptyDebug span)
      root.emptyDebugPlaces (events.filter Event.isWarning) := by
  induction root using Node.induct generalizing new events with
  | step root ih =>
    rw [Node.emptyDebugPlaces]
    cases kind : root.isTarget with
    | true =>
      obtain ⟨target, text, -, -, -, rfl⟩ := (pass_eq_ok_iff_of_isTarget kind).1 result
      rw [Node.placesOutside_of_holds kind,
        List.filter_cons_of_neg (by simp [target.isWarning_event])]
      exact .nil
    | false =>
      obtain ⟨outcomes, results, -, rfl⟩ := (pass_eq_ok_iff_of_not_isTarget kind).1 result
      have other : ¬ root.isTarget := by simp [kind]
      rw [Node.placesOutside_of_fails other, List.filter_append, List.filter_flatMap]
      apply List.rel_append
      · cases found : root.emptyDebug? with
        | none => exact .nil
        | some span =>
          have warned : [Event.emptyDebug span].filter Event.isWarning = [.emptyDebug span] :=
            List.filter_cons_of_pos (Event.isWarning_emptyDebug span)
          show List.Forall₂ _ [[]] ([Event.emptyDebug span].filter Event.isWarning)
          rw [warned]
          exact .cons ⟨root, span, Node.outside_nil_iff.2 ⟨rfl, other⟩, found, rfl⟩ .nil
      · apply Node.forall₂_inChildren results
        rintro index part ⟨inner, told⟩ found done
        apply (ih part (List.mem_of_getElem? found) done).imp
        rintro rest event ⟨node, span, outside, warned⟩
        exact ⟨node, span, Node.outside_cons_iff.2 ⟨other, part, found, outside⟩, warned⟩

theorem warned_of_pass_iff {root new : Node} {events : List Event}
    (result : stamper.pass root = .ok (new, events)) {span : Span} :
    .emptyDebug span ∈ events ↔ ∃ address form c, root.EmptyDebugAt address form c ∧ span = c.span := by
  have log := warnings_of_pass result
  constructor
  · intro told
    obtain ⟨address, -, node, _, outside, found, ⟨⟩⟩ := exists_mem_of_forall₂ log
      (List.mem_filter.2 ⟨told, Event.isWarning_emptyDebug span⟩)
    exact ⟨address, Node.exists_emptyDebugAt_iff.2 ⟨node, outside, found⟩⟩
  · rintro ⟨address, form, c, empty, rfl⟩
    obtain ⟨event, told, node, span, outside, found, rfl⟩ := exists_mem_of_forall₂
      (List.Forall₂.flip (R := flip _) log) (Node.mem_emptyDebugPlaces_iff.2 ⟨form, c, empty⟩)
    -- the node at an address is one, and so is the span at which it is reported
    cases outside.reached.symm.trans empty.reached
    have known := Node.emptyDebug?_eq_some_iff.2
      ⟨form, c, empty.form, rfl, empty.callee, empty.args, rfl⟩
    cases found.symm.trans known
    exact (List.mem_filter.1 told).1

-- A node that is no target and not part of one becomes what a pass over it alone makes of it.
theorem at?_of_pass_of_outsideTargets {root new node : Node} {events : List Event}
    (result : stamper.pass root = .ok (new, events)) {address : Node.Address}
    (outside : root.OutsideTargets address node) :
    ∃ kept told, stamper.pass node = .ok (kept, told) ∧ new.at? address = some kept := by
  induction address generalizing root new events with
  | nil =>
    obtain ⟨rfl, -⟩ := Node.outside_nil_iff.1 outside
    exact ⟨new, events, result, rfl⟩
  | cons index rest ih =>
    obtain ⟨other, part, found, inPart⟩ := Node.outside_cons_iff.1 outside
    obtain ⟨outcomes, results, rfl, -⟩ :=
      (pass_eq_ok_iff_of_not_isTarget (by simpa using other)).1 result
    obtain ⟨⟨inner, told⟩, here, done⟩ := getElem?_of_mapM results found
    obtain ⟨kept, told, passed, reached⟩ := ih done inPart
    have fits : (outcomes.map Prod.fst).length = root.children.length := by
      rw [List.length_map, length_of_mapM results]
    refine ⟨kept, told, passed, Node.at?_cons_eq_some_iff.2 ⟨inner, ?_, reached⟩⟩
    rw [Node.children_withChildren root _ fits, List.getElem?_map, here]
    rfl

def Stamped (stamper : Stamper) (old new : Node) : Prop :=
  ∃ put, stamper.Stamps old put ∧ new = old.replace put

theorem stamped_of_pass {old new : Node} {events : List Event}
    (result : stamper.pass old = .ok (new, events)) : stamper.Stamped old new := by
  obtain ⟨put, stamps⟩ := stamper.exists_stamps old
  exact ⟨put, stamps, pass_eq_replace result stamps⟩

theorem pass_ident (id : Ident) : stamper.pass (.ident id) = .ok (.ident id, []) :=
  (pass_eq_ok_iff_of_not_isTarget rfl).2 ⟨[], rfl, rfl, rfl⟩

/-- A pass goes into the type arguments of a `$debug` call that shows nothing, and leaves the rest. -/
theorem pass_emptyDebug {form : Call Node → Node} (known : Node.CallForm form) {c : Call Node}
    (callee : c.isOf "$debug") (args : c.args = []) {new : Node} {events : List Event}
    (result : stamper.pass (form c) = .ok (new, events)) :
    ∃ typeArgs, Option.Rel stamper.Stamped c.typeArgs typeArgs ∧
      new = form ⟨c.span, c.ctxt, c.callee, [], typeArgs⟩ := by
  have other : (form c).isTarget = false :=
    (known.isTarget c).trans (Node.isTarget_of_emptyDebug callee args)
  obtain ⟨outcomes, results, rfl, -⟩ := (pass_eq_ok_iff_of_not_isTarget other).1 result
  obtain ⟨id, ident, -⟩ := Call.isOf_iff.1 callee
  rw [known.children, Call.children, ident, args, mapM_eq_ok_iff] at results
  obtain ⟨⟨first, told⟩, types, passed, rest, rfl⟩ := List.forall₂_cons_left_iff.1 results
  cases passed.symm.trans (pass_ident id)
  rw [known.withChildren, ident]
  obtain ⟨span, ctxt, _, _, typeArgs⟩ := c
  cases args
  cases typeArgs with
  | none =>
    cases rest
    exact ⟨none, .none, rfl⟩
  | some old =>
    obtain ⟨⟨new, told⟩, none_, passed, rest, rfl⟩ := List.forall₂_cons_left_iff.1 rest
    cases rest
    exact ⟨some new, .some (stamped_of_pass passed), rfl⟩

theorem filter_isWarning_reportOf (new : Node) (events : List Event) :
    (reportOf true new events).events.filter Event.isWarning =
      (events.filter Event.isWarning).filter fun event => event.diagnostic?.isNone := by
  show (events.filter fun event => event.diagnostic?.isNone).filter _ = _
  rw [List.filter_filter, List.filter_filter]
  exact List.filter_congr fun event _ => Bool.and_comm _ _

/-- A `$debug` call without arguments that is not part of a target gives one warning, at its own
span; nothing else does. A collector of diagnostics gets each of these spans once, and has no part
in the rest of the report. The call stays as it is, with the targets stamped that are in its type
arguments. -/
theorem run_reports_emptyDebug (stamper : Stamper) (program : Node)
    (answers : stamper.AnswersPass program) :
    ∃ plain collected places, stamper.run false program = .ok plain ∧
      stamper.run true program = .ok collected ∧
      (collected.program = plain.program ∧
        collected.events.filter Event.isDebug = plain.events.filter Event.isDebug) ∧
      (places.Nodup ∧
        (∀ address, address ∈ places ↔ ∃ form c, program.EmptyDebugAt address form c) ∧
        List.Forall₂ (fun address event =>
            ∃ form c, program.EmptyDebugAt address form c ∧ event = .emptyDebug c.span)
          places (plain.events.filter Event.isWarning)) ∧
      (collected.events.filter Event.isWarning = [] ∧ collected.diagnostics.Nodup ∧
        ∀ diagnostic, diagnostic ∈ collected.diagnostics ↔
          ∃ address form c, program.EmptyDebugAt address form c ∧
            diagnostic = ⟨c.span, "warning: " ++ Event.emptyDebugMessage⟩) ∧
      ∀ address form c, program.EmptyDebugAt address form c →
        ∃ typeArgs, Option.Rel stamper.Stamped c.typeArgs typeArgs ∧
          plain.program.at? address = some (form ⟨c.span, c.ctxt, c.callee, [], typeArgs⟩) := by
  obtain ⟨⟨new, events⟩, passed⟩ := exists_pass_eq_ok_iff.2 answers
  have log := warnings_of_pass passed
  refine ⟨_, _, program.emptyDebugPlaces, run_eq_ok_iff.2 ⟨new, events, passed, rfl⟩,
    run_eq_ok_iff.2 ⟨new, events, passed, rfl⟩, ⟨?_, ?_⟩, ⟨?_, ?_, ?_⟩, ⟨?_, ?_, ?_⟩, ?_⟩
  · rw [reportOf_program, reportOf_program]
  · rw [filter_isDebug_reportOf, filter_isDebug_reportOf]
  · exact Node.nodup_placesOutside program
  · exact fun address => Node.mem_emptyDebugPlaces_iff
  · apply log.imp
    rintro address event ⟨node, span, outside, found, rfl⟩
    obtain ⟨form, c, empty, rfl⟩ := Node.exists_emptyDebugAt_iff.2 ⟨node, outside, found⟩
    exact ⟨form, c, empty, rfl⟩
  · rw [filter_isWarning_reportOf, List.filter_eq_nil_iff]
    intro event warned
    obtain ⟨address, -, node, span, -, -, rfl⟩ := exists_mem_of_forall₂ log warned
    simp [Event.diagnostic?]
  · exact nodup_eraseDups _
  · intro diagnostic
    show diagnostic ∈ (events.filterMap Event.diagnostic?).eraseDups ↔ _
    rw [List.mem_eraseDups, mem_filterMap_diagnostic?_iff]
    simp only [warned_of_pass_iff passed]
    constructor
    · rintro ⟨_, ⟨address, form, c, empty, rfl⟩, rfl⟩
      exact ⟨address, form, c, empty, rfl⟩
    · rintro ⟨address, form, c, empty, rfl⟩
      exact ⟨_, ⟨address, form, c, empty, rfl⟩, rfl⟩
  · intro address form c empty
    obtain ⟨kept, told, done, reached⟩ := at?_of_pass_of_outsideTargets passed empty.outside
    obtain ⟨typeArgs, stamped, rfl⟩ := pass_emptyDebug empty.form empty.callee empty.args done
    exact ⟨typeArgs, stamped, by rw [reportOf_program, reached]⟩

/-- Of four calls that show nothing and are not part of a target, two stand at one span; a fifth one
is an argument of a target. The target in the type arguments of the last one is stamped. -/
theorem run_reports_emptyDebug_four :
    let table : LookupTable := ⟨⟨"/app/a.ts", "", 1⟩, [(52, 3, 7)], []⟩
    let stamper : Stamper := ⟨some table.sourceMap, some "/app", "log"⟩
    let callee (name : String) : Node := .ident ⟨.dummy, 0, name, false⟩
    let bare (span : Span) (typeArgs : Option Node) : Call Node :=
      ⟨span, 0, callee "$debug", [], typeArgs⟩
    let print (span : Span) (arg : Node) : Node :=
      .call ⟨span, 0, callee "$print", [⟨none, arg⟩], none⟩
    let types : Node := .list [print ⟨52, 61⟩ (callee "x")]
    let program : Node := .list [.call (bare ⟨1, 9⟩ none), .call (bare ⟨1, 9⟩ none),
      .optCall .expression ⟨10, 20⟩ true (bare ⟨10, 19⟩ none),
      print ⟨21, 37⟩ (.call (bare ⟨28, 36⟩ none)), .call (bare ⟨38, 64⟩ (some types))]
    stamper.AnswersPass program ∧ ∃ plain collected places new,
      stamper.run false program = .ok plain ∧ stamper.run true program = .ok collected ∧
      (∀ address, address ∈ places ↔ ∃ form c, program.EmptyDebugAt address form c) ∧
      List.length places = 4 ∧
      collected.diagnostics.map Diagnostic.span = [⟨1, 9⟩, ⟨10, 19⟩, ⟨38, 64⟩] ∧
      plain.program.at? [4] = some (.call (bare ⟨38, 64⟩ (some new))) ∧
      new.at? [0] = some (.call ⟨⟨52, 61⟩, 0, callee "print",
        [⟨none, .string ⟨.dummy, "[a.ts:3:8] ", none⟩⟩, ⟨none, callee "x"⟩], none⟩) := by
  intro table stamper callee bare print types program
  have answers : stamper.AnswersPass program := fun _ node _ =>
    stamper.exists_textOf (by rintro _ ⟨⟩; exact table.answers) node
  obtain ⟨plain, collected, places, ran, ran', -, ⟨-, complete, log⟩, -, kept⟩ :=
    run_reports_emptyDebug stamper program answers
  have last : program.EmptyDebugAt [4] .call (bare ⟨38, 64⟩ (some types)) :=
    ⟨rfl, (Node.noneAbove_cons_iff rfl).2 ⟨by simp [program, Node.isTarget], Node.noneAbove_nil _⟩,
      .plain, rfl, rfl⟩
  obtain ⟨_, ⟨put, stamps, rfl⟩, found⟩ := kept [4] .call _ last
  refine ⟨answers, plain, collected, places, _, ran, ran', complete, ?_, ?_, found, ?_⟩
  · have known : (stamper.run false program).toOption.map Report.events = some
        [.emptyDebug ⟨1, 9⟩, .emptyDebug ⟨1, 9⟩, .emptyDebug ⟨10, 19⟩,
          .messageCall .print "[a.ts:1:1] ", .emptyDebug ⟨38, 64⟩,
          .messageCall .print "[a.ts:3:8] "] := by decide +kernel
    rw [ran] at known
    rw [log.length_eq, show plain.events = _ from Option.some.inj known]
    decide
  · have known : (stamper.run true program).toOption.map Report.diagnostics =
        some ([⟨1, 9⟩, ⟨10, 19⟩, ⟨38, 64⟩].map fun span =>
          ⟨span, "warning: " ++ Event.emptyDebugMessage⟩) := by decide +kernel
    rw [ran'] at known
    rw [show collected.diagnostics = _ from Option.some.inj known]
    rfl
  · have text : stamper.textOf (print ⟨52, 61⟩ (callee "x")) = .ok "[a.ts:3:8] " := by
      decide +kernel
    have outermost : types.OutermostTarget [0] (print ⟨52, 61⟩ (callee "x")) :=
      Node.outermost_cons_iff.2 ⟨by simp [types, Node.isTarget], _, rfl,
        Node.outermost_nil_iff.2 ⟨rfl, rfl⟩⟩
    exact Node.at?_replace_of_outermost stamps.onlyOutermost outermost
      ((stamps [0] _).2 ⟨_, outermost, _, text, .print rfl⟩)

end Stamper

end SourceStamp
