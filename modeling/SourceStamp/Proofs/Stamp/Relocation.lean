import SourceStamp.Proofs.SourceMap.Shift
import SourceStamp.Proofs.Stamp.Renumbering
import SourceStamp.Proofs.Stamp.Texts

/-! Programs whose files stand behind others. Put in front of the files of a program, other files
move every place of it, and nothing else: each target gets the text that it got before. The one
exception is a spread argument, whose place begins at one span and ends at another. If one of them
was made up and still ends within a file, that end stays where it is while the rest moves.
-/

set_option autoImplicit false

namespace SourceStamp

open SourceFile

/-- A span that was made up, or stands in the sources and does not count as made up with `front`
before them. -/
def Span.Movable (front sources : List (String × String)) (span : Span) : Prop :=
  span.isDummy = false → Stands sources span.start ∧ Stands sources span.stop ∧
    span.start + totalExtent front < Span.reserved

/-- A spread argument gets no position of a file from a span that was made up. -/
def Argument.Unmixed (sources : List (String × String)) (arg : Argument Node) : Prop :=
  ∀ dots ∈ arg.spread,
    if dots.isDummy then Nowhere sources dots.start
    else arg.expr.span.isDummy → Nowhere sources arg.expr.span.stop

variable {front sources : List (String × String)}

instance (span : Span) : Decidable (span.Movable front sources) :=
  inferInstanceAs (Decidable (_ → _ ∧ _ ∧ _))

instance (arg : Argument Node) : Decidable (arg.Unmixed sources) :=
  inferInstanceAs (Decidable (∀ dots ∈ arg.spread, if dots.isDummy then Nowhere sources dots.start
    else arg.expr.span.isDummy → Nowhere sources arg.expr.span.stop))

theorem Span.movable_dummy : Span.dummy.Movable front sources := fun written => by contradiction

theorem Span.Movable.isDummy_shift {span : Span} (movable : span.Movable front sources) :
    (span.shift (totalExtent front)).isDummy = span.isDummy := by
  cases written : span.isDummy with
  | true => rw [Span.shift_of_isDummy written, written]
  | false =>
    obtain ⟨⟨positive, -⟩, -, below⟩ := movable written
    rw [Span.shift_of_not_isDummy written]
    exact Span.isDummy_eq_false (Nat.add_pos_left positive _) below

theorem Span.Movable.shift_inj {span other : Span} (movable : span.Movable front sources)
    (movable' : other.Movable front sources)
    (same : span.shift (totalExtent front) = other.shift (totalExtent front)) : span = other := by
  have kinds : span.isDummy = other.isDummy := by
    rw [← movable.isDummy_shift, ← movable'.isDummy_shift, same]
  cases written : span.isDummy with
  | true =>
    rwa [Span.shift_of_isDummy written, Span.shift_of_isDummy (kinds.symm.trans written)] at same
  | false =>
    rw [Span.shift_of_not_isDummy written, Span.shift_of_not_isDummy (kinds.symm.trans written)] at same
    obtain ⟨starts, stops⟩ := Span.mk.inj same
    obtain ⟨start, stop⟩ := span
    obtain ⟨start', stop'⟩ := other
    rw [Span.mk.injEq]
    exact ⟨Nat.add_right_cancel starts, Nat.add_right_cancel stops⟩

-- Between two positions that move, in whichever order they come.
theorem Span.between_movable {start stop : Nat} (stands : Stands sources start)
    (stands' : Stands sources stop) (below : start + totalExtent front < Span.reserved) :
    (between start stop).Movable front sources ∧
      between (start + totalExtent front) (stop + totalExtent front) =
        (between start stop).shift (totalExtent front) := by
  unfold between
  simp only [Nat.add_le_add_iff_right]
  split
  · refine ⟨fun _ => ⟨stands, stands', below⟩, ?_⟩
    rw [shift_of_not_isDummy (isDummy_eq_false stands.1 (by dsimp only; omega))]
  · refine ⟨fun _ => ⟨stands', stands, by dsimp only; omega⟩, ?_⟩
    rw [shift_of_not_isDummy (isDummy_eq_false stands'.1 (by dsimp only; omega))]

theorem Node.mem_of_subject? {node : Node} {subject : Argument Node}
    (shown : node.subject? = some subject) :
    subject.expr ∈ node.children ∧ ∀ dots, subject.spread = some dots → dots ∈ node.ownSpans := by
  have inCall : ∀ c : Call Node, (if c.isOf "$debug" then c.args.head? else none) = some subject →
      subject.expr ∈ c.children ∧ ∀ dots, subject.spread = some dots → dots ∈ c.ownSpans := by
    intro c shown
    split at shown
    · have among : subject ∈ c.args := List.mem_of_head? shown
      refine ⟨List.mem_cons_of_mem _ (List.mem_append_left _ (List.mem_map_of_mem among)), ?_⟩
      intro dots spread
      exact List.mem_cons_of_mem _ (List.mem_filterMap.2 ⟨subject, among, spread⟩)
    · contradiction
  cases node with
  | call c => exact inCall c shown
  | optCall role span optional c =>
    cases role with
    | expression =>
      obtain ⟨expr, dots⟩ := inCall c shown
      exact ⟨expr, fun place spread => List.mem_cons_of_mem span (dots place spread)⟩
    | assignTarget => contradiction
  | _ => contradiction

namespace Stamper

variable {stamper other : Stamper}

theorem snippet?_between_of_nowhere (asked : stamper.sourceMap = some (.ofSources sources))
    {start stop : Nat} (nowhere : Nowhere sources start ∨ Nowhere sources stop) :
    stamper.snippet? (.between start stop) = .ok none := by
  cases written : (Span.between start stop).isDummy with
  | true => exact snippet?_of_isDummy written
  | false =>
    rw [snippet?_of_asked asked written]
    apply SourceMap.snippetIn?_of_nowhere
    unfold Span.between
    split
    · exact nowhere
    · exact nowhere.symm

variable (asked : stamper.sourceMap = some (.ofSources sources))
  (asked' : other.sourceMap = some (.ofSources (front ++ sources)))
include asked asked'

theorem exists_tag_shift (dir : other.baseDir = stamper.baseDir) {span : Span}
    (movable : span.Movable front sources) :
    ∃ tag, stamper.tag span = .ok tag ∧ other.tag (span.shift (totalExtent front)) = .ok tag := by
  cases written : span.isDummy with
  | true =>
    rw [Span.shift_of_isDummy written]
    exact ⟨_, tag_of_isDummy written, tag_of_isDummy written⟩
  | false =>
    obtain ⟨stands, -, -⟩ := movable written
    obtain ⟨place, located⟩ := SourceMap.exists_locate_ofSources stands.not_lost
    have located' := SourceMap.locate_append front stands.not_lost
    rw [located] at located'
    have column := place.utf16Column_shift (totalExtent front) span.start
    rw [tag_of_asked asked written, tag_of_asked asked' (movable.isDummy_shift.trans written),
      Span.shift_of_not_isDummy written, located, located', dir]
    refine ⟨_, rfl, ?_⟩
    show Except.ok (Tag.format _ _ ((place.shift _).utf16Column _ + 1)) = Except.ok _
    rw [column]
    rfl

theorem exists_snippet?_shift {span : Span} (movable : span.Movable front sources) :
    ∃ text?, stamper.snippet? span = .ok text? ∧
      other.snippet? (span.shift (totalExtent front)) = .ok text? := by
  cases written : span.isDummy with
  | true =>
    rw [Span.shift_of_isDummy written]
    exact ⟨none, snippet?_of_isDummy written, snippet?_of_isDummy written⟩
  | false =>
    obtain ⟨start, stop, -⟩ := movable written
    obtain ⟨text?, known⟩ := SourceMap.exists_snippetIn? start.2.2 stop.2.2
    rw [snippet?_of_asked asked written,
      snippet?_of_asked asked' (movable.isDummy_shift.trans written), Span.shift_of_not_isDummy written]
    exact ⟨text?, known,
      (SourceMap.snippetIn?_append front start.not_lost stop.not_lost).trans known⟩

-- Of a spread argument each end moves with its span, or it is no position of the files.
theorem exists_snippet?_between_shift {dots place : Span} (movable : dots.Movable front sources)
    (movable' : place.Movable front sources)
    (unmixed : if dots.isDummy then Nowhere (front ++ sources) dots.start
      else place.isDummy → Nowhere (front ++ sources) place.stop) :
    ∃ text?, stamper.snippet? (.between dots.start place.stop) = .ok text? ∧
      other.snippet? (.between (dots.shift (totalExtent front)).start
        (place.shift (totalExtent front)).stop) = .ok text? := by
  cases made : dots.isDummy with
  | true =>
    rw [made, if_pos rfl] at unmixed
    rw [Span.shift_of_isDummy made]
    exact ⟨none, snippet?_between_of_nowhere asked (.inl unmixed.of_append),
      snippet?_between_of_nowhere asked' (.inl unmixed)⟩
  | false =>
    rw [made, if_neg Bool.false_ne_true] at unmixed
    cases written : place.isDummy with
    | true =>
      have past := unmixed written
      rw [Span.shift_of_isDummy written]
      exact ⟨none, snippet?_between_of_nowhere asked (.inr past.of_append),
        snippet?_between_of_nowhere asked' (.inr past)⟩
    | false =>
      obtain ⟨start, -, below⟩ := movable made
      obtain ⟨-, stop, -⟩ := movable' written
      obtain ⟨whole, moved⟩ := Span.between_movable start stop below
      rw [Span.shift_of_not_isDummy made, Span.shift_of_not_isDummy written]
      dsimp only
      rw [moved]
      exact exists_snippet?_shift asked asked' whole

theorem exists_snippet?_mapSpans {arg : Argument Node} (movable : arg.expr.span.Movable front sources)
    (movable' : ∀ dots, arg.spread = some dots → dots.Movable front sources)
    (unmixed : arg.Unmixed (front ++ sources)) :
    ∃ text?, stamper.snippet? arg.span = .ok text? ∧
      other.snippet? (arg.mapSpans (Span.shift (totalExtent front))).span = .ok text? := by
  obtain ⟨spread, expr⟩ := arg
  have place : (expr.mapSpans (Span.shift (totalExtent front))).span =
      expr.span.shift (totalExtent front) := Node.span_mapSpans (Span.shift_of_isDummy rfl _) expr
  cases spread with
  | none =>
    show ∃ text?, stamper.snippet? expr.span = _ ∧
      other.snippet? (expr.mapSpans (Span.shift (totalExtent front))).span = _
    rw [place]
    exact exists_snippet?_shift asked asked' movable
  | some dots =>
    show ∃ text?, stamper.snippet? (.between dots.start expr.span.stop) = _ ∧
      other.snippet? (.between (dots.shift (totalExtent front)).start
        (expr.mapSpans (Span.shift (totalExtent front))).span.stop) = _
    rw [place]
    exact exists_snippet?_between_shift asked asked' (movable' dots rfl) movable (unmixed dots rfl)

theorem exists_textOf_shift (dir : other.baseDir = stamper.baseDir) {node : Node}
    (movable : node.Everywhere fun part => ∀ span ∈ part.ownSpans, span.Movable front sources)
    (unmixed : ∀ subject, node.subject? = some subject → subject.Unmixed (front ++ sources)) :
    ∃ text, stamper.textOf node = .ok text ∧
      other.textOf (node.mapSpans (Span.shift (totalExtent front))) = .ok text := by
  have made : Span.shift (totalExtent front) .dummy = .dummy := Span.shift_of_isDummy rfl _
  obtain ⟨tag, known, known'⟩ :=
    exists_tag_shift asked asked' dir (movable.of_span Span.movable_dummy)
  unfold textOf
  rw [Node.span_mapSpans made, Node.subject?_mapSpans, known, known']
  cases shown : node.subject? with
  | none => exact ⟨tag, rfl, rfl⟩
  | some subject =>
    obtain ⟨child, dots⟩ := Node.mem_of_subject? shown
    obtain ⟨here, below⟩ := Node.everywhere_iff.1 movable
    obtain ⟨text?, snippet, snippet'⟩ := exists_snippet?_mapSpans asked asked'
      ((below subject.expr child).of_span Span.movable_dummy)
      (fun place spread => here place (dots place spread)) (unmixed subject shown)
    have name : placeholder (subject.mapSpans (Span.shift (totalExtent front))).expr =
        placeholder subject.expr := placeholder_mapSpans subject.expr
    have source := sourceText_of_snippet? snippet
    have source' := sourceText_of_snippet? snippet'
    rw [name] at source'
    exact ⟨_, bind_eq_ok_iff.2 ⟨tag, rfl, bind_eq_ok_iff.2 ⟨_, source, rfl⟩⟩,
      bind_eq_ok_iff.2 ⟨tag, rfl, bind_eq_ok_iff.2 ⟨_, source', rfl⟩⟩⟩

omit asked asked'

/-- A program is stamped in the same way wherever its files stand. With other files in front of
them, and all places moved on by what these take up, a pass gives the tree that it gave, moved on,
with the same log and the same warnings. What was made up is not moved, so an argument that the pass
shows may not take one of its ends from there. -/
theorem run_shift (baseDir : Option String) (debugCallee : String) (collects : Bool)
    (front sources : List (String × String)) (program : Node)
    (movable : program.Everywhere fun node => ∀ span ∈ node.ownSpans, span.Movable front sources)
    (unmixed : ∀ address node, program.OutermostTarget address node →
      ∀ subject, node.subject? = some subject → subject.Unmixed (front ++ sources)) :
    ∃ report events, Stamper.run ⟨some (.ofSources sources), baseDir, debugCallee⟩ collects program =
        .ok report ∧
      Stamper.run ⟨some (.ofSources (front ++ sources)), baseDir, debugCallee⟩ collects
          (program.mapSpans (Span.shift (totalExtent front))) =
        .ok ⟨report.program.mapSpans (Span.shift (totalExtent front)), events,
          report.diagnostics.map (Diagnostic.mapSpan (Span.shift (totalExtent front)))⟩ ∧
      events.map Event.fields = report.events.map Event.fields := by
  let stamper : Stamper := ⟨some (.ofSources sources), baseDir, debugCallee⟩
  let other : Stamper := ⟨some (.ofSources (front ++ sources)), baseDir, debugCallee⟩
  have asked : stamper.sourceMap = some (.ofSources sources) := rfl
  have asked' : other.sourceMap = some (.ofSources (front ++ sources)) := rfl
  have callee : other.debugCallee = stamper.debugCallee := rfl
  have texts : ∀ address node, program.OutermostTarget address node →
      ∃ text, stamper.textOf node = .ok text ∧
        other.textOf (node.mapSpans (Span.shift (totalExtent front))) = .ok text := by
    intro address node outermost
    exact exists_textOf_shift asked asked' rfl (movable.at? outermost.reached)
      (unmixed address node outermost)
  obtain ⟨report, first, second⟩ := run_mapSpans (Span.shift_of_isDummy rfl _) callee texts movable
    (fun _ here _ there => here.shift_inj there) collects
  refine ⟨report, _, first, second, ?_⟩
  rw [List.map_map]
  exact List.map_congr_left fun event _ => event.fields_mapSpan

/-- A spread argument in a file with a byte order mark, and a warning in the file behind it. What is
made up behind three dots of the source does no harm in a call that is part of another target. -/
theorem run_shift_spread :
    let front := [("/lib.js", "\ufeffλ\n")]
    let sources := [("/app/a.ts", "\ufeff$debug(...é)\r\n"), ("/app/b.ts", "$debug();$print($debug(...x))")]
    let called (span : Span) (name : String) (args : List (Argument Node)) : Node :=
      .call ⟨span, 0, .ident ⟨⟨span.start, span.start + 6⟩, 0, name, false⟩, args, none⟩
    let e : Node := .ident ⟨⟨11, 13⟩, 0, "é", false⟩
    let x : Node := .ident ⟨⟨4294901760, 44⟩, 0, "x", false⟩
    let program : Node := .list [called ⟨1, 14⟩ "$debug" [⟨some ⟨8, 11⟩, e⟩], called ⟨17, 25⟩ "$debug" [],
      called ⟨26, 46⟩ "$print" [⟨none, called ⟨33, 45⟩ "$debug" [⟨some ⟨40, 43⟩, x⟩]⟩]]
    ∃ report events,
      Stamper.run ⟨some (.ofSources sources), some "/app", "log"⟩ true program = .ok report ∧
      Stamper.run ⟨some (.ofSources (front ++ sources)), some "/app", "log"⟩ true
          (program.mapSpans (Span.shift 4)) =
        .ok ⟨report.program.mapSpans (Span.shift 4), events,
          [⟨⟨21, 29⟩, "warning: " ++ Event.emptyDebugMessage⟩]⟩ ∧
      events.map Event.fields = [(Event.debugCall "[a.ts:1:1] ...é = ").fields,
        (Event.messageCall .print "[b.ts:1:10] ").fields] := by
  intro front sources called e x program
  have unmixed : ∀ address node, program.OutermostTarget address node →
      ∀ subject, node.subject? = some subject → subject.Unmixed (front ++ sources) := by
    refine (Node.forall_outermost_iff_of_not_isTarget rfl).2 ?_
    refine List.forall_mem_cons.2 ⟨?_, List.forall_mem_cons.2 ⟨?_, List.forall_mem_singleton.2 ?_⟩⟩
    · refine (Node.forall_outermost_iff_of_isTarget rfl).2 ?_
      rintro _ ⟨⟩
      decide +kernel
    · -- the empty call is no target, and neither is its callee
      refine (Node.forall_outermost_iff_of_not_isTarget rfl).2 (List.forall_mem_singleton.2 ?_)
      exact (Node.forall_outermost_iff_of_not_isTarget rfl).2 nofun
    · exact (Node.forall_outermost_iff_of_isTarget rfl).2 nofun
  obtain ⟨report, events, first, second, log⟩ := run_shift (some "/app") "log" true front sources
    program (by decide +kernel) unmixed
  have known : (Stamper.run ⟨some (.ofSources sources), some "/app", "log"⟩ true
      program).toOption.map (fun report => (report.events, report.diagnostics)) =
      some ([.debugCall "[a.ts:1:1] ...é = ", .messageCall .print "[b.ts:1:10] "],
        [⟨⟨17, 25⟩, "warning: " ++ Event.emptyDebugMessage⟩]) := by decide +kernel
  rw [first] at known
  obtain ⟨told, warned⟩ := Prod.mk.inj (Option.some.inj known)
  rw [told] at log
  rw [warned] at second
  exact ⟨report, events, first, second, log⟩

/-- An expression that was made up behind three dots of the source: its end stays where it is, and
the text that is shown ends earlier. -/
theorem not_run_shift_of_mixed_spread :
    ¬ ∀ (front sources : List (String × String)) (program : Node),
      program.Everywhere (fun node => ∀ span ∈ node.ownSpans, span.Movable front sources) →
      ∃ report events,
        Stamper.run ⟨some (.ofSources sources), none, "log"⟩ false program = .ok report ∧
        Stamper.run ⟨some (.ofSources (front ++ sources)), none, "log"⟩ false
            (program.mapSpans (Span.shift (totalExtent front))) =
          .ok ⟨report.program.mapSpans (Span.shift (totalExtent front)), events,
            report.diagnostics.map (Diagnostic.mapSpan (Span.shift (totalExtent front)))⟩ ∧
        events.map Event.fields = report.events.map Event.fields := by
  intro same
  let x : Node := .ident ⟨⟨4294901760, 12⟩, 0, "x", false⟩
  let shown : Node :=
    .call ⟨⟨1, 13⟩, 0, .ident ⟨⟨1, 7⟩, 0, "$debug", false⟩, [⟨some ⟨8, 11⟩, x⟩], none⟩
  obtain ⟨report, events, first, second, log⟩ :=
    same [("/a.ts", "y")] [("/b.ts", "$debug(...x)")] (.list [shown]) (by decide +kernel)
  have known : (Stamper.run ⟨some (.ofSources [("/b.ts", "$debug(...x)")]), none, "log"⟩ false
      (.list [shown])).toOption.map Report.events =
      some [.debugCall "[/b.ts:1:1] ...x = "] := by decide +kernel
  have known' : (Stamper.run ⟨some (.ofSources [("/a.ts", "y"), ("/b.ts", "$debug(...x)")]), none,
      "log"⟩ false (Node.mapSpans (Span.shift 2) (.list [shown]))).toOption.map Report.events =
      some [.debugCall "[/b.ts:1:1] .. = "] := by decide +kernel
  have second' : Stamper.run ⟨some (.ofSources [("/a.ts", "y"), ("/b.ts", "$debug(...x)")]), none,
      "log"⟩ false (Node.mapSpans (Span.shift 2) (.list [shown])) = .ok _ := second
  rw [first] at known
  rw [second'] at known'
  rw [Option.some.inj known, show events = _ from Option.some.inj known'] at log
  exact absurd log (by decide)

end Stamper

end SourceStamp
