import SourceStamp.Proofs.Outcome
import SourceStamp.SourceMap.Table
import SourceStamp.Stamp.Stamper

/-! The rules of stamping as a relation between a node and what takes its place.

Which nodes are targets, which text each of them gets and what becomes of it are three separate
questions; none of them looks further down than the arguments of a call or the thrown expression.
-/

set_option autoImplicit false

namespace SourceStamp

namespace Call

def isOf (call : Call Node) (name : String) : Bool :=
  match call.callee with
  | .ident id => id.name = name
  | _ => false

/-- Calls of `$print` and `$warn` are stamped, and calls of `$debug` with something to show. -/
def isTarget (call : Call Node) : Bool :=
  call.isOf "$print" || call.isOf "$warn" || call.isOf "$debug" && !call.args.isEmpty

def withText (call : Call Node) (name text : String) (typeArgs : Option Node) : Call Node where
  span := call.span
  ctxt := call.ctxt
  callee := .ident ⟨call.callee.span, 0, name, false⟩
  args := ⟨none, .string ⟨.dummy, text, none⟩⟩ :: call.args
  typeArgs := typeArgs

end Call

namespace Node

/-- The nodes that are stamped: certain calls, plain ones and optional ones that are expressions,
and throws of a string, a template or an identifier. -/
def isTarget : Node → Bool
  | .call c | .optCall .expression _ _ c => c.isTarget
  | .throwStmt _ (.string _) | .throwStmt _ (.template _ _ _) | .throwStmt _ (.ident _) => true
  | _ => false

def called? : Node → Option (Call Node)
  | .call c => some c
  | .optCall .expression span _ c => some (c.withSpan span)
  | _ => none

/-- The argument whose source text is shown: the first one of a `$debug` call. -/
def subject? : Node → Option (Argument Node)
  | .call c | .optCall .expression _ _ c => if c.isOf "$debug" then c.args.head? else none
  | _ => none

end Node

/-- The text that goes into a node: the tag of its place, for a `$debug` call with its subject. -/
def Stamper.textOf (stamper : Stamper) (node : Node) : Except LookupError String := do
  let tag ← stamper.tag node.span
  match node.subject? with
  | none => return tag
  | some subject => return tag ++ (← stamper.sourceText subject) ++ " = "

/-- What becomes of a target. Only a call of `$debug` keeps its type arguments; an optional call is
treated as the plain one in the place of its chain. -/
inductive Rule (debugCallee text : String) : Node → Node → Prop
  | print {c : Call Node} : c.isOf "$print" →
      Rule debugCallee text (.call c) (.call (c.withText "print" text none))
  | warn {c : Call Node} : c.isOf "$warn" →
      Rule debugCallee text (.call c) (.call (c.withText "warn" text none))
  | debug {c : Call Node} : c.isOf "$debug" → c.args ≠ [] →
      Rule debugCallee text (.call c) (.call (c.withText debugCallee text c.typeArgs))
  | chain {c : Call Node} {span : Span} {optional : Bool} {new : Node} :
      Rule debugCallee text (.call ⟨span, c.ctxt, c.callee, c.args, c.typeArgs⟩) new →
      Rule debugCallee text (.optCall .expression span optional c) new
  | string {span : Span} {literal : StringLit} :
      Rule debugCallee text (.throwStmt span (.string literal))
        (.throwStmt span (.string
          ⟨literal.span, text ++ literal.value, some (Text.quote (text ++ literal.value))⟩))
  | emptyTemplate {span literalSpan : Span} :
      Rule debugCallee text (.throwStmt span (.template literalSpan [] []))
        (.throwStmt span (.string ⟨literalSpan, text, some (Text.quote text)⟩))
  | plainTemplate {span literalSpan : Span} {head : TemplateElement} {rest : List TemplateElement} :
      Rule debugCallee text (.throwStmt span (.template literalSpan [] (head :: rest)))
        (.throwStmt span (.string ⟨literalSpan, text ++ head.cooked.getD head.raw,
          some (Text.quote (text ++ head.cooked.getD head.raw))⟩))
  | template {span literalSpan : Span} {exprs : List Node} {head : TemplateElement}
      {rest : List TemplateElement} : exprs ≠ [] →
      Rule debugCallee text (.throwStmt span (.template literalSpan exprs (head :: rest)))
        (.throwStmt span (.template literalSpan exprs
          (⟨head.span, head.tail, head.cooked.map (text ++ ·), Text.escapeTemplate text ++ head.raw⟩
            :: rest)))
  | headlessTemplate {span literalSpan : Span} {exprs : List Node} : exprs ≠ [] →
      Rule debugCallee text (.throwStmt span (.template literalSpan exprs []))
        (.throwStmt span (.template literalSpan exprs []))
  | ident {span : Span} {id : Ident} :
      Rule debugCallee text (.throwStmt span (.ident id))
        (.throwStmt span (.binary id.span "+" (.string ⟨.dummy, text, none⟩) (.ident id)))

def SourceMap.Answers (sourceMap : SourceMap) : Prop :=
  (∀ pos, ∃ place, sourceMap.locate pos = .ok place) ∧
    ∀ span, ∃ text, sourceMap.snippet? span = .ok text

theorem LookupTable.answers (table : LookupTable) : table.sourceMap.Answers :=
  ⟨fun _ => ⟨_, rfl⟩, fun _ => ⟨_, rfl⟩⟩

def Stamper.Rewrites (stamper : Stamper) (node new : Node) : Prop :=
  ∃ text, stamper.textOf node = .ok text ∧ Rule stamper.debugCallee text node new

theorem Call.isOf_iff {c : Call Node} {name : String} :
    c.isOf name ↔ ∃ id, c.callee = .ident id ∧ id.name = name := by
  unfold Call.isOf
  cases c.callee <;> simp

theorem Call.target?_of_print {c : Call Node} (callee : c.isOf "$print") :
    c.target? = some (.message .print c) := by
  obtain ⟨id, callee, name⟩ := Call.isOf_iff.1 callee
  simp [Call.target?, Call.intrinsic?, callee, name, Intrinsic.ofName?]

theorem Call.target?_of_warn {c : Call Node} (callee : c.isOf "$warn") :
    c.target? = some (.message .warn c) := by
  obtain ⟨id, callee, name⟩ := Call.isOf_iff.1 callee
  simp [Call.target?, Call.intrinsic?, callee, name, Intrinsic.ofName?]

theorem Call.target?_of_debug {c : Call Node} (callee : c.isOf "$debug") {subject : Argument Node}
    {rest : List (Argument Node)} (shows : c.args = subject :: rest) :
    c.target? = some (.debug c subject) := by
  obtain ⟨id, callee, name⟩ := Call.isOf_iff.1 callee
  simp [Call.target?, Call.intrinsic?, callee, name, Intrinsic.ofName?, shows]

theorem Call.target?_eq_none {c : Call Node} (other : c.isTarget = false) : c.target? = none := by
  simp only [Call.isTarget, Bool.or_eq_false_iff, Bool.and_eq_false_iff] at other
  obtain ⟨⟨print, warn⟩, debug⟩ := other
  unfold Call.isOf at print warn debug
  unfold Call.target? Call.intrinsic?
  cases same : c.callee with
  | ident id =>
    simp only [same, decide_eq_false_iff_not] at print warn debug
    rcases debug with debug | bare
    · simp [Intrinsic.ofName?, print, warn, debug]
    · have : c.args = [] := by simpa using bare
      by_cases debug : id.name = "$debug" <;> simp [Intrinsic.ofName?, print, warn, debug, this]
  | _ => rfl

theorem Call.isTarget_of_target? {c : Call Node} {target : Target}
    (found : c.target? = some target) : c.isTarget := by
  cases kind : c.isTarget with
  | true => rfl
  | false => simp [Call.target?_eq_none kind] at found

theorem Call.isTarget_cases {c : Call Node} (target : c.isTarget) :
    c.isOf "$print" ∨ c.isOf "$warn" ∨ c.isOf "$debug" ∧ ∃ subject rest, c.args = subject :: rest := by
  simp only [Call.isTarget, Bool.or_eq_true, Bool.and_eq_true] at target
  rcases target with (print | warn) | ⟨debug, shows⟩
  · exact .inl print
  · exact .inr (.inl warn)
  · refine .inr (.inr ⟨debug, List.exists_cons_of_ne_nil ?_⟩)
    simpa using shows

theorem Call.isOf_unique {c : Call Node} {name other : String} (first : c.isOf name)
    (second : c.isOf other) : name = other := by
  obtain ⟨id, callee, rfl⟩ := Call.isOf_iff.1 first
  obtain ⟨id', callee', rfl⟩ := Call.isOf_iff.1 second
  cases callee.symm.trans callee'
  rfl

namespace Node

theorem target?_eq_none {node : Node} (other : node.isTarget = false) : node.target? = none := by
  cases node with
  | call c => exact Call.target?_eq_none other
  | optCall role span optional c =>
    cases role with
    | expression => exact Call.target?_eq_none (c := c.withSpan span) other
    | assignTarget => rfl
  | throwStmt span argument =>
    cases argument with
    | string | template | ident => cases other
    | _ => rfl
  | _ => rfl

theorem isTarget_of_target? {node : Node} {target : Target} (found : node.target? = some target) :
    node.isTarget := by
  cases kind : node.isTarget with
  | true => rfl
  | false => simp [target?_eq_none kind] at found

theorem rule_call {debugCallee text : String} {c : Call Node} {target : Target}
    (found : c.target? = some target) :
    Rule debugCallee text (.call c) (target.stamped debugCallee text) := by
  have kind := Call.isTarget_of_target? found
  rcases Call.isTarget_cases kind with print | warn | ⟨debug, subject, rest, shows⟩
  · cases found.symm.trans (Call.target?_of_print print)
    exact .print print
  · cases found.symm.trans (Call.target?_of_warn warn)
    exact .warn warn
  · cases found.symm.trans (Call.target?_of_debug debug shows)
    exact .debug debug (by simp [shows])

/-- A target gives rise to a node by one of the rules, and by no other. -/
theorem rule_iff {debugCallee text : String} {node new : Node} :
    Rule debugCallee text node new ↔
      ∃ target, node.target? = some target ∧ new = target.stamped debugCallee text := by
  constructor
  · intro rule
    induction rule with
    | print callee => exact ⟨_, Call.target?_of_print callee, rfl⟩
    | warn callee => exact ⟨_, Call.target?_of_warn callee, rfl⟩
    | debug callee shows =>
      obtain ⟨subject, rest, shows⟩ := List.exists_cons_of_ne_nil shows
      exact ⟨_, Call.target?_of_debug callee shows, rfl⟩
    | chain _ ih => exact ih
    | emptyTemplate => exact ⟨_, rfl, by simp [Target.stamped, TemplateElement.textOf]⟩
    | string | plainTemplate | ident => exact ⟨_, rfl, rfl⟩
    | template some_ | headlessTemplate some_ =>
      obtain ⟨expr, rest, rfl⟩ := List.exists_cons_of_ne_nil some_
      exact ⟨_, rfl, rfl⟩
  · rintro ⟨target, found, rfl⟩
    have kind := isTarget_of_target? found
    cases node with
    | call c => exact rule_call found
    | optCall role span optional c =>
      cases role with
      | expression => exact .chain (rule_call (c := c.withSpan span) found)
      | assignTarget => cases kind
    | throwStmt span argument =>
      cases argument with
      | string literal =>
        cases found
        exact .string
      | template literalSpan exprs quasis =>
        cases exprs with
        | nil =>
          cases found
          cases quasis with
          | nil => simpa [Target.stamped, TemplateElement.textOf] using Rule.emptyTemplate
          | cons head rest => exact .plainTemplate
        | cons expr exprs =>
          cases found
          cases quasis with
          | nil => exact .headlessTemplate (by simp)
          | cons head rest => exact .template (by simp)
      | ident id =>
        cases found
        exact .ident
      | _ => cases kind
    | _ => cases kind

theorem exists_target_call {c : Call Node} (kind : c.isTarget) :
    ∃ target, c.target? = some target := by
  rcases Call.isTarget_cases kind with print | warn | ⟨debug, subject, rest, shows⟩
  · exact ⟨_, Call.target?_of_print print⟩
  · exact ⟨_, Call.target?_of_warn warn⟩
  · exact ⟨_, Call.target?_of_debug debug shows⟩

theorem exists_target {node : Node} (kind : node.isTarget) :
    ∃ target, node.target? = some target := by
  cases node with
  | call c => exact exists_target_call kind
  | optCall role span optional c =>
    cases role with
    | expression => exact exists_target_call (c := c.withSpan span) kind
    | assignTarget => cases kind
  | throwStmt span argument =>
    cases argument with
    | string | ident => exact ⟨_, rfl⟩
    | template literalSpan exprs quasis => cases exprs <;> exact ⟨_, rfl⟩
    | _ => cases kind
  | _ => cases kind

end Node

namespace Stamper

variable (stamper : Stamper)

theorem textOf_call {node : Node} {c : Call Node} {target : Target}
    (found : c.target? = some target) (place : node.span = c.span)
    (shown : node.subject? = if c.isOf "$debug" then c.args.head? else none) :
    stamper.textOf node = stamper.text target := by
  unfold textOf
  rw [place, shown]
  have kind := Call.isTarget_of_target? found
  rcases Call.isTarget_cases kind with print | warn | ⟨debug, subject, rest, shows⟩
  · cases found.symm.trans (Call.target?_of_print print)
    have noDebug : ¬ c.isOf "$debug" := fun debug => absurd (Call.isOf_unique print debug) (by decide)
    rw [if_neg noDebug]
    exact bind_pure _
  · cases found.symm.trans (Call.target?_of_warn warn)
    have noDebug : ¬ c.isOf "$debug" := fun debug => absurd (Call.isOf_unique warn debug) (by decide)
    rw [if_neg noDebug]
    exact bind_pure _
  · cases found.symm.trans (Call.target?_of_debug debug shows)
    rw [if_pos debug, shows]
    rfl

theorem textOf_eq {node : Node} {target : Target} (found : node.target? = some target) :
    stamper.textOf node = stamper.text target := by
  have kind := Node.isTarget_of_target? found
  cases node with
  | call c => exact stamper.textOf_call found rfl rfl
  | optCall role span optional c =>
    cases role with
    | expression => exact stamper.textOf_call (c := c.withSpan span) found rfl rfl
    | assignTarget => cases kind
  | throwStmt span argument =>
    cases argument with
    | string | ident =>
      cases found
      exact bind_pure _
    | template literalSpan exprs quasis =>
      cases exprs <;> cases found <;> exact bind_pure _
    | _ => cases kind
  | _ => cases kind

theorem exists_tag (answers : ∀ sourceMap ∈ stamper.sourceMap, sourceMap.Answers) (span : Span) :
    ∃ tag, stamper.tag span = .ok tag := by
  unfold tag
  cases known : stamper.sourceMap with
  | none => exact ⟨_, rfl⟩
  | some sourceMap =>
    by_cases made : span.isDummy
    · exact ⟨Tag.unknown, by simp [made]⟩
    · obtain ⟨place, found⟩ := (answers sourceMap known).1 span.start
      simp only [made]
      exact ⟨_, bind_eq_ok_iff.2 ⟨place, found, rfl⟩⟩

theorem sourceText_of_snippet? {stamper : Stamper} {arg : Argument Node} {text? : Option String}
    (known : stamper.snippet? arg.span = .ok text?) :
    stamper.sourceText arg = .ok (text?.getD (placeholder arg.expr)) :=
  bind_eq_ok_iff.2 ⟨text?, known, rfl⟩

theorem exists_sourceText (answers : ∀ sourceMap ∈ stamper.sourceMap, sourceMap.Answers)
    (arg : Argument Node) : ∃ text, stamper.sourceText arg = .ok text := by
  have snippet : ∃ text?, stamper.snippet? arg.span = .ok text? := by
    unfold snippet?
    cases known : stamper.sourceMap with
    | none => exact ⟨none, rfl⟩
    | some sourceMap =>
      by_cases made : arg.span.isDummy
      · exact ⟨none, by simp [made]⟩
      · simp only [made]
        exact (answers sourceMap known).2 arg.span
  obtain ⟨text?, found⟩ := snippet
  exact ⟨_, sourceText_of_snippet? found⟩

/-- A node has a text if its place has a tag, and what it shows a source text. -/
theorem exists_textOf_iff {stamper : Stamper} {node : Node} :
    (∃ text, stamper.textOf node = .ok text) ↔ (∃ tag, stamper.tag node.span = .ok tag) ∧
      ∀ subject, node.subject? = some subject → ∃ source, stamper.sourceText subject = .ok source := by
  unfold textOf
  cases node.subject? with
  | none =>
    constructor
    · rintro ⟨text, known⟩
      obtain ⟨tag, place, -⟩ := bind_eq_ok_iff.1 known
      exact ⟨⟨tag, place⟩, fun _ shown => by contradiction⟩
    · rintro ⟨⟨tag, place⟩, -⟩
      exact ⟨tag, bind_eq_ok_iff.2 ⟨tag, place, rfl⟩⟩
  | some subject =>
    constructor
    · rintro ⟨text, known⟩
      obtain ⟨tag, place, rest⟩ := bind_eq_ok_iff.1 known
      obtain ⟨source, shown, -⟩ := bind_eq_ok_iff.1 rest
      refine ⟨⟨tag, place⟩, ?_⟩
      rintro _ ⟨⟩
      exact ⟨source, shown⟩
    · rintro ⟨⟨tag, place⟩, shown⟩
      obtain ⟨source, shown⟩ := shown subject rfl
      exact ⟨_, bind_eq_ok_iff.2 ⟨tag, place, bind_eq_ok_iff.2 ⟨source, shown, rfl⟩⟩⟩

-- If the source map answers everything, every node has a text.
theorem exists_textOf (answers : ∀ sourceMap ∈ stamper.sourceMap, sourceMap.Answers) (node : Node) :
    ∃ text, stamper.textOf node = .ok text :=
  exists_textOf_iff.2 ⟨stamper.exists_tag answers node.span,
    fun subject _ => stamper.exists_sourceText answers subject⟩

theorem Rewrites.unique {stamper : Stamper} {node new other : Node}
    (first : stamper.Rewrites node new) (second : stamper.Rewrites node other) : new = other := by
  obtain ⟨text, known, rule⟩ := first
  obtain ⟨text', known', rule'⟩ := second
  cases known.symm.trans known'
  obtain ⟨target, found, rfl⟩ := Node.rule_iff.1 rule
  obtain ⟨target', found', rfl⟩ := Node.rule_iff.1 rule'
  cases found.symm.trans found'
  rfl

end Stamper

end SourceStamp
