import SourceStamp.Host
import SourceStamp.Proofs.Config.Loading
import SourceStamp.Proofs.Stamp.Texts

/-! The function that stands in for `$debug`. Its name is held against a pattern alone, so it can still be
a word of the language, or one of the functions that are stamped; only a text that gives such a name
leads to it.
-/

set_option autoImplicit false

namespace SourceStamp

namespace Config

/-- The words that are no names of functions in JavaScript, those of strict code and of modules
included. -/
def reservedWords : List String :=
  ["await", "break", "case", "catch", "class", "const", "continue", "debugger", "default", "delete", "do",
   "else", "enum", "export", "extends", "false", "finally", "for", "function", "if", "implements", "import",
   "in", "instanceof", "interface", "let", "new", "null", "package", "private", "protected", "public",
   "return", "static", "super", "switch", "this", "throw", "true", "try", "typeof", "var", "void", "while",
   "with", "yield"]

def IsReference (name : String) : Prop := MatchesPattern name ∧ name ∉ reservedWords

def intrinsicNames : List String := ["$print", "$warn", "$debug"]

end Config

theorem Call.isTarget_eq_false_of_isOf {call : Call Node} {name : String} (called : call.isOf name)
    (other : name ∉ Config.intrinsicNames) : call.isTarget = false := by
  by_contra kind
  have named : name = "$print" ∨ name = "$warn" ∨ name = "$debug" := by
    rcases Call.isTarget_cases (Bool.not_eq_false _ ▸ kind) with print | warn | ⟨debug, -⟩
    · exact .inl (Call.isOf_unique called print)
    · exact .inr (.inl (Call.isOf_unique called warn))
    · exact .inr (.inr (Call.isOf_unique called debug))
  exact other (by simpa [Config.intrinsicNames] using named)

/-- A `$debug` call becomes a call of the debug callee with the text in front of its arguments. -/
theorem Rule.eq_withText {debugCallee text : String} {old new : Node} {c : Call Node}
    (rule : Rule debugCallee text old new) (called : old.called? = some c) (debug : c.isOf "$debug") :
    new = .call (c.withText debugCallee text c.typeArgs) := by
  induction rule with
  | print other | warn other =>
    cases called
    exact absurd (Call.isOf_unique other debug) (by decide)
  | debug =>
    cases called
    rfl
  | chain _ ih => exact ih called
  | string | emptyTemplate | plainTemplate | template | headlessTemplate | ident => contradiction

theorem Host.exists_process {host : Host} {program : Node} {passed : Report}
    (run : (host.stamper (Config.load host.config).1).run false program = .ok passed) :
    ∃ report, host.process program = .ok report ∧ report.program = passed.program :=
  ⟨_, bind_eq_ok_iff.2 ⟨passed, run, rfl⟩, rfl⟩

namespace Config

theorem Loaded.debugCallee_cases {text : List Char} {outcome : Config × List Event}
    (loaded : Loaded text outcome) : outcome.1.debugCallee = defaultDebugCallee ∨
      ∃ config, Spelled text config ∧ config.debugCallee = outcome.1.debugCallee := by
  cases loaded with
  | blank | unreadable | badCallee => exact .inl rfl
  | read spelled => exact .inr ⟨_, spelled, rfl⟩

/-- The callee fits the pattern, and it can be called by its name and is not stamped again unless the text
itself gives a name that cannot or is. Every `$debug` call that is stamped becomes a call of it, with the
label in front of all that the call was given before. -/
theorem load_debugCallee_usable (raw : Option String) :
    MatchesPattern (load raw).1.debugCallee ∧
      ((∀ config, Spelled (Text.trim (raw.getD "").toList) config →
          config.debugCallee ∉ reservedWords ∧ config.debugCallee ∉ intrinsicNames) →
        IsReference (load raw).1.debugCallee ∧ (load raw).1.debugCallee ∉ intrinsicNames) ∧
      ∀ (host : Host) (program : Node), host.config = raw →
        (∀ sourceMap ∈ host.sourceMap, sourceMap.AnswersAbout program) →
        ∃ report, host.process program = .ok report ∧
          ∀ address old c, program.OutermostTarget address old → old.called? = some c →
            c.isOf "$debug" → ∃ label call,
              (host.stamper (load raw).1).textOf old = .ok label ∧
              report.program.at? address = some (.call call) ∧
              call.isOf (load raw).1.debugCallee ∧
              call.args = ⟨none, .string ⟨.dummy, label, none⟩⟩ :: c.args ∧
              ((load raw).1.debugCallee ∉ intrinsicNames → (Node.call call).isTarget = false) := by
  have loaded := loaded_load raw
  refine ⟨loaded.matchesPattern, fun clean => ?_, ?_⟩
  · have apart : (load raw).1.debugCallee ∉ reservedWords ∧ (load raw).1.debugCallee ∉ intrinsicNames := by
      rcases loaded.debugCallee_cases with same | ⟨config, spelled, same⟩
      · rw [same]
        decide
      · rw [← same]
        exact clean config spelled
    exact ⟨⟨loaded.matchesPattern, apart.1⟩, apart.2⟩
  · rintro host program rfl answers
    let stamper : Stamper := host.stamper (load host.config).1
    have answersPass : stamper.AnswersPass program := Stamper.answersPass_of_answersAbout answers
    obtain ⟨_, _, -, run⟩ := Stamper.exists_run_of_answersPass answersPass false
    obtain ⟨report, result, same⟩ := Host.exists_process run
    refine ⟨report, result, fun address old c outermost called debug => ?_⟩
    obtain ⟨new, ⟨label, known, rule⟩, found⟩ := Stamper.run_at?_of_outermostTarget run outermost
    cases rule.eq_withText called debug
    rw [← same] at found
    have isCall : (c.withText (load host.config).1.debugCallee label c.typeArgs).isOf
        (load host.config).1.debugCallee := decide_eq_true rfl
    exact ⟨label, _, known, found, isCall, rfl, Call.isTarget_eq_false_of_isOf isCall⟩

/-- A name that only begins as one of those that are stamped. -/
theorem load_debugCallee_usable_debugLog :
    let text := "\x7b\"debugCallee\":\"$debugLog\"\x7d"
    let host : Host :=
      ⟨some text, some "/app", some (.ofSources [("/app/a.ts", "\n$debug?.(x, ...y)")])⟩
    let x : Node := .ident ⟨⟨11, 12⟩, 0, "x", false⟩
    let args : List (Argument Node) :=
      [⟨none, x⟩, ⟨some ⟨14, 17⟩, .ident ⟨⟨17, 18⟩, 0, "y", false⟩⟩]
    let shown : Node := .optCall .expression ⟨2, 19⟩ true
      ⟨⟨2, 19⟩, 0, .ident ⟨⟨2, 8⟩, 0, "$debug", false⟩, args, none⟩
    IsReference (load host.config).1.debugCallee ∧
      ∃ report call, host.process (.list [shown]) = .ok report ∧
        report.program.at? [0] = some (.call call) ∧ call.isOf "$debugLog" ∧
        call.args = ⟨none, .string ⟨.dummy, "[a.ts:2:1] x = ", none⟩⟩ :: args ∧
        (Node.call call).isTarget = false := by
  intro text host x args shown
  obtain ⟨-, usable, stamped⟩ := load_debugCallee_usable (some text)
  have called : (load (some text)).1.debugCallee = "$debugLog" := by decide
  have read : read? (some text) = some ⟨none, "$debugLog"⟩ := by decide
  have clean : ∀ config, Spelled (Text.trim text.toList) config →
      config.debugCallee ∉ reservedWords ∧ config.debugCallee ∉ intrinsicNames := by
    intro config spelled
    cases read.symm.trans (read?_eq_some_iff.2 (.inr spelled))
    decide
  have outermost : (Node.list [shown]).OutermostTarget [0] shown :=
    Node.outermost_cons_iff.2 ⟨nofun, shown, rfl, Node.outermost_nil_iff.2 ⟨rfl, rfl⟩⟩
  have answers : ∀ sourceMap ∈ host.sourceMap, sourceMap.AnswersAbout (.list [shown]) := by
    rintro _ ⟨⟩
    refine (Node.forall_outermost_iff_of_not_isTarget rfl).2 (List.forall_mem_singleton.2 ?_)
    refine (Node.forall_outermost_iff_of_isTarget rfl).2 ⟨fun _ => ⟨_, rfl⟩, ?_⟩
    rintro _ ⟨⟩ -
    exact ⟨some "x", by decide +kernel⟩
  have label : (host.stamper (load (some text)).1).textOf shown = .ok "[a.ts:2:1] x = " := by
    decide +kernel
  obtain ⟨reference, other⟩ := usable clean
  obtain ⟨report, result, each⟩ := stamped host (.list [shown]) rfl answers
  obtain ⟨_, call, known, found, isCall, given, again⟩ := each [0] shown _ outermost rfl rfl
  cases label.symm.trans known
  rw [called] at isCall
  exact ⟨reference, report, call, result, found, isCall, given, again other⟩

/-- A word of the language passes for a name, and so does a function that is stamped: a call of it is
stamped once more. -/
theorem exists_debugCallee_unusable :
    ¬ IsReference (load (some "\x7b\"debugCallee\":\"if\"\x7d")).1.debugCallee ∧
      (load (some "\x7b\"debugCallee\":\"$debug\"\x7d")).1.debugCallee ∈ intrinsicNames ∧
      ∃ report, (Host.mk (some "\x7b\"debugCallee\":\"$debug\"\x7d") none none).process
          (.call ⟨.dummy, 0, .ident ⟨.dummy, 0, "$debug", false⟩,
            [⟨none, .ident ⟨.dummy, 0, "x", false⟩⟩], none⟩) = .ok report ∧ report.program.isTarget := by
  refine ⟨?_, by decide, _, rfl, by decide⟩
  rintro ⟨-, allowed⟩
  exact allowed (by decide)

end Config

end SourceStamp
