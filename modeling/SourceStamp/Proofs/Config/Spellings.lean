import SourceStamp.Proofs.Config.Loading

/-! The spellings of a configuration. All texts that spell the same fields are loaded alike, with whatever
is written around and between them, and the array of the two values with them.
-/

set_option autoImplicit false

namespace SourceStamp.Config

variable {text : String} {value : Json} {members : List (Option String × Json)} {dir : Option String}
  {callee : String}

theorem spelled_of_spelling {config : Config} (spelled : value.Spelling text.toList)
    (describes : Describes value config) : Spelled (Text.trim ((some text).getD "").toList) config :=
  ⟨value, spelled.trim.2, describes⟩

theorem usableDir_eq (usable : ∀ text ∈ dir, ∃ c ∈ text.toList, Text.isBlank c = false) :
    usableDir dir = dir := by
  cases dir with
  | none => rfl
  | some text =>
    refine Option.filter_eq_some_iff.2 ⟨rfl, ?_⟩
    simpa using usable text rfl

theorem load_of_describes (spelled : value.Spelling text.toList) (describes : Describes value ⟨dir, callee⟩)
    (usable : ∀ text ∈ dir, ∃ c ∈ text.toList, Text.isBlank c = false) (valid : MatchesPattern callee) :
    load (some text) = (⟨dir, callee⟩, []) := by
  rw [load_of_spelled (spelled_of_spelling spelled describes), usableDir_eq usable,
    withValidCallee_of_matches valid]

theorem load_of_not_describes (spelled : value.Spelling text.toList)
    (wrong : ∀ config, ¬ Describes value config) : load (some text) = (defaults, [.invalidConfig]) := by
  obtain ⟨some_, trimmed⟩ := spelled.trim
  refine load_of_unreadable some_ ?_
  rintro config ⟨value', spelled', describes⟩
  cases trimmed.unique spelled'
  exact wrong config describes

/-- A value is given twice, or one is given that is none of the field's. -/
def Misfit {α : Type} (spell : α → Json) (values : List Json) : Prop :=
  2 ≤ values.length ∨ ∃ value ∈ values, ∀ given, value ≠ spell given

theorem Misfit.not_field {α : Type} {spell : α → Json} {values : List Json} (misfit : Misfit spell values)
    (fallback value : α) : ¬ Field spell fallback values value := by
  intro field
  cases field with
  | absent =>
    rcases misfit with long | ⟨_, member, -⟩
    · contradiction
    · contradiction
  | given =>
    rcases misfit with long | ⟨_, member, other⟩
    · exact Nat.not_succ_le_self 1 long
    · exact other value (List.mem_singleton.1 member)

/-- A directory and a callee are loaded from every text that spells them, in an object with any other
members, or in an array. A member that is left out has its default, and one that does not fit makes both
fields the defaults. -/
theorem load_of_spelling (usable : ∀ text ∈ dir, ∃ c ∈ text.toList, Text.isBlank c = false)
    (valid : MatchesPattern callee) :
    (∀ members text, (Json.object members).Spelling text.toList → (∀ member ∈ members, member.1 ≠ none) →
      (valuesOf "baseDir" members = [dirJson dir] → valuesOf "debugCallee" members = [.ofText callee] →
        load (some text) = (⟨dir, callee⟩, [])) ∧
      (valuesOf "baseDir" members = [] → valuesOf "debugCallee" members = [.ofText callee] →
        load (some text) = (⟨none, callee⟩, [])) ∧
      (valuesOf "baseDir" members = [dirJson dir] → valuesOf "debugCallee" members = [] →
        load (some text) = (⟨dir, "debugPrint"⟩, [])) ∧
      (valuesOf "baseDir" members = [] → valuesOf "debugCallee" members = [] →
        load (some text) = (⟨none, "debugPrint"⟩, [])) ∧
      (Misfit dirJson (valuesOf "baseDir" members) ∨ Misfit Json.ofText (valuesOf "debugCallee" members) →
        load (some text) = (⟨none, "debugPrint"⟩, [.invalidConfig]))) ∧
    ∀ text, (Json.array [dirJson dir, .ofText callee]).Spelling text.toList →
      load (some text) = (⟨dir, callee⟩, []) := by
  have noDir : ∀ text ∈ (none : Option String), ∃ c ∈ text.toList, Text.isBlank c = false := nofun
  have default := matchesPattern_defaultDebugCallee
  constructor
  · intro members text spelled named
    have dirField : Field dirJson none [dirJson dir] dir := .given dir
    have calleeField : Field Json.ofText defaultDebugCallee [.ofText callee] callee := .given callee
    refine ⟨fun dirs callees => ?_, fun dirs callees => ?_, fun dirs callees => ?_, fun dirs callees => ?_,
      fun misfit => ?_⟩
    · rw [← dirs] at dirField
      rw [← callees] at calleeField
      exact load_of_describes spelled (.object named dirField calleeField) usable valid
    · rw [← callees] at calleeField
      exact load_of_describes spelled (.object named (dirs ▸ .absent) calleeField) noDir valid
    · rw [← dirs] at dirField
      exact load_of_describes spelled (.object named dirField (callees ▸ .absent)) usable default
    · exact load_of_describes spelled (.object named (dirs ▸ .absent) (callees ▸ .absent)) noDir default
    · refine load_of_not_describes spelled ?_
      rintro _ ⟨-, dirs, callees⟩
      rcases misfit with misfit | misfit
      · exact misfit.not_field _ _ dirs
      · exact misfit.not_field _ _ callees
  · intro text spelled
    exact load_of_describes spelled (.array (.given dir) (.given callee)) usable valid

set_option maxRecDepth 2000 in
/-- Escaped names and pieces of a pair, between values that hold halves of pairs, a name of a field and a
number out of all bounds. -/
theorem load_of_spelling_escaped :
    let members : List (Option String × Json) :=
      [(some "x", .array [.object [(none, .string none), (some "baseDir", .number "-1e999")], .null]),
        (some "debugCallee", .ofText "$log"), (some "", .bool true), (some "baseDir", .ofText "/😀")]
    let text := "\t\x7b \"x\" :[\x7b\"\\ud83d\":\"\\ude00\\ud83d\", \"baseDir\" : -1e999\x7d,null], " ++
      "\"\\u0064ebug\\u0043allee\":\"$log\" ,\n\"\":true,\"baseDir\":\"\\/\\ud83D\\uDe00\"\x7d\r\n"
    (Json.object members).Spelling text.toList ∧ valuesOf "baseDir" members = [dirJson (some "/😀")] ∧
      valuesOf "debugCallee" members = [.ofText "$log"] ∧
      load (some text) = (⟨some "/😀", "$log"⟩, []) := by
  intro members text
  have read : Json.read? text = some (.object members) := by
    unfold members text
    rfl
  have spelled := Json.read?_eq_some_iff.1 read
  have usable : ∀ text ∈ some "/😀", ∃ c ∈ text.toList, Text.isBlank c = false :=
    fun text member => Option.some.inj member ▸ ⟨'/', by decide, by decide⟩
  have valid : MatchesPattern "$log" := isIdentifier_iff.1 (by decide)
  have named : ∀ member ∈ members, member.1 ≠ none := by simp [members]
  have loaded := (load_of_spelling usable valid).1 members text spelled named
  exact ⟨spelled, rfl, rfl, loaded.1 rfl rfl⟩

end SourceStamp.Config
