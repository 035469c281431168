import SourceStamp.Proofs.Config.Fields
import SourceStamp.Proofs.Json.Margins
import SourceStamp.Proofs.Json.Nesting

/-! Loading a configuration. What a text says is settled by the grammar of JSON and by the fields that its
value describes, whatever the reader does on the way. A text that says nothing is replaced as a whole, a
callee that is no identifier alone.
-/

set_option autoImplicit false

namespace SourceStamp.Config

def IsPatternStart (c : Char) : Prop := 'A' ≤ c ∧ c ≤ 'Z' ∨ 'a' ≤ c ∧ c ≤ 'z' ∨ c = '_' ∨ c = '$'

/-- The pattern of identifiers, to the very end of the text. -/
def MatchesPattern (text : String) : Prop :=
  ∃ first rest, text.toList = first :: rest ∧ IsPatternStart first ∧
    ∀ c ∈ rest, IsPatternStart c ∨ '0' ≤ c ∧ c ≤ '9'

def Spelled (text : List Char) (config : Config) : Prop :=
  ∃ value : Json, value.Spelling text ∧ Describes value config

def usableDir (dir : Option String) : Option String :=
  dir.filter fun text => text.toList.any fun c => !Text.isBlank c

theorem isAlpha_iff {c : Char} : c.isAlpha ↔ 'A' ≤ c ∧ c ≤ 'Z' ∨ 'a' ≤ c ∧ c ≤ 'z' := by
  have upper : c.isUpper ↔ 'A' ≤ c ∧ c ≤ 'Z' := decide_eq_true_iff
  have lower : c.isLower ↔ 'a' ≤ c ∧ c ≤ 'z' :=
    Bool.and_eq_true_iff.trans (and_congr decide_eq_true_iff decide_eq_true_iff)
  exact Bool.or_eq_true_iff.trans (or_congr upper lower)

theorem isIdentifierStart_iff {c : Char} : isIdentifierStart c ↔ IsPatternStart c := by
  simp only [isIdentifierStart, Bool.or_eq_true, decide_eq_true_eq, isAlpha_iff, or_assoc]
  exact Iff.rfl

theorem isDigit_iff {c : Char} : c.isDigit ↔ '0' ≤ c ∧ c ≤ '9' := Char.isDigit_iff_toNat

theorem isIdentifier_iff {text : String} : isIdentifier text.toList ↔ MatchesPattern text := by
  unfold MatchesPattern
  cases text.toList with
  | nil => simp [isIdentifier]
  | cons first rest => simp [isIdentifier, isIdentifierStart_iff, isDigit_iff]

theorem spelled_ne_nil {text : List Char} {config : Config} (spelled : Spelled text config) : text ≠ [] := by
  obtain ⟨value, spelled, -⟩ := spelled
  rintro rfl
  exact spelled.trim.1 rfl

theorem read?_eq_some_iff {raw : Option String} {config : Config} : read? raw = some config ↔
    Text.trim (raw.getD "").toList = [] ∧ config = defaults ∨
      Spelled (Text.trim (raw.getD "").toList) config := by
  generalize same : Text.trim (raw.getD "").toList = core
  have opened : read? raw = if core.isEmpty then some defaults
      else Json.read? (String.ofList core) >>= ofJson? := by rw [read?, same]
  rw [opened]
  cases core with
  | nil =>
    have none_ : ¬ Spelled [] config := fun spelled => spelled_ne_nil spelled rfl
    simp [none_, eq_comm]
  | cons c core =>
    simp [Option.bind_eq_some_iff, Json.read?_eq_some_iff, ofJson?_eq_some_iff, Spelled]

theorem spelled_unique {text : List Char} {config config' : Config} (spelled : Spelled text config)
    (spelled' : Spelled text config') : config = config' := by
  obtain ⟨value, spelling, describes⟩ := spelled
  obtain ⟨value', spelling', describes'⟩ := spelled'
  cases spelling.unique spelling'
  exact Option.some.inj ((ofJson?_eq_some_iff.2 describes).symm.trans (ofJson?_eq_some_iff.2 describes'))

section Load

variable {raw : Option String} {dir : Option String} {callee : String}

theorem load_of_blank (blank : Text.trim (raw.getD "").toList = []) : load raw = (defaults, []) := by
  rw [load, read?_eq_some_iff.2 (.inl ⟨blank, rfl⟩)]
  rfl

theorem load_of_unreadable (some_ : Text.trim (raw.getD "").toList ≠ [])
    (unreadable : ∀ config, ¬ Spelled (Text.trim (raw.getD "").toList) config) :
    load raw = (defaults, [.invalidConfig]) := by
  have none_ : read? raw = none := by
    refine Option.eq_none_iff_forall_ne_some.2 fun config read => ?_
    rcases read?_eq_some_iff.1 read with ⟨blank, -⟩ | spelled
    · exact some_ blank
    · exact unreadable config spelled
  rw [load, none_]

theorem load_of_spelled (spelled : Spelled (Text.trim (raw.getD "").toList) ⟨dir, callee⟩) :
    load raw = withValidCallee ⟨usableDir dir, callee⟩ := by
  have usable : withoutBlankDir ⟨dir, callee⟩ = ⟨usableDir dir, callee⟩ := by
    have same (text : String) : (!isBlankText text) = text.toList.any fun c => !Text.isBlank c :=
      List.not_all_eq_any_not
    simp only [withoutBlankDir, usableDir, same]
  rw [load, read?_eq_some_iff.2 (.inr spelled), ← usable]

theorem withValidCallee_of_matches (valid : MatchesPattern callee) :
    withValidCallee ⟨dir, callee⟩ = (⟨dir, callee⟩, []) :=
  if_pos (isIdentifier_iff.2 valid)

theorem withValidCallee_of_not_matches (invalid : ¬ MatchesPattern callee) :
    withValidCallee ⟨dir, callee⟩ = (⟨dir, defaultDebugCallee⟩, [.invalidDebugCallee callee]) :=
  if_neg fun valid => invalid (isIdentifier_iff.1 valid)

end Load

inductive Loaded (text : List Char) : Config × List Event → Prop
  | blank : text = [] → Loaded text (defaults, [])
  | unreadable : text ≠ [] → (∀ config, ¬ Spelled text config) → Loaded text (defaults, [.invalidConfig])
  | badCallee {dir : Option String} {callee : String} : Spelled text ⟨dir, callee⟩ →
      ¬ MatchesPattern callee →
      Loaded text (⟨usableDir dir, defaultDebugCallee⟩, [.invalidDebugCallee callee])
  | read {dir : Option String} {callee : String} : Spelled text ⟨dir, callee⟩ → MatchesPattern callee →
      Loaded text (⟨usableDir dir, callee⟩, [])

theorem loaded_load (raw : Option String) : Loaded (Text.trim (raw.getD "").toList) (load raw) := by
  by_cases blank : Text.trim (raw.getD "").toList = []
  · rw [load_of_blank blank]
    exact .blank blank
  by_cases readable : ∃ config, Spelled (Text.trim (raw.getD "").toList) config
  · obtain ⟨⟨dir, callee⟩, spelled⟩ := readable
    rw [load_of_spelled spelled]
    by_cases valid : MatchesPattern callee
    · rw [withValidCallee_of_matches valid]
      exact .read spelled valid
    · rw [withValidCallee_of_not_matches valid]
      exact .badCallee spelled valid
  · rw [load_of_unreadable blank (not_exists.1 readable)]
    exact .unreadable blank (not_exists.1 readable)

theorem matchesPattern_defaultDebugCallee : MatchesPattern defaultDebugCallee :=
  isIdentifier_iff.1 (by decide)

theorem exists_not_isBlank_of_mem_usableDir {dir : Option String} {text : String}
    (member : text ∈ usableDir dir) : ∃ c ∈ text.toList, Text.isBlank c = false := by
  obtain ⟨-, usable⟩ := Option.mem_filter_iff.1 member
  simpa using usable

namespace Loaded

variable {text : List Char} {outcome : Config × List Event}

theorem matchesPattern (loaded : Loaded text outcome) : MatchesPattern outcome.1.debugCallee := by
  cases loaded with
  | blank | unreadable | badCallee => exact matchesPattern_defaultDebugCallee
  | read _ valid => exact valid

theorem exists_not_isBlank (loaded : Loaded text outcome) :
    ∀ dir ∈ outcome.1.baseDir, ∃ c ∈ dir.toList, Text.isBlank c = false := by
  cases loaded with
  | blank | unreadable => exact nofun
  | badCallee | read => exact fun dir member => exists_not_isBlank_of_mem_usableDir member

theorem length_events_le (loaded : Loaded text outcome) : outcome.2.length ≤ 1 := by
  cases loaded with
  | blank | read => exact Nat.zero_le 1
  | unreadable | badCallee => exact Nat.le_refl 1

theorem invalidConfig_mem_iff (loaded : Loaded text outcome) :
    .invalidConfig ∈ outcome.2 ↔ text ≠ [] ∧ ∀ config, ¬ Spelled text config := by
  cases loaded with
  | blank none_ => exact ⟨nofun, fun unreadable => absurd none_ unreadable.1⟩
  | unreadable some_ unreadable => exact ⟨fun _ => ⟨some_, unreadable⟩, fun _ => .head _⟩
  | badCallee spelled =>
    exact ⟨fun member => by simp at member, fun unreadable => absurd spelled (unreadable.2 _)⟩
  | read spelled => exact ⟨nofun, fun unreadable => absurd spelled (unreadable.2 _)⟩

theorem eq_defaults (loaded : Loaded text outcome) (unreadable : .invalidConfig ∈ outcome.2) :
    outcome.1 = defaults := by
  cases loaded with
  | blank | unreadable => rfl
  | badCallee => simp at unreadable
  | read => contradiction

theorem invalidDebugCallee_mem_iff (loaded : Loaded text outcome) (callee : String) :
    .invalidDebugCallee callee ∈ outcome.2 ↔
      ∃ dir, Spelled text ⟨dir, callee⟩ ∧ ¬ MatchesPattern callee := by
  cases loaded with
  | blank none_ => exact ⟨nofun, fun ⟨_, spelled, _⟩ => absurd none_ (spelled_ne_nil spelled)⟩
  | unreadable _ unreadable =>
    exact ⟨fun member => by simp at member, fun ⟨_, spelled, _⟩ => absurd spelled (unreadable _)⟩
  | @badCallee dir bad spelled invalid =>
    constructor
    · intro member
      cases List.mem_singleton.1 member
      exact ⟨dir, spelled, invalid⟩
    · rintro ⟨_, spelled', -⟩
      cases spelled_unique spelled spelled'
      exact .head _
  | read spelled valid =>
    refine ⟨nofun, fun ⟨_, spelled', invalid⟩ => ?_⟩
    cases spelled_unique spelled spelled'
    contradiction

end Loaded

theorem load_append {before after : String} (blank : ∀ c ∈ before.toList, Text.isBlank c)
    (blank' : ∀ c ∈ after.toList, Text.isBlank c) (raw : Option String) :
    load (some (before ++ raw.getD "" ++ after)) = load raw := by
  have same : Text.trim (before ++ raw.getD "" ++ after).toList = Text.trim (raw.getD "").toList := by
    rw [String.toList_append, String.toList_append, Text.trim_append blank blank']
  have read : read? (some (before ++ raw.getD "" ++ after)) = read? raw := by
    rw [read?, read?, Option.getD_some, same]
  rw [load, load, read]

/-- A text is loaded as it stands, or replaced as a whole, or but for the callee, and each replacement is
reported once. White space around the text and a directory of white space count for nothing. -/
theorem load_reports (raw : Option String) :
    MatchesPattern (load raw).1.debugCallee ∧
      (∀ dir ∈ (load raw).1.baseDir, ∃ c ∈ dir.toList, Text.isBlank c = false) ∧
      (load raw).2.length ≤ 1 ∧
      (.invalidConfig ∈ (load raw).2 ↔ Text.trim (raw.getD "").toList ≠ [] ∧
        ∀ config, ¬ Spelled (Text.trim (raw.getD "").toList) config) ∧
      (.invalidConfig ∈ (load raw).2 → (load raw).1 = ⟨none, "debugPrint"⟩) ∧
      (∀ callee, .invalidDebugCallee callee ∈ (load raw).2 ↔
        ∃ dir, Spelled (Text.trim (raw.getD "").toList) ⟨dir, callee⟩ ∧ ¬ MatchesPattern callee) ∧
      (∀ dir callee, Spelled (Text.trim (raw.getD "").toList) ⟨dir, callee⟩ →
        (load raw).1.baseDir = usableDir dir ∧
          (MatchesPattern callee → (load raw).1.debugCallee = callee ∧ (load raw).2 = []) ∧
          (¬ MatchesPattern callee → (load raw).1.debugCallee = "debugPrint")) ∧
      (Text.trim (raw.getD "").toList = [] → load raw = (⟨none, "debugPrint"⟩, [])) ∧
      ∀ before after : String, (∀ c ∈ before.toList, Text.isBlank c) →
        (∀ c ∈ after.toList, Text.isBlank c) → load (some (before ++ raw.getD "" ++ after)) = load raw := by
  have loaded := loaded_load raw
  refine ⟨loaded.matchesPattern, loaded.exists_not_isBlank, loaded.length_events_le,
    loaded.invalidConfig_mem_iff, loaded.eq_defaults, loaded.invalidDebugCallee_mem_iff, ?_, load_of_blank,
    fun before after blank blank' => load_append blank blank' raw⟩
  intro dir callee spelled
  rw [load_of_spelled spelled]
  refine ⟨?_, fun valid => ?_, fun invalid => ?_⟩
  · by_cases valid : MatchesPattern callee
    · rw [withValidCallee_of_matches valid]
    · rw [withValidCallee_of_not_matches valid]
  · rw [withValidCallee_of_matches valid]
    exact ⟨rfl, rfl⟩
  · rw [withValidCallee_of_not_matches invalid]
    rfl

/-- The directory stays where the callee is replaced, with white space of several kinds around the text. -/
theorem load_reports_bad_callee :
    (∃ dir, Spelled (Text.trim "\u3000[\"/repo\", \"debug-print\"]\n".toList) ⟨dir, "debug-print"⟩) ∧
      (∀ c ∈ "\u2028".toList, Text.isBlank c) ∧
      load (some ("\u2028" ++ "\u3000[\"/repo\", \"debug-print\"]\n" ++ "")) =
        (⟨some "/repo", "debugPrint"⟩, [.invalidDebugCallee "debug-print"]) := by
  obtain ⟨-, -, -, -, -, bad, -, -, around⟩ := load_reports (some "\u3000[\"/repo\", \"debug-print\"]\n")
  have logged := (bad "debug-print").1 (by decide)
  obtain ⟨dir, spelled, -⟩ := logged
  have blank : ∀ c ∈ "\u2028".toList, Text.isBlank c := List.all_eq_true.1 (by decide)
  refine ⟨⟨dir, spelled⟩, blank, (around "\u2028" "" blank nofun).trans ?_⟩
  decide

end SourceStamp.Config
