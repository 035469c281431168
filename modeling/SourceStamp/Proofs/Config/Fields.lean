import Mathlib.Data.List.Basic
import SourceStamp.Config

/-! What a JSON value says about the configuration, apart from the order in which its members are read.
Each field has one value or none, and all other members may hold anything.
-/

set_option autoImplicit false

namespace SourceStamp.Config

def dirJson : Option String → Json
  | none => .null
  | some dir => .ofText dir

def valuesOf (name : String) (members : List (Option String × Json)) : List Json :=
  members.filterMap fun (key, value) => if key = some name then some value else none

inductive Field {α : Type} (spell : α → Json) (fallback : α) : List Json → α → Prop
  | absent : Field spell fallback [] fallback
  | given (value : α) : Field spell fallback [spell value] value

/-- The configuration that a value describes. The name of a member is never broken, also where it is
not that of a field. -/
inductive Describes : Json → Config → Prop
  | object {members : List (Option String × Json)} {dir : Option String} {callee : String} :
      (∀ member ∈ members, member.1 ≠ none) → Field dirJson none (valuesOf "baseDir" members) dir →
      Field Json.ofText defaultDebugCallee (valuesOf "debugCallee" members) callee →
      Describes (.object members) ⟨dir, callee⟩
  | array {items : List Json} {dir : Option String} {callee : String} :
      Field dirJson none (items.take 1) dir → Field Json.ofText defaultDebugCallee (items.drop 1) callee →
      Describes (.array items) ⟨dir, callee⟩

theorem textOrNull?_eq_some_iff {value : Json} {dir : Option String} :
    textOrNull? value = some dir ↔ value = dirJson dir := by
  constructor
  · intro read
    unfold textOrNull? at read
    split at read
    · cases read
      rfl
    · cases read
      rfl
    · contradiction
  · rintro rfl
    cases dir with
    | none | some => rfl

theorem text?_eq_some_iff {value : Json} {text : String} : value.text? = some text ↔ value = .ofText text := by
  constructor
  · intro read
    cases value with
    | string text' =>
      cases read
      rfl
    | null | bool | number | array | object => contradiction
  · rintro rfl
    rfl

section Fills

variable {α : Type} {spell : α → Json} {before after : Option α} {values : List Json}

inductive Fills (spell : α → Json) : Option α → List Json → Option α → Prop
  | kept (field : Option α) : Fills spell field [] field
  | given (value : α) : Fills spell none [spell value] (some value)

theorem fills_nil : Fills spell before [] after ↔ after = before := by
  constructor
  · rintro ⟨⟩
    rfl
  · rintro rfl
    exact .kept after

theorem fills_cons {value : Json} : Fills spell before (value :: values) after ↔
    before = none ∧ ∃ given, value = spell given ∧ Fills spell (some given) values after := by
  constructor
  · rintro ⟨⟩
    exact ⟨rfl, _, rfl, .kept _⟩
  · rintro ⟨rfl, given, rfl, fills⟩
    cases fills
    exact .given given

theorem field_iff {fallback value : α} : Field spell fallback values value ↔
    ∃ after, Fills spell none values after ∧ after.getD fallback = value := by
  constructor
  · rintro (_ | value)
    · exact ⟨none, .kept none, rfl⟩
    · exact ⟨some value, .given value, rfl⟩
  · rintro ⟨after, fills, rfl⟩
    cases fills
    · exact .absent
    · exact .given _

end Fills

section Members

variable {draft draft' : Draft} {value : Json}

theorem add?_baseDir : draft.add? (some "baseDir", value) = some draft' ↔
    draft.baseDir = none ∧ ∃ dir, value = dirJson dir ∧ draft' = ⟨some dir, draft.debugCallee⟩ := by
  rw [Draft.add?, if_pos rfl]
  cases before : draft.baseDir with
  | none => simp [textOrNull?_eq_some_iff, eq_comm (a := draft')]
  | some => simp

theorem add?_debugCallee : draft.add? (some "debugCallee", value) = some draft' ↔
    draft.debugCallee = none ∧ ∃ callee, value = .ofText callee ∧ draft' = ⟨draft.baseDir, some callee⟩ := by
  rw [Draft.add?, if_neg (by decide), if_pos rfl]
  cases before : draft.debugCallee with
  | none => simp [text?_eq_some_iff, eq_comm (a := draft')]
  | some => simp

theorem add?_other {key : String} (notDir : key ≠ "baseDir") (notCallee : key ≠ "debugCallee") :
    draft.add? (some key, value) = some draft := by
  rw [Draft.add?, if_neg notDir, if_neg notCallee]

theorem valuesOf_cons (name key : String) (value : Json) (members : List (Option String × Json)) :
    valuesOf name ((some key, value) :: members) =
      if key = name then value :: valuesOf name members else valuesOf name members := by
  simp only [valuesOf, List.filterMap_cons, Option.some.injEq]
  split_ifs <;> rfl

theorem foldlM_add?_eq_some_iff {members : List (Option String × Json)} :
    members.foldlM Draft.add? draft = some draft' ↔
      (∀ member ∈ members, member.1 ≠ none) ∧
        Fills dirJson draft.baseDir (valuesOf "baseDir" members) draft'.baseDir ∧
        Fills Json.ofText draft.debugCallee (valuesOf "debugCallee" members) draft'.debugCallee := by
  induction members generalizing draft with
  | nil =>
    have same : draft = draft' ↔ draft'.baseDir = draft.baseDir ∧ draft'.debugCallee = draft.debugCallee := by
      cases draft
      cases draft'
      simp [eq_comm]
    simpa [valuesOf, fills_nil] using same
  | cons member members ih =>
    obtain ⟨key, value⟩ := member
    rw [List.foldlM_cons, Option.bind_eq_bind, Option.bind_eq_some_iff, List.forall_mem_cons]
    cases key with
    | none => simp [Draft.add?]
    | some key =>
      simp only [ih, valuesOf_cons]
      by_cases dir : key = "baseDir"
      · subst dir
        rw [if_pos rfl, if_neg (by decide), fills_cons]
        simp only [add?_baseDir]
        constructor
        · rintro ⟨_, ⟨absent, dir, rfl, rfl⟩, named, dirs, callees⟩
          exact ⟨⟨nofun, named⟩, ⟨absent, dir, rfl, dirs⟩, callees⟩
        · rintro ⟨⟨-, named⟩, ⟨absent, dir, rfl, dirs⟩, callees⟩
          exact ⟨_, ⟨absent, dir, rfl, rfl⟩, named, dirs, callees⟩
      by_cases callee : key = "debugCallee"
      · subst callee
        rw [if_neg (by decide), if_pos rfl, fills_cons]
        simp only [add?_debugCallee]
        constructor
        · rintro ⟨_, ⟨absent, callee, rfl, rfl⟩, named, dirs, callees⟩
          exact ⟨⟨nofun, named⟩, dirs, absent, callee, rfl, callees⟩
        · rintro ⟨⟨-, named⟩, dirs, absent, callee, rfl, callees⟩
          exact ⟨_, ⟨absent, callee, rfl, rfl⟩, named, dirs, callees⟩
      · rw [if_neg dir, if_neg callee]
        simp [add?_other dir callee]

end Members

theorem ofJson?_eq_some_iff {value : Json} {config : Config} :
    ofJson? value = some config ↔ Describes value config := by
  obtain ⟨dir, callee⟩ := config
  cases value with
  | object members =>
    rw [ofJson?, Option.map_eq_some_iff]
    constructor
    · rintro ⟨draft, read, same⟩
      obtain ⟨named, dirs, callees⟩ := foldlM_add?_eq_some_iff.1 read
      obtain ⟨rfl, rfl⟩ := Config.mk.inj same
      exact .object named (field_iff.2 ⟨_, dirs, rfl⟩) (field_iff.2 ⟨_, callees, rfl⟩)
    · rintro ⟨named, dirs, callees⟩
      obtain ⟨dir, fillsDir, rfl⟩ := field_iff.1 dirs
      obtain ⟨callee, fillsCallee, rfl⟩ := field_iff.1 callees
      exact ⟨⟨dir, callee⟩, foldlM_add?_eq_some_iff.2 ⟨named, fillsDir, fillsCallee⟩, rfl⟩
  | array items =>
    constructor
    · intro read
      match items with
      | [] =>
        cases read
        exact .array .absent .absent
      | [value] =>
        obtain ⟨dir, found, same⟩ := Option.map_eq_some_iff.1 read
        cases same
        rw [textOrNull?_eq_some_iff.1 found]
        exact .array (.given dir) .absent
      | [value, value'] =>
        obtain ⟨dir, found, read⟩ := Option.bind_eq_some_iff.1 read
        obtain ⟨callee, found', same⟩ := Option.bind_eq_some_iff.1 read
        cases same
        rw [textOrNull?_eq_some_iff.1 found, text?_eq_some_iff.1 found']
        exact .array (.given dir) (.given callee)
    · rintro (_ | ⟨dirs, callees⟩)
      match items with
      | [] =>
        cases dirs
        cases callees
        rfl
      | [value] =>
        cases dirs
        cases callees
        rw [ofJson?, textOrNull?_eq_some_iff.2 rfl]
        rfl
      | [value, value'] =>
        cases dirs
        cases callees
        rw [ofJson?, textOrNull?_eq_some_iff.2 rfl]
        rfl
      | _ :: _ :: _ :: _ => nomatch callees
  | null => exact ⟨nofun, nofun⟩
  | bool => exact ⟨nofun, nofun⟩
  | number => exact ⟨nofun, nofun⟩
  | string => exact ⟨nofun, nofun⟩

end SourceStamp.Config
