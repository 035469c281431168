import SourceStamp.Proofs.Path.Spelling

/-! A path that has been made relative is final. It leaves in one of two ways, as an absolute path or as
joined segments, and neither can look like a name that is still to be normalized: there is no backslash,
and no scheme, since a scheme has an empty part between its slashes.
-/

set_option autoImplicit false

namespace SourceStamp.Path

abbrev scheme : List Char := "file://".toList

theorem after?_eq_some_iff {start cs rest : List Char} :
    after? start cs = some rest ↔ cs = start ++ rest := by
  rw [after?, List.isPrefixOf?_eq_some_iff_append_eq, eq_comm]

theorem backslash_notMem_slashed (name : List Char) : '\\' ∉ slashed name := by
  intro found
  obtain ⟨c, -, same⟩ := List.mem_map.1 found
  unfold toSlash at same
  split at same
  · contradiction
  · contradiction

theorem slashed_eq_self {path : List Char} (plain : '\\' ∉ path) : slashed path = path := by
  have same : ∀ c ∈ path, toSlash c = c := by
    intro c member
    apply if_neg
    rintro rfl
    exact plain member
  rw [slashed, List.map_congr_left same, List.map_id']

theorem normalizeChars_suffix_of_scheme {name rest : List Char} (named : slashed name = scheme ++ rest) :
    normalizeChars name <:+ rest := by
  rw [normalizeChars_eq, after?_rooted_scheme, after?_eq_some_iff.2 named, Option.bind_some]
  cases found : after? ['/'] rest with
  | none => exact List.suffix_rfl
  | some behind =>
    rw [after?_eq_some_iff.1 found]
    dsimp only
    split
    · exact List.suffix_cons '/' behind
    · exact List.suffix_rfl

theorem normalizeChars_of_not_scheme {name : List Char} (plain : ¬ scheme <+: slashed name) :
    normalizeChars name = slashed name := by
  have none_ : after? scheme (slashed name) = none := by
    rw [Option.eq_none_iff_forall_ne_some]
    intro rest found
    exact plain ⟨rest, (after?_eq_some_iff.1 found).symm⟩
  rw [normalizeChars_eq, after?_rooted_scheme, none_]
  rfl

theorem normalizeChars_suffix (name : List Char) : normalizeChars name <:+ slashed name := by
  by_cases named : scheme <+: slashed name
  · obtain ⟨rest, same⟩ := named
    rw [← same]
    exact (normalizeChars_suffix_of_scheme same.symm).trans (List.suffix_append scheme rest)
  · exact ⟨[], normalizeChars_of_not_scheme named⟩

theorem backslash_notMem_normalizeChars (name : List Char) : '\\' ∉ normalizeChars name :=
  fun found => backslash_notMem_slashed name ((normalizeChars_suffix name).subset found)

/-- A path without backslashes is normalized exactly if no scheme stands in front. -/
theorem normalizeChars_eq_self_iff {path : List Char} (plain : '\\' ∉ path) :
    normalizeChars path = path ↔ ¬ scheme <+: path := by
  constructor
  · rintro same ⟨rest, rfl⟩
    have shorter := (normalizeChars_suffix_of_scheme (slashed_eq_self plain)).length_le
    rw [same, List.length_append] at shorter
    have : scheme.length = 7 := rfl
    omega
  · intro named
    rw [← slashed_eq_self plain] at named
    rw [normalizeChars_of_not_scheme named, slashed_eq_self plain]

theorem not_scheme_of_isAbsolute {path : List Char} (rooted : isAbsolute path) : ¬ scheme <+: path := by
  rintro ⟨rest, rfl⟩
  contradiction

section

variable {parts : List (List Char)}

theorem splitOn_join (each : ∀ part ∈ parts, IsSegment part) (some_ : parts ≠ []) :
    (join parts).splitOn '/' = parts :=
  List.splitOn_intercalate '/' (fun part member => (each part member).whole) some_

theorem not_scheme_join (each : ∀ part ∈ parts, IsSegment part) : ¬ scheme <+: join parts := by
  rintro ⟨rest, same⟩
  have some_ : parts ≠ [] := by
    rintro rfl
    contradiction
  have hollow : [] ∈ (scheme ++ rest).splitOn '/' := by
    have slashes : scheme ++ rest = "file:".toList ++ '/' :: ([] ++ '/' :: rest) := rfl
    rw [slashes, List.splitOn_append_cons_self, List.splitOn_append_cons_self]
    simp
  rw [same, splitOn_join each some_] at hollow
  exact (each [] hollow).nonempty rfl

theorem forall_mem_join_iff {P : Char → Prop} (slash : P '/') :
    (∀ c ∈ join parts, P c) ↔ ∀ part ∈ parts, ∀ c ∈ part, P c := by
  induction parts with
  | nil => simp [join]
  | cons first rest ih =>
    cases rest with
    | nil => simp [join]
    | cons second rest =>
      rw [join, List.intercalate_cons_cons, List.append_assoc, List.forall_mem_append,
        List.forall_mem_append, List.forall_mem_singleton, List.forall_mem_cons, ← ih]
      simp [slash, join]

end

theorem join_splitSlash (path : List Char) : join (splitSlash path) = path := by
  rw [splitSlash_eq_splitOn]
  exact List.intercalate_splitOn '/'

/-- The segments of a normalized name have no backslash either. -/
theorem backslash_notMem_of_mem_segments {name part : List Char}
    (member : part ∈ segments (normalizeChars name)) : '\\' ∉ part := by
  have plain : ∀ c ∈ join (splitSlash (normalizeChars name)), c ≠ '\\' := by
    rw [join_splitSlash]
    exact List.forall_mem_ne'.2 (backslash_notMem_normalizeChars name)
  have parts := (forall_mem_join_iff (by decide)).1 plain part (List.mem_of_mem_filter member)
  exact List.forall_mem_ne'.1 parts

/-- The two ways out: the normalized path, if it is absolute, or segments. -/
theorem relativeChars_cases (base : Option (List Char)) (path : List Char) :
    relativeChars base path = normalizeChars path ∧ isAbsolute (normalizeChars path) ∨
      ∃ parts, relativeChars base path = join parts ∧ ∀ part ∈ parts, IsSegment part ∧ '\\' ∉ part := by
  have named : ∀ part ∈ segments (normalizeChars path), IsSegment part ∧ '\\' ∉ part :=
    fun part member => ⟨isSegment_of_mem_segments member, backslash_notMem_of_mem_segments member⟩
  unfold relativeChars
  dsimp only
  split
  · exact .inr ⟨_, rfl, named⟩
  · rename_i rooted
    have rooted : isAbsolute (normalizeChars path) := by simpa using rooted
    split
    · exact .inl ⟨rfl, rooted⟩
    · split
      · exact .inl ⟨rfl, rooted⟩
      · split
        · exact .inl ⟨rfl, rooted⟩
        · exact .inr ⟨_, rfl, forall_mem_ascend ⟨isSegment_up, by decide⟩ named⟩

section

variable (base : Option (List Char)) (path : List Char)

theorem backslash_notMem_relativeChars : '\\' ∉ relativeChars base path := by
  obtain ⟨same, -⟩ | ⟨parts, same, named⟩ := relativeChars_cases base path
  · rw [same]
    exact backslash_notMem_normalizeChars path
  · rw [same, ← List.forall_mem_ne', forall_mem_join_iff (by decide)]
    exact fun part member => List.forall_mem_ne'.2 (named part member).2

theorem normalizeChars_relativeChars :
    normalizeChars (relativeChars base path) = relativeChars base path := by
  rw [normalizeChars_eq_self_iff (backslash_notMem_relativeChars base path)]
  obtain ⟨same, rooted⟩ | ⟨parts, same, named⟩ := relativeChars_cases base path
  · rw [same]
    exact not_scheme_of_isAbsolute rooted
  · rw [same]
    exact not_scheme_join fun part member => (named part member).1

variable {base path}

theorem relativeChars_of_not_isAbsolute (other : isAbsolute (normalizeChars path) = false) :
    relativeChars base path = join (segments (normalizeChars path)) := by
  rw [relativeChars, other]
  rfl

theorem relativeChars_none_of_isAbsolute (rooted : isAbsolute (normalizeChars path)) :
    relativeChars none path = normalizeChars path := by
  rw [relativeChars, rooted]
  rfl

theorem exists_join_of_not_isAbsolute (other : isAbsolute (relativeChars base path) = false) :
    ∃ parts, relativeChars base path = join parts ∧ ∀ part ∈ parts, IsSegment part := by
  obtain ⟨same, rooted⟩ | ⟨parts, same, named⟩ := relativeChars_cases base path
  · rw [same, rooted] at other
    contradiction
  · exact ⟨parts, same, fun part member => (named part member).1⟩

/-- Made relative again, to whatever base, a relative path stays. -/
theorem relativeChars_relativeChars (other : isAbsolute (relativeChars base path) = false)
    (base' : Option (List Char)) :
    relativeChars base' (relativeChars base path) = relativeChars base path := by
  obtain ⟨parts, same, named⟩ := exists_join_of_not_isAbsolute other
  have settled := normalizeChars_relativeChars base path
  rw [relativeChars_of_not_isAbsolute (settled.symm ▸ other), settled, same, segments_join named]

end

/-- What comes of making a path relative is final. It has no backslash. A relative result is empty, or
all of its parts name something, and it stays as it is when it is made relative again, to any base or
none. Without a base the same is true of every result, although normalizing a second time takes away a
second scheme. -/
theorem relative_final (base : Option String) (path : String) :
    '\\' ∉ (relative base path).toList ∧
      (isAbsolute (relative base path).toList = false →
        (relative base path = "" ∨
          ∀ part ∈ (relative base path).toList.splitOn '/', part ≠ [] ∧ part ≠ ['.']) ∧
        ∀ base', relative base' (relative base path) = relative base path) ∧
      relative none (relative none path) = relative none path ∧
      (normalize (normalize path) = normalize path ↔ ¬ scheme <+: (normalize path).toList) := by
  unfold relative normalize
  simp only [String.toList_ofList, String.ofList_inj, Option.map_none]
  refine ⟨backslash_notMem_relativeChars _ _, fun other => ⟨?_, fun base' => ?_⟩, ?_, ?_⟩
  · obtain ⟨parts, same, named⟩ := exists_join_of_not_isAbsolute other
    rw [same]
    by_cases some_ : parts = []
    · left
      rw [some_]
      rfl
    · right
      rw [splitOn_join named some_]
      exact fun part member => ⟨(named part member).nonempty, (named part member).named⟩
  · exact relativeChars_relativeChars other _
  · cases rooted : isAbsolute (relativeChars none path.toList) with
    | false => exact relativeChars_relativeChars rooted none
    | true =>
      have settled := normalizeChars_relativeChars none path.toList
      rw [relativeChars_none_of_isAbsolute (settled.symm ▸ rooted), settled]
  · exact normalizeChars_eq_self_iff (backslash_notMem_normalizeChars path.toList)

/-- Two schemes: the second one does not survive as such, since its slashes are joined. -/
theorem relative_final_two_schemes :
    let path := "file://file:///x\\.\\ü.ts"
    isAbsolute (relative (some "/repo") path).toList = false ∧
      relative (some "c:\\repo") (relative (some "/repo") path) = "file:/x/ü.ts" ∧
      (∀ part ∈ (relative (some "/repo") path).toList.splitOn '/', part ≠ [] ∧ part ≠ ['.']) ∧
      relative none (relative none path) = "file:/x/ü.ts" ∧
      normalize (normalize path) ≠ normalize path := by
  intro path
  have other : isAbsolute (relative (some "/repo") path).toList = false := by decide
  have result : ∀ base ∈ [some "/repo", none], relative base path = "file:/x/ü.ts" := by decide
  obtain ⟨-, settled, twice, again⟩ := relative_final (some "/repo") path
  obtain ⟨shape, stays⟩ := settled other
  refine ⟨other, ?_, shape.resolve_left (by decide), ?_, mt again.1 (by decide)⟩
  · rw [stays, result _ (by simp)]
  · rw [twice, result _ (by simp)]

end SourceStamp.Path
