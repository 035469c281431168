import SourceStamp.Proofs.Path.Walk

/-! Paths on drives. A drive is a root of its own, and the case of its letter makes no difference to
which one it is. A path on another drive than its base stays as it is, and between two paths whose
drive is spelled alike the drive does not show. A base without a drive has no such effect, and two
spellings of one drive are still two segments.
-/

set_option autoImplicit false

namespace SourceStamp.Path

theorem hasDrive_iff {path : List Char} :
    hasDrive path ↔ ∃ letter rest, path = letter :: ':' :: rest ∧ letter.isAlpha := by
  constructor
  · intro drive
    unfold hasDrive at drive
    split at drive
    · exact ⟨_, _, rfl, drive⟩
    · contradiction
  · rintro ⟨letter, rest, rfl, alpha⟩
    exact alpha

-- A letter stays a letter, and all else stays what it is.
theorem toLower_cases (c : Char) :
    c.isAlpha ∧ c.toLower.isAlpha ∨ c.isAlpha = false ∧ c.toLower = c := by
  by_cases range : 'A'.val ≤ c.val ∧ c.val ≤ 'Z'.val
  · have upper : c.isUpper := decide_eq_true range
    have moved : c.toLower.val = c.val + 32 := by
      unfold Char.toLower
      rw [dif_pos range]
      rfl
    have lower : 'a'.val ≤ c.toLower.val ∧ c.toLower.val ≤ 'z'.val := by
      have bounds : 65 ≤ c.val.toNat ∧ c.val.toNat ≤ 90 := range
      rw [moved, UInt32.le_iff_toNat_le, UInt32.le_iff_toNat_le, UInt32.toNat_add]
      show 97 ≤ (c.val.toNat + 32) % 4294967296 ∧ (c.val.toNat + 32) % 4294967296 ≤ 122
      omega
    refine .inl ⟨Bool.or_eq_true_iff.2 (.inl upper), Bool.or_eq_true_iff.2 (.inr ?_)⟩
    exact Bool.and_eq_true_iff.2 ⟨decide_eq_true lower.1, decide_eq_true lower.2⟩
  · have same : c.toLower = c := dif_neg range
    rw [same]
    cases c.isAlpha with
    | true => exact .inl ⟨rfl, rfl⟩
    | false => exact .inr ⟨rfl, rfl⟩

theorem toLower_eq_colon_iff {c : Char} : c.toLower = ':' ↔ c = ':' := by
  rcases toLower_cases c with ⟨alpha, alpha'⟩ | ⟨-, same⟩
  · constructor
    · intro colon
      rw [colon] at alpha'
      contradiction
    · rintro rfl
      contradiction
  · rw [same]

theorem isAlpha_toLower (c : Char) : c.toLower.isAlpha = c.isAlpha := by
  rcases toLower_cases c with ⟨alpha, alpha'⟩ | ⟨-, same⟩
  · rw [alpha, alpha']
  · rw [same]

theorem hasDrive_map_toLower (path : List Char) : hasDrive (path.map Char.toLower) = hasDrive path := by
  match path with
  | [] | [_] => rfl
  | c :: d :: path =>
    rw [Bool.eq_iff_iff, hasDrive_iff, hasDrive_iff]
    simp only [List.map_cons, List.cons.injEq, toLower_eq_colon_iff, exists_and_right, ↓existsAndEq,
      and_true, true_and, isAlpha_toLower]

/-- The drive at the start of a path, by its letter in lower case. -/
def drive? (path : List Char) : Option Char :=
  if hasDrive path then path.head?.map Char.toLower else none

theorem drive?_eq_of_sameIgnoringCase {path other : List Char} (same : sameIgnoringCase path other) :
    drive? path = drive? other := by
  have lower : path.map Char.toLower = other.map Char.toLower := by
    simpa [sameIgnoringCase] using same
  simp only [drive?, ← List.head?_map, ← hasDrive_map_toLower path, ← hasDrive_map_toLower other, lower]

theorem exists_segments_of_hasDrive {path : List Char} (drive : hasDrive path) :
    ∃ first rest, segments path = first :: rest ∧ hasDrive first ∧ drive? first = drive? path := by
  obtain ⟨letter, path, rfl, alpha⟩ := hasDrive_iff.1 drive
  have letter_ : letter ≠ '/' := by
    rintro rfl
    contradiction
  have some_ : splitSlash path ≠ [] := by
    rw [splitSlash_eq_splitOn]
    exact List.splitOn_ne_nil '/' path
  obtain ⟨part, parts, same⟩ := List.exists_cons_of_ne_nil some_
  have split_ : splitSlash (letter :: ':' :: path) = (letter :: ':' :: part) :: parts := by
    rw [splitSlash, splitSlash, if_neg letter_, if_neg (by decide), same]
  refine ⟨_, _, (congrArg (List.filter _) split_).trans (List.filter_cons_of_pos ?_), alpha, ?_⟩
  · simp
  · simp [drive?, hasDrive, alpha]

def driveOf (name : String) : Option Char := drive? (normalizeChars name.toList)

theorem hasDrive_of_driveOf {name : String} {letter : Char} (known : driveOf name = some letter) :
    hasDrive (normalizeChars name.toList) := by
  unfold driveOf drive? at known
  split at known
  · assumption
  · contradiction

section

variable {base path : String}

theorem onOtherDrive_of_driveOf_ne {letter : Char} (known : driveOf base = some letter)
    (apart : driveOf path ≠ driveOf base)
    (plain : driveOf path = none →
      ∀ first, (segmentsOf path).head? = some first → hasDrive first = false) :
    onOtherDrive (segmentsOf base) (segmentsOf path) := by
  obtain ⟨first, rest, same, drive, place⟩ := exists_segments_of_hasDrive (hasDrive_of_driveOf known)
  have shown : drive? ((segmentsOf path).headD []) = driveOf path := by
    cases known' : driveOf path with
    | none =>
      cases found : segmentsOf path with
      | nil => rfl
      | cons first rest =>
        have other := plain known' first (by rw [found]; rfl)
        simp [drive?, other]
    | some letter =>
      obtain ⟨first, rest, same, -, place⟩ :=
        exists_segments_of_hasDrive (hasDrive_of_driveOf known')
      rw [segmentsOf, same, List.headD_cons, place]
      exact known'
  have different : sameIgnoringCase first ((segmentsOf path).headD []) = false := by
    rw [← Bool.not_eq_true]
    intro alike
    exact apart (shown.symm.trans ((drive?_eq_of_sameIgnoringCase alike).symm.trans place))
  rw [segmentsOf, same, onOtherDrive, drive, different]
  rfl

variable {letter : Char} {below below' : List Char} (alpha : letter.isAlpha)
include alpha

theorem segments_of_drive : segments (letter :: ':' :: '/' :: below) = [letter, ':'] :: segments below := by
  have named : IsSegment [letter, ':'] := by
    refine ⟨by simp, by simp, ?_⟩
    simp only [List.mem_cons, List.not_mem_nil, or_false, not_or]
    refine ⟨?_, by decide⟩
    rintro rfl
    contradiction
  have split_ := segments_append_slash [letter, ':'] below
  rwa [segments_of_isSegment named] at split_

/-- From a base on a drive to a path on the same one, the drive is left out. -/
theorem relative_of_same_drive
    (base_eq : normalizeChars base.toList = letter :: ':' :: '/' :: below)
    (path_eq : normalizeChars path.toList = letter :: ':' :: '/' :: below') :
    relative (some base) path = String.ofList (join (ascend (segments below) (segments below'))) := by
  have near : onOtherDrive (segmentsOf base) (segmentsOf path) = false := by
    apply onOtherDrive_eq_false
    rintro drive found -
    rw [segmentsOf, base_eq, segments_of_drive alpha] at found
    rw [segmentsOf, path_eq, segments_of_drive alpha]
    exact found
  have rooted : IsAbsolute base := by
    simp [IsAbsolute, isAbsolute, base_eq, hasDrive, alpha]
  have rooted' : IsAbsolute path := by
    simp [IsAbsolute, isAbsolute, path_eq, hasDrive, alpha]
  rw [relative_of_not_onOtherDrive rooted rooted' near, segmentsOf, segmentsOf, base_eq, path_eq,
    segments_of_drive alpha, segments_of_drive alpha]
  simp [ascend, commonLength]

end

/-- A path on another drive than its base stays as it is, and so does one without a drive. If both
are on one drive, spelled alike, the relative path is relative and leads below the drive from the base
to the path, whichever drive it is. -/
theorem relative_on_drive {base path : String} (rooted : IsAbsolute base) (rooted' : IsAbsolute path) :
    ((driveOf base).isSome → driveOf path ≠ driveOf base →
        (driveOf path = none →
          ∀ first, (segmentsOf path).head? = some first → hasDrive first = false) →
        relative (some base) path = normalize path) ∧
      ∀ letter below below', letter.isAlpha →
        normalizeChars base.toList = letter :: ':' :: '/' :: below →
        normalizeChars path.toList = letter :: ':' :: '/' :: below' →
        up ∉ segments below → up ∉ segments below' →
        (∀ part ∈ segments below', hasDrive part = false) →
          isAbsolute (relative (some base) path).toList = false ∧
          (∀ part ∈ segments (relative (some base) path).toList, hasDrive part = false) ∧
          walk (segments below) (segments (relative (some base) path).toList) = segments below' ∧
          ∀ other base' path', other.isAlpha →
            normalizeChars base'.toList = other :: ':' :: '/' :: below →
            normalizeChars path'.toList = other :: ':' :: '/' :: below' →
              relative (some base') path' = relative (some base) path := by
  constructor
  · intro known apart plain
    obtain ⟨letter, known⟩ := Option.isSome_iff_exists.1 known
    exact relative_of_onOtherDrive rooted rooted' (onOtherDrive_of_driveOf_ne known apart plain)
  · intro letter below below' alpha base_eq path_eq names names' noDrive
    have each : ∀ part ∈ ascend (segments below) (segments below'), IsSegment part :=
      forall_mem_ascend isSegment_up fun _ => isSegment_of_mem_segments
    have noDrive' : ∀ part ∈ ascend (segments below) (segments below'), hasDrive part = false :=
      forall_mem_ascend rfl noDrive
    have result := relative_of_same_drive alpha base_eq path_eq
    rw [result, String.toList_ofList, segments_join each]
    refine ⟨?_, noDrive', ?_, ?_⟩
    · rw [isAbsolute_join each]
      cases found : (ascend (segments below) (segments below')).head? with
      | none => rfl
      | some first => exact noDrive' first (List.mem_of_head? found)
    · obtain ⟨common, left, right, fork⟩ := exists_fork (segments below) (segments below')
      have leads := fork.walk_ascend (fun climbs => names ?_) []
      · rwa [walk_names names, walk_names names'] at leads
      · rw [fork.base_eq]
        exact List.mem_append_right common climbs
    · intro other base' path' alpha' base_eq' path_eq'
      exact relative_of_same_drive alpha' base_eq' path_eq'

/-- One drive, and the same with another letter; and a path on neither drive of its base. -/
theorem relative_on_drive_web :
    let base := "C:\\work\\web"
    let path := "file:///C:/work/./lib//ü.ts"
    isAbsolute (relative (some base) path).toList = false ∧
      walk (segments "work/web".toList) (segments (relative (some base) path).toList) =
        ["work".toList, "lib".toList, "ü.ts".toList] ∧
      relative (some "d:/work\\web") "d:/work/./lib//ü.ts" = relative (some base) path ∧
      relative (some base) "d:\\work\\.\\a.ts" = "d:/work/./a.ts" := by
  intro base path
  obtain ⟨-, below⟩ := @relative_on_drive base path (by decide) (by decide)
  obtain ⟨relative_, -, leads, other⟩ := below 'C' "work/web".toList "work/./lib//ü.ts".toList rfl
    (by decide) (by decide) (by decide) (by decide) (by decide)
  obtain ⟨apart, -⟩ := @relative_on_drive base "d:\\work\\.\\a.ts" (by decide) (by decide)
  refine ⟨relative_, leads, other 'd' _ _ rfl (by decide) (by decide), ?_⟩
  rw [apart (by decide) (by decide) (fun plain => absurd plain (by decide))]
  decide

/-- A base without a drive is left by `..` as if the drive of the path lay next to it, and a drive by
another spelling of its letter as well. -/
theorem not_relative_on_drive :
    (¬ ∀ base path : String, IsAbsolute base → IsAbsolute path → driveOf path ≠ driveOf base →
        relative (some base) path = normalize path) ∧
      ¬ ∀ (base path : String) (letter letter' : Char) (below below' : List Char),
        letter.isAlpha → letter'.isAlpha → letter'.toLower = letter.toLower →
        normalizeChars base.toList = letter :: ':' :: '/' :: below →
        normalizeChars path.toList = letter' :: ':' :: '/' :: below' →
        up ∉ segments below → up ∉ segments below' →
        (∀ part ∈ segments below, hasDrive part = false) →
        (∀ part ∈ segments below', hasDrive part = false) →
          ∀ part ∈ segments (relative (some base) path).toList, hasDrive part = false := by
  constructor
  · intro stays
    have kept := stays "/app" "C:/x.ts" (by decide) (by decide) (by decide)
    exact absurd kept (by decide)
  · intro below
    have noDrive := below "c:/app" "C:/app/a.ts" 'c' 'C' "app".toList "app/a.ts".toList rfl rfl rfl
      (by decide) (by decide) (by decide) (by decide) (by decide) (by decide)
    exact absurd noDrive (by decide)

end SourceStamp.Path
