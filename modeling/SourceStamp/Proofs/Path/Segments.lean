import Mathlib.Data.List.Basic
import SourceStamp.Path

/-! The segments of a path. Joined segments are read back as they are, so the segments of a relative
path are the ones that lead up from the base and then down.
-/

set_option autoImplicit false

namespace SourceStamp.Path

abbrev up : List Char := ['.', '.']

structure IsSegment (part : List Char) : Prop where
  nonempty : part ≠ []
  named : part ≠ ['.']
  whole : '/' ∉ part

theorem isSegment_up : IsSegment up := ⟨by decide, by decide, by decide⟩

theorem splitSlash_eq_splitOn (path : List Char) : splitSlash path = path.splitOn '/' := by
  induction path with
  | nil => rfl
  | cons c path ih =>
    rw [splitSlash, ih, List.splitOn_cons_eq_if_modifyHead]
    by_cases slash : c = '/'
    · simp [slash]
    · obtain ⟨part, parts, same⟩ := List.exists_cons_of_ne_nil (List.splitOn_ne_nil '/' path)
      simp [slash, same]

theorem slash_notMem_of_mem_splitSlash {path part : List Char} (member : part ∈ splitSlash path) :
    '/' ∉ part := by
  induction path generalizing part with
  | nil =>
    cases List.mem_singleton.1 member
    exact List.not_mem_nil
  | cons c path ih =>
    by_cases slash : c = '/'
    · rw [splitSlash, if_pos slash] at member
      rcases List.mem_cons.1 member with rfl | member
      · exact List.not_mem_nil
      · exact ih member
    · have some_ : splitSlash path ≠ [] := by
        rw [splitSlash_eq_splitOn]
        exact List.splitOn_ne_nil '/' path
      obtain ⟨first, rest, same⟩ := List.exists_cons_of_ne_nil some_
      rw [splitSlash, if_neg slash, same] at member
      rw [same] at ih
      rcases List.mem_cons.1 member with rfl | member
      · exact List.not_mem_cons_of_ne_of_not_mem (Ne.symm slash) (ih List.mem_cons_self)
      · exact ih (List.mem_cons_of_mem first member)

theorem isSegment_of_mem_segments {path part : List Char} (member : part ∈ segments path) :
    IsSegment part := by
  obtain ⟨among, named⟩ := List.mem_filter.1 member
  simp only [Bool.and_eq_true, Bool.not_eq_true', List.isEmpty_eq_false_iff, bne_iff_ne] at named
  exact ⟨named.1, named.2, slash_notMem_of_mem_splitSlash among⟩

theorem segments_append_slash (front rest : List Char) :
    segments (front ++ '/' :: rest) = segments front ++ segments rest := by
  simp only [segments, splitSlash_eq_splitOn, List.splitOn_append_cons_self, List.filter_append]

theorem segments_of_isSegment {part : List Char} (named : IsSegment part) :
    segments part = [part] := by
  rw [segments, splitSlash_eq_splitOn, List.splitOn_eq_singleton named.whole]
  simp [named.nonempty, named.named]

theorem segments_join {parts : List (List Char)} (each : ∀ part ∈ parts, IsSegment part) :
    segments (join parts) = parts := by
  induction parts with
  | nil => rfl
  | cons first rest ih =>
    have named := each first List.mem_cons_self
    cases rest with
    | nil =>
      rw [join, List.intercalate_singleton]
      exact segments_of_isSegment named
    | cons second rest =>
      rw [join, List.intercalate_cons_cons, List.append_assoc, List.singleton_append,
        segments_append_slash, segments_of_isSegment named]
      exact congrArg (first :: ·) (ih fun part member => each part (List.mem_cons_of_mem first member))

theorem hasDrive_append {part rest : List Char} (nonempty : part ≠ [])
    (ends : ∀ c, rest.head? = some c → c = '/') : hasDrive (part ++ rest) = hasDrive part := by
  match part with
  | [c] =>
    cases rest with
    | nil => rfl
    | cons d rest =>
      cases ends d rfl
      rfl
  | c :: d :: part =>
    by_cases colon : d = ':'
    · subst d
      rfl
    · simp [hasDrive, colon]

theorem join_cons (first : List Char) (rest : List (List Char)) :
    ∃ behind, join (first :: rest) = first ++ behind ∧ ∀ c, behind.head? = some c → c = '/' := by
  cases rest with
  | nil => exact ⟨[], by simp [join], fun c found => by contradiction⟩
  | cons second rest =>
    refine ⟨'/' :: join (second :: rest), ?_, fun c found => (Option.some.inj found).symm⟩
    rw [join, List.intercalate_cons_cons, List.append_assoc]
    rfl

/-- A joined path is absolute only by a drive in its first segment. -/
theorem isAbsolute_join {parts : List (List Char)} (each : ∀ part ∈ parts, IsSegment part) :
    isAbsolute (join parts) = parts.head?.any hasDrive := by
  cases parts with
  | nil => rfl
  | cons first rest =>
    obtain ⟨nonempty, -, whole⟩ := each first List.mem_cons_self
    obtain ⟨behind, same, ends⟩ := join_cons first rest
    rw [isAbsolute, same, hasDrive_append nonempty ends]
    cases first with
    | nil => contradiction
    | cons c first =>
      have name : c ≠ '/' := fun slash => whole (slash ▸ List.mem_cons_self)
      simp [name]

section

variable {base target : List (List Char)}

theorem forall_mem_ascend {P : List Char → Prop} (climbing : P up) (each : ∀ part ∈ target, P part) :
    ∀ part ∈ ascend base target, P part := by
  intro part member
  rcases List.mem_append.1 member with climbed | rest
  · cases List.eq_of_mem_replicate climbed
    exact climbing
  · exact each part (List.mem_of_mem_drop rest)

theorem onOtherDrive_eq_false
    (first : ∀ drive, base.head? = some drive → hasDrive drive → target.head? = some drive) :
    onOtherDrive base target = false := by
  cases base with
  | nil => rfl
  | cons drive rest =>
    cases known : hasDrive drive with
    | false => simp [onOtherDrive, known]
    | true =>
      have same := first drive rfl known
      simp [onOtherDrive, List.headD_eq_head?_getD, same, sameIgnoringCase]

end

def segmentsOf (name : String) : List (List Char) := segments (normalizeChars name.toList)

def IsAbsolute (name : String) : Prop := isAbsolute (normalizeChars name.toList)

instance (name : String) : Decidable (IsAbsolute name) :=
  inferInstanceAs (Decidable (_ = true))

section

variable {base path : String} (rooted : IsAbsolute base) (rooted' : IsAbsolute path)
include rooted rooted'

theorem relative_of_onOtherDrive (apart : onOtherDrive (segmentsOf base) (segmentsOf path)) :
    relative (some base) path = normalize path := by
  unfold relative relativeChars normalize
  unfold IsAbsolute at rooted rooted'
  unfold segmentsOf at apart
  simp [rooted, rooted', apart]

theorem relative_of_not_onOtherDrive
    (near : onOtherDrive (segmentsOf base) (segmentsOf path) = false) :
    relative (some base) path =
      String.ofList (join (ascend (segmentsOf base) (segmentsOf path))) := by
  unfold relative relativeChars
  unfold IsAbsolute at rooted rooted'
  unfold segmentsOf at near ⊢
  simp [rooted, rooted', near]

theorem segments_relative (near : onOtherDrive (segmentsOf base) (segmentsOf path) = false) :
    segments (relative (some base) path).toList = ascend (segmentsOf base) (segmentsOf path) := by
  rw [relative_of_not_onOtherDrive rooted rooted' near, String.toList_ofList]
  apply segments_join
  exact forall_mem_ascend isSegment_up fun _ => isSegment_of_mem_segments

end

end SourceStamp.Path
