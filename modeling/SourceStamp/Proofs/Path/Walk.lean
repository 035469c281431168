import Mathlib.Data.List.Induction
import SourceStamp.Proofs.Path.Segments

/-! Walking along a path. A place in the tree of directories is the list of names on the way down to it;
the segment `..` leads up, and every other one down. A relative path leads from its base to its target,
and if neither goes up on its own way, no shorter path does.
-/

set_option autoImplicit false

namespace SourceStamp.Path

/-- Where a segment leads. There is nothing above the root. -/
def step (place : List (List Char)) (part : List Char) : List (List Char) :=
  if part = up then place.dropLast else place ++ [part]

def walk (place parts : List (List Char)) : List (List Char) := parts.foldl step place

@[simp] theorem walk_nil (place : List (List Char)) : walk place [] = place := rfl

@[simp] theorem walk_cons (place : List (List Char)) (part : List Char) (parts : List (List Char)) :
    walk place (part :: parts) = walk (step place part) parts := rfl

theorem walk_append (place parts others : List (List Char)) :
    walk place (parts ++ others) = walk (walk place parts) others := List.foldl_append

theorem walk_names {parts : List (List Char)} (names : up ∉ parts) (place : List (List Char)) :
    walk place parts = place ++ parts := by
  induction parts generalizing place with
  | nil => exact (List.append_nil place).symm
  | cons part parts ih =>
    obtain ⟨name, names⟩ := not_or.1 (mt List.mem_cons.2 names)
    rw [walk_cons, step, if_neg (Ne.symm name), ih names, List.append_assoc, List.singleton_append]

theorem walk_replicate_up (place names : List (List Char)) :
    walk (place ++ names) (List.replicate names.length up) = place := by
  induction names using List.reverseRecOn with
  | nil => exact List.append_nil place
  | append_singleton names name ih =>
    rw [List.length_append, List.length_singleton, List.replicate_succ, walk_cons, step, if_pos rfl,
      ← List.append_assoc, List.dropLast_concat, ih]

/-- Two paths part behind their longest common start, the one to the left and the other to the right. -/
structure Fork (base target common left right : List (List Char)) : Prop where
  base_eq : base = common ++ left
  target_eq : target = common ++ right
  apart : ∀ part, left.head? = some part → right.head? ≠ some part

section

variable {base target common left right : List (List Char)}

theorem exists_fork (base target : List (List Char)) :
    ∃ common left right, Fork base target common left right := by
  induction base generalizing target with
  | nil => exact ⟨[], [], target, rfl, rfl, fun part found => by contradiction⟩
  | cons first base ih =>
    by_cases same : target.head? = some first
    · obtain ⟨rest, rfl⟩ := List.head?_eq_some_iff.1 same
      obtain ⟨common, left, right, fork⟩ := ih rest
      exact ⟨first :: common, left, right, congrArg (first :: ·) fork.base_eq,
        congrArg (first :: ·) fork.target_eq, fork.apart⟩
    · refine ⟨[], first :: base, target, rfl, rfl, ?_⟩
      rintro part ⟨⟩
      exact same

theorem commonLength_append (common left right : List (List Char)) :
    commonLength (common ++ left) (common ++ right) = common.length + commonLength left right := by
  induction common with
  | nil => exact (Nat.zero_add _).symm
  | cons first common ih => simp [commonLength, ih, Nat.add_right_comm]

theorem Fork.commonLength_eq (fork : Fork base target common left right) :
    commonLength base target = common.length := by
  obtain ⟨rfl, rfl, apart⟩ := fork
  rw [commonLength_append, Nat.add_eq_left]
  cases left with
  | nil => rfl
  | cons first left =>
    cases right with
    | nil => rfl
    | cons second right =>
      have different : first ≠ second := fun same => apart first rfl (congrArg some same.symm)
      simp [commonLength, different]

theorem Fork.ascend_eq (fork : Fork base target common left right) :
    ascend base target = List.replicate left.length up ++ right := by
  rw [ascend, fork.commonLength_eq, fork.base_eq, fork.target_eq, List.length_append,
    Nat.add_sub_cancel_left, List.drop_left]

/-- The way from the base leads to the target, unless the base goes up behind the common start. -/
theorem Fork.walk_ascend (fork : Fork base target common left right) (names : up ∉ left)
    (place : List (List Char)) : walk (walk place base) (ascend base target) = walk place target := by
  rw [fork.ascend_eq, fork.base_eq, fork.target_eq, walk_append, walk_append, walk_append,
    walk_names names, walk_replicate_up]

theorem Fork.isPrefix_iff (fork : Fork base target common left right) :
    base <+: target ↔ left = [] := by
  obtain ⟨rfl, rfl, apart⟩ := fork
  rw [List.prefix_append_right_inj]
  constructor
  · rintro ⟨rest, rfl⟩
    cases left with
    | nil => rfl
    | cons first left => exact absurd rfl (apart first rfl)
  · rintro rfl
    exact List.nil_prefix

theorem Fork.head?_ascend_eq_up_iff (fork : Fork base target common left right) (names : up ∉ target) :
    (ascend base target).head? = some up ↔ ¬ base <+: target := by
  rw [fork.ascend_eq, fork.isPrefix_iff]
  cases left with
  | nil =>
    refine iff_of_false (fun climbs => names ?_) (not_not_intro rfl)
    rw [fork.target_eq]
    exact List.mem_append_right common (List.mem_of_head? climbs)
  | cons first left => simp [List.replicate_succ]

theorem Fork.length_ascend (fork : Fork base target common left right) :
    (ascend base target).length + 2 * commonLength base target = base.length + target.length := by
  rw [fork.ascend_eq, fork.commonLength_eq, fork.base_eq, fork.target_eq]
  simp only [List.length_append, List.length_replicate]
  omega

end

section

variable (place target : List (List Char)) (part : List Char)

theorem commonLength_self : commonLength target target = target.length := by
  have same := commonLength_append target [] []
  rwa [List.append_nil] at same

theorem commonLength_le_concat :
    commonLength place target ≤ commonLength (place ++ [part]) target := by
  induction place generalizing target with
  | nil => exact Nat.zero_le _
  | cons first place ih =>
    cases target with
    | nil => exact Nat.zero_le _
    | cons second target =>
      rw [List.cons_append, commonLength, commonLength]
      split
      · exact Nat.succ_le_succ (ih target)
      · exact Nat.le_refl 0

theorem commonLength_concat_le :
    commonLength (place ++ [part]) target ≤ commonLength place target + 1 := by
  induction place generalizing target with
  | nil =>
    cases target with
    | nil => exact Nat.zero_le 1
    | cons second target =>
      rw [List.nil_append, commonLength]
      split <;> simp [commonLength]
  | cons first place ih =>
    cases target with
    | nil => exact Nat.zero_le 1
    | cons second target =>
      rw [List.cons_append, commonLength, commonLength]
      split
      · exact Nat.succ_le_succ (ih target)
      · exact Nat.zero_le 1

-- The distance of a place from the target is the number of names that only one of them has.
-- One segment makes it smaller by at most one.
theorem length_add_commonLength_step_le :
    place.length + 2 * commonLength (step place part) target ≤
      (step place part).length + 1 + 2 * commonLength place target := by
  unfold step
  split
  · rcases List.eq_nil_or_concat place with rfl | ⟨names, name, rfl⟩
    · exact Nat.le_add_right_of_le (Nat.zero_le _)
    · have fewer := commonLength_le_concat names target name
      rw [List.concat_eq_append, List.dropLast_concat, List.length_append, List.length_singleton]
      omega
  · have more := commonLength_concat_le place target part
    rw [List.length_append, List.length_singleton]
    omega

end

theorem length_le_of_walk_eq {place target parts : List (List Char)} (leads : walk place parts = target) :
    place.length + target.length ≤ parts.length + 2 * commonLength place target := by
  induction parts generalizing place with
  | nil =>
    cases leads
    rw [walk_nil, commonLength_self, List.length_nil]
    omega
  | cons part parts ih =>
    have rest := ih leads
    have first := length_add_commonLength_step_le place target part
    rw [List.length_cons]
    omega

/-- From a base that does not go up behind its common start with the path, the relative path leads to
where the path does. If neither goes up at all, no shorter way leads there, and the relative path goes
up first exactly if the path does not lie below the base. -/
theorem relative_leads {base path : String} (rooted : IsAbsolute base) (rooted' : IsAbsolute path)
    (first : ∀ drive, (segmentsOf base).head? = some drive → hasDrive drive →
      (segmentsOf path).head? = some drive)
    {common left right : List (List Char)}
    (fork : Fork (segmentsOf base) (segmentsOf path) common left right) (names : up ∉ left) :
    walk (walk [] (segmentsOf base)) (segments (relative (some base) path).toList) =
        walk [] (segmentsOf path) ∧
      (up ∉ segmentsOf base → up ∉ segmentsOf path →
        (∀ parts, walk (walk [] (segmentsOf base)) parts = walk [] (segmentsOf path) →
          (segments (relative (some base) path).toList).length ≤ parts.length) ∧
        ((segments (relative (some base) path).toList).head? = some up ↔
          ¬ segmentsOf base <+: segmentsOf path)) := by
  rw [segments_relative rooted rooted' (onOtherDrive_eq_false first)]
  refine ⟨fork.walk_ascend names [], fun names names' => ⟨fun parts leads => ?_, ?_⟩⟩
  · rw [walk_names names, walk_names names', List.nil_append, List.nil_append] at leads
    have atLeast := length_le_of_walk_eq leads
    have exactly := fork.length_ascend
    omega
  · exact fork.head?_ascend_eq_up_iff names'

/-- A base and a path on one drive, spelled in different ways. -/
theorem relative_leads_drive :
    let base := "file:///c:/work\\web/."
    let path := "c:\\work\\lib//ü.ts"
    relative (some base) path = "../lib/ü.ts" ∧
      walk (walk [] (segmentsOf base)) [up, "lib".toList, "ü.ts".toList] = walk [] (segmentsOf path) ∧
      (∀ parts, walk (walk [] (segmentsOf base)) parts = walk [] (segmentsOf path) → 3 ≤ parts.length) ∧
      ¬ segmentsOf base <+: segmentsOf path := by
  intro base path
  have result : segments (relative (some base) path).toList = [up, "lib".toList, "ü.ts".toList] := by
    decide
  have fork : Fork (segmentsOf base) (segmentsOf path) ["c:".toList, "work".toList] ["web".toList]
      ["lib".toList, "ü.ts".toList] := ⟨by decide, by decide, by rintro _ ⟨⟩; decide⟩
  obtain ⟨leads, rest⟩ := @relative_leads base path (by decide) (by decide) (by decide) _ _ _ fork
    (by decide)
  obtain ⟨shortest, climbs⟩ := rest (by decide) (by decide)
  rw [result] at leads shortest climbs
  exact ⟨by decide, leads, shortest, climbs.1 rfl⟩

end SourceStamp.Path
