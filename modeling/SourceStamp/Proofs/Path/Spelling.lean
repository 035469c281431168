import SourceStamp.Proofs.Path.Walk

/-! Spellings of one location. A name is resolved by walking its parts, whichever slash stands between
them and whether or not a scheme stands in front. The relative path is the one between the places that
base and path resolve to, as long as no `..` stands behind their common start; a `..` there is counted
like a name.
-/

set_option autoImplicit false

namespace SourceStamp.Path

def isSeparator (c : Char) : Bool := c == '/' || c == '\\'

def withoutScheme (name : List Char) : List Char :=
  match after? "file:".toList name with
  | some (a :: b :: rest) => if isSeparator a && isSeparator b then rest else name
  | _ => name

def enter (place : List (List Char)) (part : List Char) : List (List Char) :=
  if part = [] ∨ part = ['.'] then place else step place part

def resolve (name : String) : List (List Char) :=
  ((withoutScheme name.toList).splitOnP isSeparator).foldl enter []

def toSlash (c : Char) : Char := if c = '\\' then '/' else c

theorem slash_beq_toSlash (c : Char) : ('/' == toSlash c) = isSeparator c := by
  by_cases back : c = '\\'
  · subst c
    rfl
  · simp [toSlash, isSeparator, back, BEq.comm]

theorem toSlash_of_not_isSeparator {c : Char} (plain : isSeparator c = false) : toSlash c = c := by
  apply if_neg
  rintro rfl
  contradiction

theorem beq_toSlash {s : Char} (plain : isSeparator s = false) (c : Char) : (s == toSlash c) = (s == c) := by
  cases separator : isSeparator c with
  | false => rw [toSlash_of_not_isSeparator separator]
  | true =>
    have slash : '/' = toSlash c := eq_of_beq ((slash_beq_toSlash c).trans separator)
    rw [← slash, beq_eq_false_iff_ne.2, beq_eq_false_iff_ne.2]
    · rintro rfl
      exact absurd separator (by simp [plain])
    · rintro rfl
      contradiction

def slashed (name : List Char) : List Char := name.map toSlash

theorem splitSlash_slashed (name : List Char) : splitSlash (slashed name) = name.splitOnP isSeparator := by
  rw [splitSlash_eq_splitOn]
  induction name with
  | nil => rfl
  | cons c name ih =>
    unfold slashed at ih ⊢
    rw [List.map_cons, List.splitOn_cons_eq_if_modifyHead, List.splitOnP_cons_eq_if_modifyHead, ih,
      BEq.comm, slash_beq_toSlash]
    cases separator : isSeparator c with
    | false => rw [toSlash_of_not_isSeparator separator]
    | true => rfl

theorem foldl_enter (place : List (List Char)) (name : List Char) :
    (name.splitOnP isSeparator).foldl enter place = walk place (segments (slashed name)) := by
  rw [walk, segments, splitSlash_slashed, List.foldl_filter]
  congr 1
  funext place part
  by_cases still : part = [] ∨ part = ['.']
  · rw [enter, if_pos still, if_neg]
    rcases still with rfl | rfl <;> decide
  · obtain ⟨nonempty, named⟩ := not_or.1 still
    simp [enter, nonempty, named]

theorem after?_cons (s c : Char) (start cs : List Char) :
    after? (s :: start) (c :: cs) = if s == c then after? start cs else none := rfl

theorem after?_append (start more cs : List Char) :
    after? (start ++ more) cs = (after? start cs).bind (after? more) := by
  induction start generalizing cs with
  | nil => rfl
  | cons s start ih =>
    cases cs with
    | nil => rfl
    | cons c cs =>
      rw [List.cons_append, after?_cons, after?_cons]
      split
      · exact ih cs
      · rfl

theorem after?_slashed {start : List Char} (plain : start.any isSeparator = false)
    (name : List Char) : after? start (slashed name) = (after? start name).map slashed := by
  induction start generalizing name with
  | nil => rfl
  | cons s start ih =>
    cases name with
    | nil => rfl
    | cons c name =>
      obtain ⟨first, plain⟩ := Bool.or_eq_false_iff.1 plain
      rw [slashed, List.map_cons, after?_cons, after?_cons, beq_toSlash first]
      split
      · exact ih plain name
      · rfl

theorem after?_separators (a b : Char) (rest : List Char) :
    after? ['/', '/'] (slashed (a :: b :: rest)) =
      if isSeparator a && isSeparator b then some (slashed rest) else none := by
  rw [slashed, List.map_cons, List.map_cons, after?_cons, after?_cons, slash_beq_toSlash,
    slash_beq_toSlash]
  cases isSeparator a <;> rfl

theorem slashed_withoutScheme (name : List Char) :
    slashed (withoutScheme name) = (after? "file://".toList (slashed name)).getD (slashed name) := by
  have cut : after? "file://".toList (slashed name) =
      ((after? "file:".toList name).map slashed).bind (after? ['/', '/']) := by
    rw [← after?_slashed rfl]
    exact after?_append "file:".toList ['/', '/'] (slashed name)
  rw [cut, withoutScheme]
  match after? "file:".toList name with
  | none | some [] => rfl
  | some [a] =>
    have short : after? ['/', '/'] (slashed [a]) = none := ite_self none
    rw [Option.map_some, Option.bind_some, short]
    rfl
  | some (a :: b :: rest) =>
    rw [Option.map_some, Option.bind_some, after?_separators]
    dsimp only
    split <;> rfl

theorem normalizeChars_eq (name : List Char) :
    normalizeChars name =
      match after? "file:///".toList (slashed name) with
      | some rest => if hasDrive rest then rest else '/' :: rest
      | none => (after? "file://".toList (slashed name)).getD (slashed name) := rfl

theorem after?_rooted_scheme (cs : List Char) :
    after? "file:///".toList cs = (after? "file://".toList cs).bind (after? ['/']) :=
  after?_append "file://".toList ['/'] cs

-- The root of a file URL is kept or not, but it is not a segment.
theorem segments_normalizeChars (name : List Char) :
    segments (normalizeChars name) = segments (slashed (withoutScheme name)) := by
  rw [slashed_withoutScheme, normalizeChars_eq, after?_rooted_scheme]
  match after? "file://".toList (slashed name) with
  | none | some [] => rfl
  | some (c :: rest) =>
    by_cases slash : c = '/'
    · subst c
      rw [Option.bind_some, show after? ['/'] ('/' :: rest) = some rest from rfl]
      dsimp only [Option.getD_some]
      split
      · exact (segments_append_slash [] rest).symm
      · rfl
    · have plain : after? ['/'] (c :: rest) = none := by simp [after?_cons, Ne.symm slash]
      rw [Option.bind_some, plain]

theorem resolve_eq_walk (name : String) : resolve name = walk [] (segmentsOf name) := by
  rw [resolve, foldl_enter, segmentsOf, segments_normalizeChars]

theorem Fork.walk {base target common left right : List (List Char)}
    (fork : Fork base target common left right) (names : up ∉ left) (names' : up ∉ right)
    (place : List (List Char)) :
    Fork (Path.walk place base) (Path.walk place target) (Path.walk place common) left right where
  base_eq := by rw [fork.base_eq, walk_append, walk_names names]
  target_eq := by rw [fork.target_eq, walk_append, walk_names names']
  apart := fork.apart

/-- An absolute base without a drive and an absolute path, with no `..` behind their common start. -/
structure Straight (base path : String) : Prop where
  rooted : IsAbsolute base
  rooted' : IsAbsolute path
  noDrive : ∀ part ∈ segmentsOf base, hasDrive part = false
  names : ∃ common left right,
    Fork (segmentsOf base) (segmentsOf path) common left right ∧ up ∉ left ∧ up ∉ right

theorem Straight.relative_eq {base path : String} (straight : Straight base path) :
    relative (some base) path = String.ofList (join (ascend (resolve base) (resolve path))) := by
  have near : onOtherDrive (segmentsOf base) (segmentsOf path) = false := by
    apply onOtherDrive_eq_false
    intro drive first known
    have other := straight.noDrive drive (List.mem_of_head? first)
    rw [other] at known
    contradiction
  obtain ⟨common, left, right, fork, names, names'⟩ := straight.names
  rw [relative_of_not_onOtherDrive straight.rooted straight.rooted' near, resolve_eq_walk,
    resolve_eq_walk, fork.ascend_eq, (fork.walk names names' []).ascend_eq]

/-- Two spellings of a directory and two of a file make one relative path, if no `..` stands behind
the common start of either pair. -/
theorem relative_eq_of_resolve_eq {base base' path path' : String} (straight : Straight base path)
    (straight' : Straight base' path') (directory : resolve base = resolve base')
    (file : resolve path = resolve path') :
    relative (some base) path = relative (some base') path' := by
  rw [straight.relative_eq, straight'.relative_eq, directory, file]

/-- A detour that base and path share, and none; either slash, and a scheme. -/
theorem relative_eq_of_resolve_eq_repo :
    relative (some "/tmp/../repo/app") "/tmp/../repo/lib/ü.ts" =
      relative (some "\\repo\\.\\app\\") "file:///repo//lib/ü.ts" := by
  apply relative_eq_of_resolve_eq
  · exact {
      rooted := by decide
      rooted' := by decide
      noDrive := by decide
      names := ⟨["tmp".toList, up, "repo".toList], ["app".toList], ["lib".toList, "ü.ts".toList],
        ⟨by decide, by decide, by rintro _ ⟨⟩; decide⟩, by decide, by decide⟩ }
  · exact {
      rooted := by decide
      rooted' := by decide
      noDrive := by decide
      names := ⟨["repo".toList], ["app".toList], ["lib".toList, "ü.ts".toList],
        ⟨by decide, by decide, by rintro _ ⟨⟩; decide⟩, by decide, by decide⟩ }
  · decide
  · decide

/-- A base that goes up again is left once for each of its segments. -/
theorem not_relative_eq_of_resolve_eq :
    ¬ ∀ base base' path path' : String, IsAbsolute base → IsAbsolute base' → IsAbsolute path →
      IsAbsolute path' →
      (∀ name ∈ [base, base', path, path'], ∀ part ∈ segmentsOf name, hasDrive part = false) →
      resolve base = resolve base' → resolve path = resolve path' →
        relative (some base) path = relative (some base') path' := by
  intro spelled
  have same := spelled "/repo/x/.." "/repo" "/repo/a.ts" "/repo/a.ts" (by decide) (by decide)
    (by decide) (by decide) (by decide) (by decide) rfl
  have climbs : relative (some "/repo/x/..") "/repo/a.ts" = "../../a.ts" := by decide
  have stays : relative (some "/repo") "/repo/a.ts" = "a.ts" := by decide
  rw [climbs, stays] at same
  exact absurd same (by decide)

end SourceStamp.Path
