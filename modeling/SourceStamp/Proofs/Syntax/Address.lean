import Mathlib.Data.List.Nodup
import SourceStamp.Proofs.Outcome
import SourceStamp.Proofs.Syntax.Children

/-! Places in a tree, and the replacement of nodes at several of them at once.

An address lists the indices of the children to go down to. Nodes may be replaced at outermost
places only: below a replaced node nothing of the old tree is left.
-/

set_option autoImplicit false

namespace SourceStamp

namespace Node

/-- The indices of the children to go down to, from the root on. -/
abbrev Address : Type := List Nat

def at? (root : Node) : Address → Option Node
  | [] => some root
  | index :: rest => root.children[index]? >>= fun part => part.at? rest

theorem at?_cons_eq_some_iff {root node : Node} {index : Nat} {rest : Address} :
    root.at? (index :: rest) = some node ↔
      ∃ part, root.children[index]? = some part ∧ part.at? rest = some node := by
  simp [at?, Option.bind_eq_some_iff]

def Everywhere (P : Node → Prop) (root : Node) : Prop :=
  ∀ address node, root.at? address = some node → P node

theorem everywhere_iff {P : Node → Prop} {root : Node} :
    root.Everywhere P ↔ P root ∧ ∀ part ∈ root.children, part.Everywhere P := by
  constructor
  · intro all
    refine ⟨all [] root rfl, ?_⟩
    intro part member address node reached
    obtain ⟨index, found⟩ := List.getElem?_of_mem member
    exact all (index :: address) node (at?_cons_eq_some_iff.2 ⟨part, found, reached⟩)
  · rintro ⟨here, below⟩ address node reached
    cases address with
    | nil =>
      cases Option.some.inj reached
      exact here
    | cons index rest =>
      obtain ⟨part, found, reached⟩ := at?_cons_eq_some_iff.1 reached
      exact below part (List.mem_of_getElem? found) rest node reached

instance (P : Node → Prop) [DecidablePred P] (root : Node) : Decidable (root.Everywhere P) :=
  decidable_of_iff (root.fold fun node parts => decide (P node) && parts.all id) <| by
    induction root using Node.induct with
    | step root ih =>
      rw [everywhere_iff, fold_eq, List.all_map]
      simp only [Bool.and_eq_true, decide_eq_true_eq, List.all_eq_true, Function.comp_apply, id]
      exact and_congr_right fun _ => forall₂_congr ih

theorem Everywhere.at? {P : Node → Prop} {root node : Node} (all : root.Everywhere P)
    {address : Address} (reached : root.at? address = some node) : node.Everywhere P := by
  induction address generalizing root with
  | nil =>
    cases reached
    exact all
  | cons index rest ih =>
    obtain ⟨part, found, reached⟩ := at?_cons_eq_some_iff.1 reached
    exact ih ((everywhere_iff.1 all).2 part (List.mem_of_getElem? found)) reached

/-- Two nodes that differ at most in their children, of which they have equally many. -/
def Alike (node other : Node) : Prop :=
  other = node.withChildren other.children ∧ other.children.length = node.children.length

theorem alike_withChildren (node : Node) (parts : List Node)
    (fits : parts.length = node.children.length) : node.Alike (node.withChildren parts) := by
  rw [Alike, children_withChildren node parts fits]
  exact ⟨rfl, fits⟩

theorem withChildren_alike_withChildren (node : Node) {parts others : List Node}
    (fits : parts.length = node.children.length) (fits' : others.length = node.children.length) :
    (node.withChildren parts).Alike (node.withChildren others) := by
  rw [Alike, children_withChildren node parts fits, children_withChildren node others fits',
    withChildren_withChildren node parts others fits fits', fits, fits']
  exact ⟨rfl, rfl⟩

/-- Replaces nodes by address, all at once; what lies below a replaced node is gone. -/
def replace : Node → (Address → Option Node) → Node :=
  fold fun node parts new =>
    (new []).getD (node.withChildren (parts.mapIdx fun index part => part fun rest => new (index :: rest)))

theorem replace_eq (root : Node) (new : Address → Option Node) :
    root.replace new = (new []).getD (root.withChildren
      (root.children.mapIdx fun index part => part.replace fun rest => new (index :: rest))) := by
  rw [replace, fold_eq]
  simp only [List.mapIdx_eq_zipIdx_map, List.zipIdx_map, List.map_map]
  rfl

theorem replace_of_some {root node : Node} {new : Address → Option Node}
    (here : new [] = some node) : root.replace new = node := by
  rw [replace_eq, here]
  rfl

theorem children_replace {root : Node} {new : Address → Option Node} (here : new [] = none) :
    (root.replace new).children =
      root.children.mapIdx fun index part => part.replace fun rest => new (index :: rest) := by
  rw [replace_eq, here]
  exact children_withChildren _ _ (by simp)

theorem at?_replace_cons {root part : Node} {new : Address → Option Node} (here : new [] = none)
    {index : Nat} (found : root.children[index]? = some part) (rest : Address) :
    (root.replace new).at? (index :: rest) =
      (part.replace fun rest => new (index :: rest)).at? rest := by
  simp [at?, children_replace here, found]

section

variable {P : Node → Prop}

-- No node above the end of an address satisfies `P`.
def NoneAbove (P : Node → Prop) (root : Node) (address : Address) : Prop :=
  ∀ above node, above <+: address → above ≠ address → root.at? above = some node → ¬ P node

theorem noneAbove_nil (root : Node) : NoneAbove P root [] :=
  fun _ _ under apart => absurd (List.prefix_nil.1 under) apart

theorem noneAbove_cons_iff {root part : Node} {index : Nat} {rest : Address}
    (found : root.children[index]? = some part) :
    NoneAbove P root (index :: rest) ↔ ¬ P root ∧ NoneAbove P part rest := by
  constructor
  · intro clear
    refine ⟨clear [] root List.nil_prefix (by simp) rfl, ?_⟩
    intro above node under apart reached
    exact clear (index :: above) node (List.cons_prefix_cons.2 ⟨rfl, under⟩) (by simpa using apart)
      (at?_cons_eq_some_iff.2 ⟨part, found, reached⟩)
  · rintro ⟨atRoot, inPart⟩ above node under apart reached
    cases above with
    | nil =>
      cases Option.some.inj reached
      exact atRoot
    | cons i above =>
      obtain ⟨rfl, below⟩ := List.cons_prefix_cons.1 under
      obtain ⟨other, found', reached⟩ := at?_cons_eq_some_iff.1 reached
      cases found.symm.trans found'
      exact inPart above node below (by simpa using apart) reached

/-- A node that satisfies `P`, with none above it that does. -/
structure Outermost (P : Node → Prop) (root : Node) (address : Address) (node : Node) : Prop where
  reached : root.at? address = some node
  clear : NoneAbove P root address
  holds : P node

/-- A node that does not satisfy `P`, with none above it that does. -/
structure Outside (P : Node → Prop) (root : Node) (address : Address) (node : Node) : Prop where
  reached : root.at? address = some node
  clear : NoneAbove P root address
  fails : ¬ P node

theorem outermost_nil_iff {root node : Node} :
    Outermost P root [] node ↔ node = root ∧ P root := by
  constructor
  · rintro ⟨reached, -, holds⟩
    cases Option.some.inj reached
    exact ⟨rfl, holds⟩
  · rintro ⟨rfl, holds⟩
    exact ⟨rfl, noneAbove_nil node, holds⟩

theorem outermost_cons_iff {root node : Node} {index : Nat} {rest : Address} :
    Outermost P root (index :: rest) node ↔
      ¬ P root ∧ ∃ part, root.children[index]? = some part ∧ Outermost P part rest node := by
  constructor
  · rintro ⟨reached, clear, holds⟩
    obtain ⟨part, found, reached⟩ := at?_cons_eq_some_iff.1 reached
    obtain ⟨atRoot, inPart⟩ := (noneAbove_cons_iff found).1 clear
    exact ⟨atRoot, part, found, reached, inPart, holds⟩
  · rintro ⟨atRoot, part, found, reached, inPart, holds⟩
    exact ⟨at?_cons_eq_some_iff.2 ⟨part, found, reached⟩,
      (noneAbove_cons_iff found).2 ⟨atRoot, inPart⟩, holds⟩

def OnlyOutermost (P : Node → Prop) (root : Node) (new : Address → Option Node) : Prop :=
  ∀ address node, new address = some node → ∃ old, Outermost P root address old

theorem OnlyOutermost.child {root part : Node} {new : Address → Option Node}
    (only : OnlyOutermost P root new) {index : Nat} (found : root.children[index]? = some part) :
    OnlyOutermost P part fun rest => new (index :: rest) := by
  intro rest node here
  obtain ⟨old, inRoot⟩ := only (index :: rest) node here
  obtain ⟨-, other, found', inPart⟩ := outermost_cons_iff.1 inRoot
  cases found.symm.trans found'
  exact ⟨old, inPart⟩

theorem OnlyOutermost.eq_none {root : Node} {new : Address → Option Node}
    (only : OnlyOutermost P root new) (fails : ¬ P root) : new [] = none := by
  rw [Option.eq_none_iff_forall_ne_some]
  intro node here
  obtain ⟨old, atRoot⟩ := only [] node here
  exact fails (outermost_nil_iff.1 atRoot).2

theorem at?_replace_of_outermost {root old node : Node} {address : Address}
    {new : Address → Option Node} (only : OnlyOutermost P root new)
    (outermost : Outermost P root address old) (here : new address = some node) :
    (root.replace new).at? address = some node := by
  induction address generalizing root new with
  | nil =>
    rw [replace_of_some here]
    rfl
  | cons index rest ih =>
    obtain ⟨atRoot, part, found, inPart⟩ := outermost_cons_iff.1 outermost
    rw [at?_replace_cons (only.eq_none atRoot) found]
    exact ih (only.child found) inPart here

theorem alike_at?_replace {root node : Node} {address : Address} {new : Address → Option Node}
    (only : OnlyOutermost P root new) (outside : Outside P root address node) :
    ∃ kept, (root.replace new).at? address = some kept ∧ node.Alike kept := by
  obtain ⟨reached, clear, fails⟩ := outside
  induction address generalizing root new with
  | nil =>
    cases Option.some.inj reached
    refine ⟨_, rfl, ?_⟩
    rw [replace_eq, only.eq_none fails]
    exact alike_withChildren _ _ (by simp)
  | cons index rest ih =>
    obtain ⟨part, found, reached⟩ := at?_cons_eq_some_iff.1 reached
    obtain ⟨atRoot, inPart⟩ := (noneAbove_cons_iff found).1 clear
    rw [at?_replace_cons (only.eq_none atRoot) found]
    exact ih (only.child found) reached inPart

theorem outside_nil_iff {root node : Node} : Outside P root [] node ↔ node = root ∧ ¬ P root := by
  constructor
  · rintro ⟨reached, -, fails⟩
    cases Option.some.inj reached
    exact ⟨rfl, fails⟩
  · rintro ⟨rfl, fails⟩
    exact ⟨rfl, noneAbove_nil node, fails⟩

theorem outside_cons_iff {root node : Node} {index : Nat} {rest : Address} :
    Outside P root (index :: rest) node ↔
      ¬ P root ∧ ∃ part, root.children[index]? = some part ∧ Outside P part rest node := by
  constructor
  · rintro ⟨reached, clear, fails⟩
    obtain ⟨part, found, reached⟩ := at?_cons_eq_some_iff.1 reached
    obtain ⟨atRoot, inPart⟩ := (noneAbove_cons_iff found).1 clear
    exact ⟨atRoot, part, found, reached, inPart, fails⟩
  · rintro ⟨atRoot, part, found, reached, inPart, fails⟩
    exact ⟨at?_cons_eq_some_iff.2 ⟨part, found, reached⟩,
      (noneAbove_cons_iff found).2 ⟨atRoot, inPart⟩, fails⟩

end

def inChildren (places : Node → List Address) (node : Node) : List Address :=
  (node.children.mapIdx fun index part => (places part).map (index :: ·)).flatten

section

variable {places : Node → List Address}

theorem mem_inChildren_iff {node : Node} {address : Address} :
    address ∈ node.inChildren places ↔
      ∃ index rest part, address = index :: rest ∧ node.children[index]? = some part ∧
        rest ∈ places part := by
  rw [inChildren, List.mem_flatten]
  constructor
  · rintro ⟨row, among, member⟩
    obtain ⟨index, inside, rfl⟩ := List.mem_mapIdx.1 among
    obtain ⟨rest, found, rfl⟩ := List.mem_map.1 member
    exact ⟨index, rest, _, rfl, List.getElem?_eq_getElem inside, found⟩
  · rintro ⟨index, rest, part, rfl, found, member⟩
    obtain ⟨inside, rfl⟩ := List.getElem?_eq_some_iff.1 found
    exact ⟨_, List.mem_mapIdx.2 ⟨index, inside, rfl⟩, List.mem_map_of_mem member⟩

theorem nodup_inChildren {node : Node} (each : ∀ part ∈ node.children, (places part).Nodup) :
    (node.inChildren places).Nodup := by
  rw [inChildren, List.nodup_flatten]
  constructor
  · intro row among
    obtain ⟨index, inside, rfl⟩ := List.mem_mapIdx.1 among
    exact (each _ (List.getElem_mem inside)).map fun _ _ same => (List.cons.inj same).2
  · -- addresses below different children begin with different indices
    rw [List.pairwise_iff_getElem]
    intro i j _ _ less address first second
    simp only [List.getElem_mapIdx, List.mem_map] at first second
    obtain ⟨_, -, rfl⟩ := first
    obtain ⟨_, -, same⟩ := second
    have := (List.cons.inj same).1
    omega

-- Addresses in the children, next to what a walk through the children finds there.
theorem forall₂_inChildren {ε α β : Type} {step : Node → Except ε α} {items : α → List β}
    {related : Address → β → Prop} {node : Node} {outcomes : List α}
    (results : node.children.mapM step = .ok outcomes)
    (each : ∀ index part outcome, node.children[index]? = some part → step part = .ok outcome →
      List.Forall₂ (fun rest => related (index :: rest)) (places part) (items outcome)) :
    List.Forall₂ related (node.inChildren places) (outcomes.flatMap items) := by
  rw [inChildren, List.flatMap_def]
  apply List.rel_flatten
  rw [List.forall₂_iff_get]
  refine ⟨by simp [length_of_mapM results], ?_⟩
  intro index inside _
  simp only [List.length_mapIdx] at inside
  have found := List.getElem?_eq_getElem inside
  obtain ⟨outcome, here, done⟩ := getElem?_of_mapM results found
  obtain ⟨_, same⟩ := List.getElem?_eq_some_iff.1 here
  simp only [List.get_eq_getElem, List.getElem_mapIdx, List.getElem_map, same]
  rw [List.forall₂_map_left_iff]
  exact each index _ outcome found done

end

section

variable {P : Node → Prop} [DecidablePred P]

def places (P : Node → Prop) [DecidablePred P] : Node → List Address :=
  fold fun node parts =>
    if P node then [[]]
    else (parts.mapIdx fun index below => below.map (index :: ·)).flatten

variable {Q : Node → Prop} [DecidablePred Q]

/-- The addresses of the nodes that satisfy `Q`, where no node on the way, the last one included,
satisfies `P`. -/
def placesOutside (P Q : Node → Prop) [DecidablePred P] [DecidablePred Q] : Node → List Address :=
  fold fun node parts =>
    if P node then []
    else (if Q node then [[]] else []) ++
      (parts.mapIdx fun index below => below.map (index :: ·)).flatten

theorem placesOutside_of_holds {node : Node} (holds : P node) : node.placesOutside P Q = [] := by
  rw [placesOutside, fold_eq, if_pos holds]

theorem placesOutside_of_fails {node : Node} (fails : ¬ P node) :
    node.placesOutside P Q =
      (if Q node then [[]] else []) ++ node.inChildren fun part => part.placesOutside P Q := by
  rw [placesOutside, fold_eq, if_neg fails]
  simp only [List.mapIdx_eq_zipIdx_map, List.zipIdx_map, List.map_map, inChildren]
  rfl

theorem mem_placesOutside_iff {root : Node} {address : Address} :
    address ∈ root.placesOutside P Q ↔ ∃ node, Outside P root address node ∧ Q node := by
  induction root using Node.induct generalizing address with
  | step root ih =>
    by_cases holds : P root
    · rw [placesOutside_of_holds holds]
      refine iff_of_false List.not_mem_nil ?_
      rintro ⟨node, outside, -⟩
      cases address with
      | nil => exact (outside_nil_iff.1 outside).2 holds
      | cons => exact (outside_cons_iff.1 outside).1 holds
    · rw [placesOutside_of_fails holds, List.mem_append, mem_inChildren_iff]
      cases address with
      | nil =>
        constructor
        · rintro (here | ⟨_, _, _, same, -⟩)
          · split at here
            · exact ⟨root, outside_nil_iff.2 ⟨rfl, holds⟩, ‹_›⟩
            · contradiction
          · contradiction
        · rintro ⟨node, outside, marked⟩
          obtain ⟨rfl, -⟩ := outside_nil_iff.1 outside
          exact .inl (by simp [marked])
      | cons index rest =>
        constructor
        · rintro (here | ⟨_, _, part, ⟨⟩, found, member⟩)
          · split at here <;> simp at here
          · obtain ⟨node, outside, marked⟩ := (ih part (List.mem_of_getElem? found)).1 member
            exact ⟨node, outside_cons_iff.2 ⟨holds, part, found, outside⟩, marked⟩
        · rintro ⟨node, outside, marked⟩
          obtain ⟨-, part, found, outside⟩ := outside_cons_iff.1 outside
          exact .inr ⟨index, rest, part, rfl, found,
            (ih part (List.mem_of_getElem? found)).2 ⟨node, outside, marked⟩⟩

theorem nodup_placesOutside (root : Node) : (root.placesOutside P Q).Nodup := by
  induction root using Node.induct with
  | step root ih =>
    by_cases holds : P root
    · rw [placesOutside_of_holds holds]
      exact List.nodup_nil
    · rw [placesOutside_of_fails holds]
      refine List.Nodup.append (by split <;> simp) (nodup_inChildren ih) ?_
      intro address here under
      obtain ⟨index, rest, -, rfl, -⟩ := mem_inChildren_iff.1 under
      split at here <;> simp at here

end

end Node

end SourceStamp
