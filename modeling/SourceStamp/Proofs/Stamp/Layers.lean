import SourceStamp.Proofs.Stamp.Face
import SourceStamp.Proofs.Syntax.Address

/-! Targets within targets. A tree may be stamped in its outermost targets only, which brings the
next ones to the surface, or in all of them from the inside out. Where no stamped throw is a target
again, the two belong together: each layer that is stamped is one less for what remains, and what
remains leads to the same tree.
-/

set_option autoImplicit false

namespace SourceStamp

namespace Node

def throwsLiteral : Node → Bool
  | .throwStmt _ (.string _) | .throwStmt _ (.template _ _ _) => true
  | _ => false

/-- The greatest number of targets on a way from the root to a leaf. -/
def targetDepth : Node → Nat :=
  fold fun node parts => (if node.isTarget then 1 else 0) + parts.foldr max 0

/-! ## Depth -/

theorem targetDepth_eq (node : Node) :
    node.targetDepth = (if node.isTarget then 1 else 0) +
      (node.children.map targetDepth).foldr max 0 :=
  fold_eq _ node

theorem foldr_max_le_iff {numbers : List Nat} {bound : Nat} :
    numbers.foldr max 0 ≤ bound ↔ ∀ n ∈ numbers, n ≤ bound := by
  induction numbers with
  | nil => simp
  | cons n rest ih => rw [List.foldr_cons, Nat.max_le, ih, List.forall_mem_cons]

theorem targetDepth_le_iff_of_not_isTarget {node : Node} {bound : Nat} (other : node.isTarget = false) :
    node.targetDepth ≤ bound ↔ ∀ part ∈ node.children, part.targetDepth ≤ bound := by
  rw [targetDepth_eq, other, if_neg Bool.false_ne_true, Nat.zero_add, foldr_max_le_iff,
    List.forall_mem_map]

theorem targetDepth_le_iff_of_isTarget {node : Node} {bound : Nat} (kind : node.isTarget) :
    node.targetDepth ≤ bound + 1 ↔ ∀ part ∈ node.children, part.targetDepth ≤ bound := by
  rw [targetDepth_eq, if_pos kind, Nat.add_comm, Nat.add_le_add_iff_right, foldr_max_le_iff,
    List.forall_mem_map]

theorem isTarget_eq_false_of_targetDepth {node : Node} (none_ : node.targetDepth = 0) :
    node.isTarget = false := by
  rw [targetDepth_eq] at none_
  cases kind : node.isTarget with
  | false => rfl
  | true => simp [kind] at none_

theorem targetDepth_le_of_mem_children {node part : Node} (member : part ∈ node.children) :
    part.targetDepth ≤ node.targetDepth := by
  have most := foldr_max_le_iff.1 (Nat.le_refl _) part.targetDepth
    (List.mem_map_of_mem (f := targetDepth) member)
  rw [targetDepth_eq node]
  omega

theorem targetDepth_of_mem_children {node part : Node} (none_ : node.targetDepth = 0)
    (member : part ∈ node.children) : part.targetDepth = 0 := by
  have := targetDepth_le_of_mem_children member
  omega

def AllTargets (P : Node → Prop) (root : Node) : Prop :=
  root.Everywhere fun part => part.isTarget → P part

theorem allTargets_iff_of_not_isTarget {P : Node → Prop} {root : Node} (other : root.isTarget = false) :
    root.AllTargets P ↔ ∀ part ∈ root.children, part.AllTargets P := by
  unfold AllTargets
  rw [everywhere_iff]
  simp [other]

theorem allTargets_of_targetDepth {P : Node → Prop} {root : Node} (none_ : root.targetDepth = 0) :
    root.AllTargets P := by
  induction root using Node.induct with
  | step root ih =>
    rw [allTargets_iff_of_not_isTarget (isTarget_eq_false_of_targetDepth none_)]
    intro part member
    exact ih part member (targetDepth_of_mem_children none_ member)

/-! ## One target -/

def stampedWith (debugCallee text : String) (node : Node) : Node :=
  (node.target?.map fun target => target.stamped debugCallee text).getD node

theorem rule_stampedWith {debugCallee text : String} {node : Node} (kind : node.isTarget) :
    Rule debugCallee text node (node.stampedWith debugCallee text) := by
  obtain ⟨target, found⟩ := exists_target kind
  rw [stampedWith, found]
  exact rule_iff.2 ⟨target, found, rfl⟩

theorem stampedWith_eq {debugCallee text : String} {node new : Node}
    (rule : Rule debugCallee text node new) : node.stampedWith debugCallee text = new := by
  obtain ⟨target, found, rfl⟩ := rule_iff.1 rule
  rw [stampedWith, found]
  rfl

-- What is below a stamped node is made up, was there before, or is a template with a new head.
theorem mem_children_of_rule {debugCallee text : String} {node new part : Node}
    (rule : Rule debugCallee text node new) (member : part ∈ new.children) :
    part.targetDepth = 0 ∨ ∃ old ∈ node.children,
      part = old ∨ part.isTarget = false ∧ part.children = old.children := by
  have inCall : ∀ (c : Call Node) (name : String) (typeArgs : Option Node),
      part ∈ (c.withText name text typeArgs).children → typeArgs = none ∨ typeArgs = c.typeArgs →
      part.targetDepth = 0 ∨ ∃ old ∈ c.children,
        part = old ∨ part.isTarget = false ∧ part.children = old.children := by
    intro c name typeArgs member kept
    simp only [Call.children, Call.withText, List.map_cons, List.cons_append, List.mem_cons,
      List.mem_append] at member ⊢
    rcases member with rfl | rfl | inArgs | inTypeArgs
    · exact .inl rfl
    · exact .inl rfl
    · exact .inr ⟨part, .inr (.inl inArgs), .inl rfl⟩
    · rcases kept with rfl | rfl
      · contradiction
      · exact .inr ⟨part, .inr (.inr inTypeArgs), .inl rfl⟩
  induction rule with
  | print | warn => exact inCall _ _ _ member (.inl rfl)
  | debug => exact inCall _ _ _ member (.inr rfl)
  | chain _ ih => exact ih member
  | string | emptyTemplate | plainTemplate | ident =>
    cases List.mem_singleton.1 member
    exact .inl rfl
  | template | headlessTemplate =>
    cases List.mem_singleton.1 member
    exact .inr ⟨_, List.mem_singleton_self _, .inr ⟨rfl, rfl⟩⟩

theorem allTargets_children_of_rule {P : Node → Prop} {debugCallee text : String} {node new : Node}
    (rule : Rule debugCallee text node new) (known : ∀ part ∈ node.children, part.AllTargets P) :
    ∀ part ∈ new.children, part.AllTargets P := by
  intro part member
  rcases mem_children_of_rule rule member with none_ | ⟨old, among, rfl | ⟨other, same⟩⟩
  · exact allTargets_of_targetDepth none_
  · exact known part among
  · rw [allTargets_iff_of_not_isTarget other, same]
    exact (everywhere_iff.1 (known old among)).2

theorem targetDepth_children_of_rule {debugCallee text : String} {node new : Node} {bound : Nat}
    (rule : Rule debugCallee text node new)
    (deep : ∀ part ∈ node.children, part.targetDepth ≤ bound) :
    ∀ part ∈ new.children, part.targetDepth ≤ bound := by
  intro part member
  rcases mem_children_of_rule rule member with none_ | ⟨old, among, rfl | ⟨other, same⟩⟩
  · omega
  · exact deep part among
  · apply Nat.le_trans _ (deep old among)
    rw [targetDepth_le_iff_of_not_isTarget other, same]
    intro inner below
    exact targetDepth_le_of_mem_children below

/-! ## A whole tree, with the texts given -/

section

variable (debugCallee : String) (label : Node → String)

def stampOutermost : Node → Node :=
  fold fun node parts =>
    if node.isTarget then node.stampedWith debugCallee (label node) else node.withChildren parts

/-- Stamps all targets, the inner ones first; the text of each belongs to the node as it was. -/
def stampAll : Node → Node :=
  fold fun node parts =>
    if node.isTarget then (node.withChildren parts).stampedWith debugCallee (label node)
    else node.withChildren parts

variable {debugCallee label}

theorem stampOutermost_of_isTarget {node : Node} (kind : node.isTarget) :
    node.stampOutermost debugCallee label = node.stampedWith debugCallee (label node) := by
  rw [stampOutermost, fold_eq, if_pos kind]

theorem stampOutermost_of_not_isTarget {node : Node} (other : node.isTarget = false) :
    node.stampOutermost debugCallee label = node.mapChildren (stampOutermost debugCallee label) := by
  rw [stampOutermost, fold_eq, other, if_neg Bool.false_ne_true]
  rfl

theorem stampAll_of_isTarget {node : Node} (kind : node.isTarget) :
    node.stampAll debugCallee label =
      (node.mapChildren (stampAll debugCallee label)).stampedWith debugCallee (label node) := by
  rw [stampAll, fold_eq, if_pos kind]
  rfl

theorem stampAll_of_not_isTarget {node : Node} (other : node.isTarget = false) :
    node.stampAll debugCallee label = node.mapChildren (stampAll debugCallee label) := by
  rw [stampAll, fold_eq, other, if_neg Bool.false_ne_true]
  rfl

theorem face_stampedWith (text : String) (node : Node) :
    (node.stampedWith debugCallee text).face = node.face := by
  cases found : node.target? with
  | none => simp [stampedWith, found]
  | some target => exact (rule_stampedWith (isTarget_of_target? found)).face_eq

theorem face_stampOutermost (node : Node) :
    (node.stampOutermost debugCallee label).face = node.face := by
  cases kind : node.isTarget with
  | true => rw [stampOutermost_of_isTarget kind, face_stampedWith]
  | false =>
    rw [stampOutermost_of_not_isTarget kind]
    exact face_withChildren node _

theorem isTarget_mapChildren_stampOutermost {node : Node} (other : node.isTarget = false) :
    (node.mapChildren (stampOutermost debugCallee label)).isTarget = false := by
  rw [isTarget_mapChildren fun part _ => face_stampOutermost part, other]

theorem face_stampAll (node : Node) : (node.stampAll debugCallee label).face = node.face := by
  cases kind : node.isTarget with
  | true =>
    rw [stampAll_of_isTarget kind, face_stampedWith]
    exact face_withChildren node _
  | false =>
    rw [stampAll_of_not_isTarget kind]
    exact face_withChildren node _

theorem keepsFace_stampAll : KeepsFace (stampAll debugCallee label) where
  face_eq := face_stampAll
  below := by
    intro node other
    apply stampAll_of_not_isTarget
    cases node with
    | call | optCall | throwStmt => contradiction
    | _ => rfl

def IsFresh (name : String) : Prop := name ≠ "$print" ∧ name ≠ "$warn" ∧ name ≠ "$debug"

theorem isTarget_withText {c : Call Node} {name text : String} {typeArgs : Option Node}
    (fresh : IsFresh name) : (call (c.withText name text typeArgs)).isTarget = false := by
  obtain ⟨print, warn, debug⟩ := fresh
  simp [isTarget, Call.isTarget, Call.isOf, Call.withText, print, warn, debug]

variable (fresh : IsFresh debugCallee)
include fresh

-- A stamped target is none any more: its callee is a fresh name, or it throws a sum.
theorem isTarget_of_rule {text : String} {node new : Node} (rule : Rule debugCallee text node new)
    (lasting : node.throwsLiteral = false) : new.isTarget = false := by
  induction rule with
  | print | warn => exact isTarget_withText ⟨by decide, by decide, by decide⟩
  | debug => exact isTarget_withText fresh
  | chain _ ih => exact ih rfl
  | ident => rfl
  | _ => contradiction

theorem isTarget_stampedWith {node : Node} (kind : node.isTarget)
    (lasting : node.throwsLiteral = false) (text : String) :
    (node.stampedWith debugCallee text).isTarget = false :=
  isTarget_of_rule fresh (rule_stampedWith kind) lasting

-- Stamping a target and then all targets within is stamping it with all targets within stamped.
theorem stampAll_stampedWith {node : Node} (kind : node.isTarget)
    (lasting : node.throwsLiteral = false) (text : String) :
    (node.stampedWith debugCallee text).stampAll debugCallee label =
      (node.mapChildren (stampAll debugCallee label)).stampedWith debugCallee text := by
  rw [stampAll_of_not_isTarget (isTarget_stampedWith fresh kind lasting text)]
  exact (stampedWith_eq (keepsFace_stampAll.rule (rule_stampedWith kind))).symm

-- The first pass does not change what stamping everything leads to.
theorem stampAll_stampOutermost {node : Node}
    (lasting : node.AllTargets fun part => part.throwsLiteral = false) :
    (node.stampOutermost debugCallee label).stampAll debugCallee label =
      node.stampAll debugCallee label := by
  induction node using Node.induct with
  | step node ih =>
    obtain ⟨here, below⟩ := everywhere_iff.1 lasting
    cases kind : node.isTarget with
    | true =>
      rw [stampOutermost_of_isTarget kind, stampAll_of_isTarget kind]
      exact stampAll_stampedWith fresh kind (here kind) _
    | false =>
      rw [stampOutermost_of_not_isTarget kind, stampAll_of_not_isTarget kind,
        stampAll_of_not_isTarget (isTarget_mapChildren_stampOutermost kind),
        mapChildren_mapChildren]
      apply mapChildren_congr
      intro part member
      exact ih part member (below part member)

-- Each pass takes one target off every way down.
theorem targetDepth_stampOutermost {node : Node}
    (lasting : node.AllTargets fun part => part.throwsLiteral = false) {bound : Nat}
    (deep : node.targetDepth ≤ bound + 1) :
    (node.stampOutermost debugCallee label).targetDepth ≤ bound := by
  induction node using Node.induct with
  | step node ih =>
    obtain ⟨here, below⟩ := everywhere_iff.1 lasting
    cases kind : node.isTarget with
    | true =>
      rw [stampOutermost_of_isTarget kind, targetDepth_le_iff_of_not_isTarget
        (isTarget_stampedWith fresh kind (here kind) _)]
      exact targetDepth_children_of_rule (rule_stampedWith kind)
        ((targetDepth_le_iff_of_isTarget kind).1 deep)
    | false =>
      rw [stampOutermost_of_not_isTarget kind, targetDepth_le_iff_of_not_isTarget
        (isTarget_mapChildren_stampOutermost kind), children_mapChildren]
      rw [List.forall_mem_map]
      intro part member
      apply ih part member (below part member)
      exact (targetDepth_le_iff_of_not_isTarget kind).1 deep part member

omit fresh in
/-- What is known of all targets remains known if it passes on to those that are targets again. -/
theorem allTargets_stampOutermost_of_rule {P : Node → Prop} {node : Node}
    (again : ∀ text old new, Rule debugCallee text old new → P old → new.isTarget → P new)
    (known : node.AllTargets P) : (node.stampOutermost debugCallee label).AllTargets P := by
  induction node using Node.induct with
  | step node ih =>
    obtain ⟨here, below⟩ := everywhere_iff.1 known
    cases kind : node.isTarget with
    | true =>
      have rule : Rule debugCallee (label node) node (node.stampedWith debugCallee (label node)) :=
        rule_stampedWith kind
      rw [stampOutermost_of_isTarget kind]
      exact everywhere_iff.2 ⟨again _ node _ rule (here kind), allTargets_children_of_rule rule below⟩
    | false =>
      rw [stampOutermost_of_not_isTarget kind, allTargets_iff_of_not_isTarget
        (isTarget_mapChildren_stampOutermost kind), children_mapChildren]
      rw [List.forall_mem_map]
      intro part member
      exact ih part member (below part member)

-- Where no target is one again, there are only old ones.
theorem allTargets_stampOutermost {P : Node → Prop} {node : Node}
    (lasting : node.AllTargets fun part => part.throwsLiteral = false) (known : node.AllTargets P) :
    (node.stampOutermost debugCallee label).AllTargets P := by
  have both : (node.stampOutermost debugCallee label).AllTargets
      fun part => part.throwsLiteral = false ∧ P part := by
    apply allTargets_stampOutermost_of_rule
    · intro text old new rule known kind
      simp [isTarget_of_rule fresh rule known.1] at kind
    · exact fun address part reached kind =>
        ⟨lasting address part reached kind, known address part reached kind⟩
  exact fun address part reached kind => (both address part reached kind).2

omit fresh

theorem stampAll_eq_self {node : Node} (none_ : node.targetDepth = 0) :
    node.stampAll debugCallee label = node := by
  induction node using Node.induct with
  | step node ih =>
    rw [stampAll_of_not_isTarget (isTarget_eq_false_of_targetDepth none_)]
    apply mapChildren_eq_self
    intro part member
    exact ih part member (targetDepth_of_mem_children none_ member)

end

end Node

end SourceStamp
