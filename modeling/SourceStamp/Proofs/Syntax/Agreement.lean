import SourceStamp.Proofs.Syntax.Address

/-! Two trees of one shape. They have nodes at the same addresses, and the two nodes at an address
differ at most in what is below them, except at some addresses and in ways that are given.
-/

set_option autoImplicit false

namespace SourceStamp

theorem Call.withChildren_congr {α : Type} {c d : Call α} (span : c.span = d.span)
    (ctxt : c.ctxt = d.ctxt) (spreads : c.args.map Argument.spread = d.args.map Argument.spread)
    (callee : α) (rest : List α) :
    c.withChildren (callee :: rest) = d.withChildren (callee :: rest) := by
  have argsWith : ∀ (call : Call α) (parts : List α),
      call.args.zipWith (fun arg expr => ⟨arg.spread, expr⟩) parts =
        (call.args.map Argument.spread).zipWith (fun spread expr => (⟨spread, expr⟩ : Argument α)) parts := by
    intro call parts
    rw [List.zipWith_map_left]
  have lengths : c.args.length = d.args.length := by
    simpa using congrArg List.length spreads
  simp only [Call.withChildren, List.splitAt_eq, argsWith, span, ctxt, spreads, lengths]

theorem rel_imp {α β : Type} {related related' : α → β → Prop} {first : Option α}
    {second : Option β} (rel : Option.Rel related first second)
    (each : ∀ a b, related a b → related' a b) : Option.Rel related' first second := by
  cases rel with
  | none => exact .none
  | some related => exact .some (each _ _ related)

theorem rel_bind {α β γ δ : Type} {related : α → β → Prop} {related' : γ → δ → Prop}
    {first : Option α} {second : Option β} {next : α → Option γ} {next' : β → Option δ}
    (rel : Option.Rel related first second)
    (each : ∀ a b, related a b → Option.Rel related' (next a) (next' b)) :
    Option.Rel related' (first >>= next) (second >>= next') := by
  cases rel with
  | none => exact .none
  | some related => exact each _ _ related

namespace Node

theorem alike_refl (node : Node) : node.Alike node := ⟨node.withChildren_children.symm, rfl⟩

theorem alike_call {c d : Call Node} (span : c.span = d.span) (ctxt : c.ctxt = d.ctxt)
    (spreads : c.args.map Argument.spread = d.args.map Argument.spread)
    (typeArgs : c.typeArgs.isSome = d.typeArgs.isSome) : (call c).Alike (call d) := by
  have lengths : c.args.length = d.args.length := by
    simpa using congrArg List.length spreads
  constructor
  · have same := Call.withChildren_congr span ctxt spreads d.callee
      (d.args.map Argument.expr ++ d.typeArgs.toList)
    exact congrArg Node.call (d.withChildren_children.symm.trans same.symm)
  · simp only [children, Call.children, List.length_cons, List.length_append, List.length_map, lengths]
    cases hc : c.typeArgs <;> cases hd : d.typeArgs <;> simp [hc, hd] at typeArgs ⊢

/-- At every address both trees have a node or neither has, and the two nodes are alike unless they
vary in a way that is allowed there. -/
def Agree (varies : Address → Node → Node → Prop) (first second : Node) : Prop :=
  ∀ address, Option.Rel (fun node other => node.Alike other ∨ varies address node other)
    (first.at? address) (second.at? address)

variable {varies : Address → Node → Node → Prop}

theorem agree_refl (node : Node) : Agree varies node node := by
  intro address
  cases node.at? address with
  | none => exact .none
  | some part => exact .some (.inl part.alike_refl)

theorem rel_agree_self (part : Option Node) : Option.Rel (Agree varies) part part := by
  cases part with
  | none => exact .none
  | some part => exact .some (agree_refl part)

theorem Agree.mono {varies' : Address → Node → Node → Prop} {first second : Node}
    (agree : Agree varies first second)
    (more : ∀ address node other, varies address node other → varies' address node other) :
    Agree varies' first second :=
  fun address => rel_imp (agree address) fun node other => Or.imp_right (more address node other)

theorem agree_of_children {first second : Node} (here : first.Alike second ∨ varies [] first second)
    (below : ∀ index, Option.Rel (Agree fun rest => varies (index :: rest))
      first.children[index]? second.children[index]?) : Agree varies first second := by
  intro address
  cases address with
  | nil => exact .some here
  | cons index rest =>
    exact rel_bind (below index) fun _ _ agree => agree rest

theorem agree_of_no_children {first second : Node} (none_ : first.children = [])
    (none' : second.children = []) (here : first.Alike second ∨ varies [] first second) :
    Agree varies first second := by
  apply agree_of_children here
  intro index
  rw [none_, none']
  exact .none

theorem agree_throwStmt (span : Span) {argument other : Node}
    (below : Agree (fun rest => varies (0 :: rest)) argument other) :
    Agree varies (.throwStmt span argument) (.throwStmt span other) := by
  refine agree_of_children (.inl ⟨rfl, rfl⟩) ?_
  rintro (_ | index)
  · exact .some below
  · exact .none

end Node

end SourceStamp
