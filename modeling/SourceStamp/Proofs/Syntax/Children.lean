import SourceStamp.Syntax.Node

/-! Nodes and their children. What a node is apart from its children and what its children are vary
independently (`children_withChildren`), and a function on nodes acts on the children alone.
-/

set_option autoImplicit false

namespace SourceStamp

-- Lists of one length: the pairs of a `zipWith` give back the second list.
theorem map_zipWith_eq_right {α β γ : Type} {pair : α → β → γ} {second : γ → β}
    (project : ∀ a b, second (pair a b) = b) (as : List α) (bs : List β)
    (fits : bs.length = as.length) : (as.zipWith pair bs).map second = bs := by
  induction as generalizing bs with
  | nil => cases bs <;> simp at fits ⊢
  | cons a as ih =>
    cases bs with
    | nil => simp at fits
    | cons b bs => simp [project, ih bs (Nat.add_right_cancel fits)]

-- Where the first list takes a value of the second in, the value it took before is gone.
theorem zipWith_zipWith_left_of_overwrites {α β : Type} (pair : α → β → α)
    (overwrites : ∀ a b b', pair (pair a b) b' = pair a b') (as : List α) (bs bs' : List β)
    (fits : bs.length = as.length) : (as.zipWith pair bs).zipWith pair bs' = as.zipWith pair bs' := by
  induction as generalizing bs bs' with
  | nil => rfl
  | cons a as ih =>
    cases bs with
    | nil => simp at fits
    | cons b bs =>
      cases bs' with
      | nil => rfl
      | cons b' bs' => simp [overwrites, ih bs bs' (Nat.add_right_cancel fits)]

theorem Call.children_withChildren {α : Type} (call : Call α) (parts : List α)
    (fits : parts.length = call.children.length) : (call.withChildren parts).children = parts := by
  obtain ⟨span, ctxt, callee, args, typeArgs⟩ := call
  cases parts with
  | nil => simp [Call.children] at fits
  | cons first rest =>
    have size : rest.length = args.length + typeArgs.toList.length := by
      simpa [Call.children] using fits
    have exprs : (args.zipWith (fun arg expr => (⟨arg.spread, expr⟩ : Argument α))
        (rest.take args.length)).map Argument.expr = rest.take args.length :=
      map_zipWith_eq_right (fun _ _ => rfl) _ _ (by simp; omega)
    have atMostOne : (rest.drop args.length).head?.toList = rest.drop args.length := by
      have : (rest.drop args.length).length ≤ 1 := by
        cases typeArgs <;> simp at size ⊢ <;> omega
      obtain none_ | one := Nat.le_one_iff_eq_zero_or_eq_one.1 this
      · rw [List.eq_nil_of_length_eq_zero none_]
        rfl
      · obtain ⟨part, only⟩ := List.length_eq_one_iff.1 one
        rw [only]
        rfl
    simp only [Call.withChildren, List.splitAt_eq, Call.children]
    rw [exprs, atMostOne, List.take_append_drop]

theorem Call.withChildren_withChildren {α : Type} (call : Call α) (parts others : List α)
    (fits : parts.length = call.children.length) (fits' : others.length = call.children.length) :
    (call.withChildren parts).withChildren others = call.withChildren others := by
  obtain ⟨span, ctxt, callee, args, typeArgs⟩ := call
  cases parts with
  | nil => simp [Call.children] at fits
  | cons first rest =>
    cases others with
    | nil => simp [Call.children] at fits'
    | cons first' rest' =>
      have size : (rest.take args.length).length = args.length := by
        have : rest.length = args.length + typeArgs.toList.length := by
          simpa [Call.children] using fits
        simp [this]
      have args' := zipWith_zipWith_left_of_overwrites
        (fun (arg : Argument α) expr => ⟨arg.spread, expr⟩) (fun _ _ _ => rfl) args
        (rest.take args.length) (rest'.take args.length) size
      simp only [Call.withChildren, List.splitAt_eq, List.length_zipWith, size, Nat.min_self, args']

def Call.map {α β : Type} (f : α → β) (call : Call α) : Call β :=
  ⟨call.span, call.ctxt, f call.callee, call.args.map fun arg => ⟨arg.spread, f arg.expr⟩,
    call.typeArgs.map f⟩

theorem Call.children_map {α β : Type} (f : α → β) (call : Call α) :
    (call.map f).children = call.children.map f := by
  obtain ⟨span, ctxt, callee, args, typeArgs⟩ := call
  cases typeArgs <;> simp [Call.map, Call.children]

theorem Call.withChildren_map {α : Type} (f : α → α) (call : Call α) :
    call.withChildren (call.children.map f) = call.map f := by
  have same := (call.map f).withChildren_children
  rw [Call.children_map] at same
  apply Eq.trans _ same
  obtain ⟨span, ctxt, callee, args, typeArgs⟩ := call
  simp only [Call.children, List.map_cons, Call.withChildren, Call.map, List.length_map,
    List.splitAt_eq, List.zipWith_map_left]

namespace Node

@[simp] theorem children_withChildren (node : Node) (parts : List Node)
    (fits : parts.length = node.children.length) : (node.withChildren parts).children = parts := by
  cases node with
  | leaf | ident | string => exact (List.eq_nil_of_length_eq_zero fits).symm
  | list | template => rfl
  | record fields => exact map_zipWith_eq_right (fun _ _ => rfl) fields parts (by simpa [children] using fits)
  | call c => exact c.children_withChildren parts fits
  | optCall role span optional c => exact c.children_withChildren parts fits
  | throwStmt span argument =>
    obtain ⟨part, rfl⟩ := List.length_eq_one_iff.1 fits
    rfl
  | binary span operator left right =>
    obtain ⟨first, rest, rfl⟩ := List.exists_cons_of_length_eq_add_one fits
    obtain ⟨second, rfl⟩ := List.length_eq_one_iff.1 (Nat.add_right_cancel fits)
    rfl

theorem withChildren_withChildren (node : Node) (parts others : List Node)
    (fits : parts.length = node.children.length) (fits' : others.length = node.children.length) :
    (node.withChildren parts).withChildren others = node.withChildren others := by
  cases node with
  | leaf | ident | string | list | template => rfl
  | record fields =>
    exact congrArg Node.record (zipWith_zipWith_left_of_overwrites
      (fun field part => (field.1, part)) (fun _ _ _ => rfl) fields parts others
      (by simpa [children] using fits))
  | call c => exact congrArg Node.call (c.withChildren_withChildren parts others fits fits')
  | optCall role span optional c =>
    exact congrArg (Node.optCall role span optional)
      (c.withChildren_withChildren parts others fits fits')
  | throwStmt span argument =>
    obtain ⟨part, rfl⟩ := List.length_eq_one_iff.1 fits
    obtain ⟨other, rfl⟩ := List.length_eq_one_iff.1 fits'
    rfl
  | binary span operator left right =>
    obtain ⟨first, rest, rfl⟩ := List.exists_cons_of_length_eq_add_one fits
    obtain ⟨second, rfl⟩ := List.length_eq_one_iff.1 (Nat.add_right_cancel fits)
    obtain ⟨first', rest', rfl⟩ := List.exists_cons_of_length_eq_add_one fits'
    obtain ⟨second', rfl⟩ := List.length_eq_one_iff.1 (Nat.add_right_cancel fits')
    rfl

def mapChildren (f : Node → Node) (node : Node) : Node := node.withChildren (node.children.map f)

@[simp] theorem children_mapChildren (f : Node → Node) (node : Node) :
    (node.mapChildren f).children = node.children.map f :=
  children_withChildren node _ (List.length_map f)

@[simp] theorem mapChildren_record (f : Node → Node) (fields : List (String × Node)) :
    mapChildren f (.record fields) = .record (fields.map fun field => (field.1, f field.2)) := by
  have same : ∀ fields : List (String × Node),
      fields.zipWith (fun field part => (field.1, part)) ((fields.map Prod.snd).map f) =
        fields.map fun field => (field.1, f field.2) := by
    intro fields
    induction fields with
    | nil => rfl
    | cons field fields ih => simpa using ih
  exact congrArg Node.record (same fields)

@[simp] theorem mapChildren_call (f : Node → Node) (c : Call Node) :
    mapChildren f (.call c) = .call (c.map f) :=
  congrArg Node.call (c.withChildren_map f)

@[simp] theorem mapChildren_optCall (f : Node → Node) (role : ChainRole) (span : Span)
    (optional : Bool) (c : Call Node) :
    mapChildren f (.optCall role span optional c) = .optCall role span optional (c.map f) :=
  congrArg (Node.optCall role span optional) (c.withChildren_map f)

@[simp] theorem mapChildren_throwStmt (f : Node → Node) (span : Span) (argument : Node) :
    mapChildren f (.throwStmt span argument) = .throwStmt span (f argument) := rfl

theorem mapChildren_congr {f g : Node → Node} {node : Node}
    (same : ∀ part ∈ node.children, f part = g part) : node.mapChildren f = node.mapChildren g :=
  congrArg node.withChildren (List.map_congr_left same)

theorem mapChildren_eq_self {f : Node → Node} {node : Node}
    (same : ∀ part ∈ node.children, f part = part) : node.mapChildren f = node := by
  unfold mapChildren
  rw [List.map_congr_left same, List.map_id']
  exact node.withChildren_children

theorem mapChildren_withChildren (f : Node → Node) (node : Node) (parts : List Node)
    (fits : parts.length = node.children.length) :
    (node.withChildren parts).mapChildren f = node.withChildren (parts.map f) := by
  rw [mapChildren, children_withChildren node parts fits]
  exact withChildren_withChildren node _ _ fits (by rw [List.length_map, fits])

theorem mapChildren_mapChildren (f g : Node → Node) (node : Node) :
    (node.mapChildren f).mapChildren g = node.mapChildren fun part => g (f part) := by
  have again := mapChildren_withChildren g node (node.children.map f) (List.length_map f)
  rw [List.map_map] at again
  exact again

end Node

end SourceStamp
