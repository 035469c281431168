import SourceStamp.Proofs.Syntax.Address

/-! The spans of a tree. A node holds spans of its own, those of the dots of arguments and of the
pieces of a template included, and it is found at one of them; a change of all spans moves the place
of a node in the same way, and leaves everything else as it is.
-/

set_option autoImplicit false

namespace SourceStamp

def Leaf.mapSpan (f : Span → Span) : Leaf → Leaf
  | .span old => .span (f old)
  | other => other

def Ident.mapSpan (f : Span → Span) (id : Ident) : Ident := ⟨f id.span, id.ctxt, id.name, id.optional⟩

def StringLit.mapSpan (f : Span → Span) (literal : StringLit) : StringLit :=
  ⟨f literal.span, literal.value, literal.raw⟩

def TemplateElement.mapSpan (f : Span → Span) (element : TemplateElement) : TemplateElement :=
  ⟨f element.span, element.tail, element.cooked, element.raw⟩

namespace Call

def ownSpans {α : Type} (call : Call α) : List Span :=
  call.span :: call.args.filterMap Argument.spread

def mapOwnSpans {α : Type} (f : Span → Span) (call : Call α) : Call α :=
  ⟨f call.span, call.ctxt, call.callee, call.args.map fun arg => ⟨arg.spread.map f, arg.expr⟩,
    call.typeArgs⟩

@[simp] theorem children_mapOwnSpans {α : Type} (f : Span → Span) (call : Call α) :
    (call.mapOwnSpans f).children = call.children := by
  simp [mapOwnSpans, children]

theorem mapOwnSpans_withChildren {α : Type} (f : Span → Span) (call : Call α) (parts : List α) :
    (call.withChildren parts).mapOwnSpans f = (call.mapOwnSpans f).withChildren parts := by
  cases parts with
  | nil => rfl
  | cons callee rest =>
    simp [withChildren, mapOwnSpans, List.map_zipWith, List.zipWith_map_left]

end Call

namespace Node

def ownSpans : Node → List Span
  | .leaf (.span span) => [span]
  | .leaf _ | .list _ | .record _ => []
  | .ident id => [id.span]
  | .string literal => [literal.span]
  | .template span _ quasis => span :: quasis.map TemplateElement.span
  | .call c => c.ownSpans
  | .optCall _ span _ c => span :: c.ownSpans
  | .throwStmt span _ | .binary span _ _ _ => [span]

def mapOwnSpans (f : Span → Span) : Node → Node
  | .leaf value => .leaf (value.mapSpan f)
  | .list items => .list items
  | .record fields => .record fields
  | .ident id => .ident (id.mapSpan f)
  | .string literal => .string (literal.mapSpan f)
  | .template span exprs quasis => .template (f span) exprs (quasis.map (TemplateElement.mapSpan f))
  | .call c => .call (c.mapOwnSpans f)
  | .optCall role span optional c => .optCall role (f span) optional (c.mapOwnSpans f)
  | .throwStmt span argument => .throwStmt (f span) argument
  | .binary span operator left right => .binary (f span) operator left right

def mapSpans (f : Span → Span) : Node → Node :=
  fold fun node parts => (node.withChildren parts).mapOwnSpans f

section

variable (f : Span → Span)

theorem mapSpans_eq (node : Node) :
    node.mapSpans f = (node.mapChildren (mapSpans f)).mapOwnSpans f :=
  fold_eq _ node

@[simp] theorem children_mapOwnSpans (node : Node) :
    (node.mapOwnSpans f).children = node.children := by
  cases node with
  | call c | optCall _ _ _ c => exact c.children_mapOwnSpans f
  | _ => rfl

@[simp] theorem children_mapSpans (node : Node) :
    (node.mapSpans f).children = node.children.map (mapSpans f) := by
  rw [mapSpans_eq, children_mapOwnSpans, children_mapChildren]

theorem mapOwnSpans_withChildren (node : Node) (parts : List Node) :
    (node.withChildren parts).mapOwnSpans f = (node.mapOwnSpans f).withChildren parts := by
  cases node with
  | call c => exact congrArg Node.call (c.mapOwnSpans_withChildren f parts)
  | optCall role span optional c =>
    exact congrArg (Node.optCall role (f span) optional) (c.mapOwnSpans_withChildren f parts)
  | throwStmt | binary =>
    unfold withChildren
    split <;> simp_all [mapOwnSpans]
  | _ => rfl

theorem mapSpans_withChildren (node : Node) (parts : List Node)
    (fits : parts.length = node.children.length) :
    (node.withChildren parts).mapSpans f = (node.mapSpans f).withChildren (parts.map (mapSpans f)) := by
  have again := withChildren_withChildren node (node.children.map (mapSpans f))
    (parts.map (mapSpans f)) (List.length_map _) (by rw [List.length_map, fits])
  rw [mapSpans_eq, mapChildren_withChildren _ node parts fits, ← again, mapOwnSpans_withChildren,
    mapSpans_eq]
  rfl

end

end Node

def Call.mapSpans (f : Span → Span) (call : Call Node) : Call Node :=
  (call.map (Node.mapSpans f)).mapOwnSpans f

def Argument.mapSpans (f : Span → Span) (arg : Argument Node) : Argument Node :=
  ⟨arg.spread.map f, arg.expr.mapSpans f⟩

@[simp] theorem Call.args_mapSpans (f : Span → Span) (call : Call Node) :
    (call.mapSpans f).args = call.args.map (Argument.mapSpans f) :=
  List.map_map

namespace Node

section

variable (f : Span → Span)

@[simp] theorem mapSpans_leaf (value : Leaf) : mapSpans f (.leaf value) = .leaf (value.mapSpan f) := rfl

@[simp] theorem mapSpans_list (items : List Node) :
    mapSpans f (.list items) = .list (items.map (mapSpans f)) :=
  mapSpans_eq f _

@[simp] theorem mapSpans_ident (id : Ident) : mapSpans f (.ident id) = .ident (id.mapSpan f) := rfl

@[simp] theorem mapSpans_string (literal : StringLit) :
    mapSpans f (.string literal) = .string (literal.mapSpan f) := rfl

@[simp] theorem mapSpans_template (span : Span) (exprs : List Node) (quasis : List TemplateElement) :
    mapSpans f (.template span exprs quasis) =
      .template (f span) (exprs.map (mapSpans f)) (quasis.map (TemplateElement.mapSpan f)) :=
  mapSpans_eq f _

@[simp] theorem mapSpans_call (c : Call Node) : mapSpans f (.call c) = .call (c.mapSpans f) := by
  rw [mapSpans_eq, mapChildren_call]
  rfl

@[simp] theorem mapSpans_optCall (role : ChainRole) (span : Span) (optional : Bool) (c : Call Node) :
    mapSpans f (.optCall role span optional c) = .optCall role (f span) optional (c.mapSpans f) := by
  rw [mapSpans_eq, mapChildren_optCall]
  rfl

@[simp] theorem mapSpans_throwStmt (span : Span) (argument : Node) :
    mapSpans f (.throwStmt span argument) = .throwStmt (f span) (argument.mapSpans f) := rfl

@[simp] theorem mapSpans_binary (span : Span) (operator : String) (left right : Node) :
    mapSpans f (.binary span operator left right) =
      .binary (f span) operator (left.mapSpans f) (right.mapSpans f) := rfl

@[simp] theorem mapSpans_record (fields : List (String × Node)) :
    mapSpans f (.record fields) = .record (fields.map fun field => (field.1, field.2.mapSpans f)) := by
  rw [mapSpans_eq, mapChildren_record]
  rfl

end

def leafSpan : Node → Span
  | .leaf (.span span) => span
  | _ => .dummy

theorem span_record (fields : List (String × Node)) :
    (record fields).span = ((fields.lookup "span").map leafSpan).getD .dummy := by
  unfold span
  dsimp only
  split
  · rename_i found
    rw [found]
    rfl
  · rename_i other
    cases found : fields.lookup "span" with
    | none => rfl
    | some part =>
      rw [Option.map_some, Option.getD_some]
      unfold leafSpan
      split
      · exact absurd found (other _)
      · rfl

theorem lookup_map {α β : Type} (f : α → β) (name : String) (fields : List (String × α)) :
    (fields.map fun field => (field.1, f field.2)).lookup name = (fields.lookup name).map f := by
  induction fields with
  | nil => rfl
  | cons field fields ih =>
    rw [List.map_cons, List.lookup_cons, List.lookup_cons, ih]
    split <;> rfl

/-- What holds of all spans of a tree holds of its own place, unless it has none. -/
theorem Everywhere.of_span {P : Span → Prop} {node : Node}
    (all : node.Everywhere fun part => ∀ span ∈ part.ownSpans, P span) (none_ : P .dummy) :
    P node.span := by
  obtain ⟨here, below⟩ := everywhere_iff.1 all
  cases node with
  | leaf | list => exact none_
  | record fields =>
    unfold span
    dsimp only
    split
    · rename_i place found
      obtain ⟨before, after, rfl, -⟩ := List.lookup_eq_some_iff.1 found
      have part : leaf (.span place) ∈ (record (before ++ ("span", leaf (.span place)) :: after)).children := by
        simp [children]
      exact (everywhere_iff.1 (below _ part)).1 place List.mem_cons_self
    · exact none_
  | _ => exact here _ List.mem_cons_self

variable {f : Span → Span} (made : f .dummy = .dummy)
include made

theorem leafSpan_mapSpans (node : Node) : (node.mapSpans f).leafSpan = f node.leafSpan := by
  cases node with
  | leaf value => cases value <;> simp [Leaf.mapSpan, leafSpan, made]
  | _ => simp [leafSpan, made]

/-- A node is moved with its spans; one without a span has no place before and after. -/
theorem span_mapSpans (node : Node) : (node.mapSpans f).span = f node.span := by
  cases node with
  | leaf | list => exact made.symm
  | record fields =>
    rw [mapSpans_record, span_record, span_record, lookup_map, Option.map_map]
    cases fields.lookup "span" with
    | none => exact made.symm
    | some part => exact leafSpan_mapSpans made part
  | call c =>
    rw [mapSpans_call]
    rfl
  | optCall role span optional c =>
    rw [mapSpans_optCall]
    rfl
  | _ => rfl

end Node

end SourceStamp
