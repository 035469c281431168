import SourceStamp.Span

/-! Syntax trees of JavaScript and TypeScript. The nodes that stamping reads or makes have a
constructor of their own; every other node is a record of named parts, so that a tree of any kind
of program can be walked and written back. -/

set_option autoImplicit false

namespace SourceStamp

/-- A part without parts. Numbers are kept as they are spelled. -/
inductive Leaf where
  | null
  | bool (value : Bool)
  | number (lexeme : String)
  | text (value : String)
  | span (value : Span)
  deriving DecidableEq

structure Ident where
  span : Span
  ctxt : Nat
  name : String
  optional : Bool
  deriving DecidableEq

/-- A string literal; `raw` is its source text, which a printer prefers over the value. -/
structure StringLit where
  span : Span
  value : String
  raw : Option String
  deriving DecidableEq

/-- A piece of text in a template literal; one with a bad escape has no cooked text. -/
structure TemplateElement where
  span : Span
  tail : Bool
  cooked : Option String
  raw : String
  deriving DecidableEq

/-- An argument of a call. A spread one has the span of its three dots. -/
structure Argument (α : Type) where
  spread : Option Span
  expr : α

structure Call (α : Type) where
  span : Span
  ctxt : Nat
  callee : α
  args : List (Argument α)
  typeArgs : Option α

inductive ChainRole where
  | expression
  | assignTarget
  deriving DecidableEq

inductive Node where
  | leaf (leaf : Leaf)
  | list (items : List Node)
  | record (fields : List (String × Node))
  | ident (ident : Ident)
  | string (literal : StringLit)
  | template (span : Span) (exprs : List Node) (quasis : List TemplateElement)
  | call (call : Call Node)
  -- An optional chain that ends in a call; `span` is the span of the chain.
  | optCall (role : ChainRole) (span : Span) (optional : Bool) (call : Call Node)
  | throwStmt (span : Span) (argument : Node)
  | binary (span : Span) (operator : String) (left right : Node)
  deriving Inhabited

def Call.children {α : Type} (call : Call α) : List α :=
  call.callee :: (call.args.map Argument.expr ++ call.typeArgs.toList)

def Call.withChildren {α : Type} (call : Call α) : List α → Call α
  | [] => call
  | callee :: rest =>
    let (args, typeArgs) := rest.splitAt call.args.length
    ⟨call.span, call.ctxt, callee, call.args.zipWith (fun arg expr => ⟨arg.spread, expr⟩) args,
      typeArgs.head?⟩

namespace Node

def children : Node → List Node
  | .leaf _ | .ident _ | .string _ => []
  | .list items => items
  | .record fields => fields.map Prod.snd
  | .template _ exprs _ => exprs
  | .call c | .optCall _ _ _ c => c.children
  | .throwStmt _ argument => [argument]
  | .binary _ _ left right => [left, right]

def withChildren (node : Node) (parts : List Node) : Node :=
  match node, parts with
  | .list _, parts => .list parts
  | .record fields, parts => .record (fields.zipWith (fun field part => (field.1, part)) parts)
  | .template span _ quasis, parts => .template span parts quasis
  | .call c, parts => .call (c.withChildren parts)
  | .optCall role span optional c, parts => .optCall role span optional (c.withChildren parts)
  | .throwStmt span _, [argument] => .throwStmt span argument
  | .binary span operator _ _, [left, right] => .binary span operator left right
  | node, _ => node

/-- The span of an expression or statement; a part without one counts as made up. -/
def span : Node → Span
  | .ident id => id.span
  | .string literal => literal.span
  | .template span _ _ | .optCall _ span _ _ | .throwStmt span _ | .binary span _ _ _ => span
  | .call c => c.span
  | .record fields =>
    match fields.lookup "span" with
    | some (.leaf (.span span)) => span
    | _ => .dummy
  | .leaf _ | .list _ => .dummy

mutual

/-- Recursion over a tree: `step` gets each node as it stands, with the results of its children. -/
def fold {α : Type} (step : Node → List α → α) : Node → α
  | .leaf value => step (.leaf value) []
  | .ident id => step (.ident id) []
  | .string literal => step (.string literal) []
  | .list items => step (.list items) (foldList step items)
  | .record fields => step (.record fields) (foldFields step fields)
  | .template span exprs quasis => step (.template span exprs quasis) (foldList step exprs)
  | .call c => step (.call c) (foldCall step c)
  | .optCall role span optional c => step (.optCall role span optional c) (foldCall step c)
  | .throwStmt span argument => step (.throwStmt span argument) [fold step argument]
  | .binary span operator left right =>
    step (.binary span operator left right) [fold step left, fold step right]

def foldList {α : Type} (step : Node → List α → α) : List Node → List α
  | [] => []
  | node :: rest => fold step node :: foldList step rest

def foldFields {α : Type} (step : Node → List α → α) : List (String × Node) → List α
  | [] => []
  | (_, node) :: rest => fold step node :: foldFields step rest

def foldArgs {α : Type} (step : Node → List α → α) : List (Argument Node) → List α
  | [] => []
  | ⟨_, expr⟩ :: rest => fold step expr :: foldArgs step rest

def foldOption {α : Type} (step : Node → List α → α) : Option Node → List α
  | none => []
  | some node => [fold step node]

def foldCall {α : Type} (step : Node → List α → α) : Call Node → List α
  | ⟨_, _, callee, args, typeArgs⟩ =>
    fold step callee :: (foldArgs step args ++ foldOption step typeArgs)

end

section

variable {α : Type} (step : Node → List α → α)

theorem foldList_eq_map (nodes : List Node) : foldList step nodes = nodes.map (fold step) := by
  induction nodes with
  | nil => rfl
  | cons node rest ih => simp [foldList, ih]

theorem foldFields_eq_map (fields : List (String × Node)) :
    foldFields step fields = (fields.map Prod.snd).map (fold step) := by
  induction fields with
  | nil => rfl
  | cons field rest ih => simp [foldFields, ih]

theorem foldArgs_eq_map (args : List (Argument Node)) :
    foldArgs step args = (args.map Argument.expr).map (fold step) := by
  induction args with
  | nil => rfl
  | cons arg rest ih => simp [foldArgs, ih]

theorem foldOption_eq_map (node : Option Node) :
    foldOption step node = node.toList.map (fold step) := by
  cases node <;> rfl

theorem foldCall_eq_map (c : Call Node) : foldCall step c = c.children.map (fold step) := by
  obtain ⟨span, ctxt, callee, args, typeArgs⟩ := c
  simp [foldCall, Call.children, foldArgs_eq_map, foldOption_eq_map]

theorem fold_eq (node : Node) : fold step node = step node (node.children.map (fold step)) := by
  cases node <;>
    simp [fold, children, foldList_eq_map, foldFields_eq_map, foldCall_eq_map]

end

theorem sizeOf_lt_of_mem_children {node part : Node} (h : part ∈ node.children) :
    sizeOf part < sizeOf node := by
  have inCall : ∀ c : Call Node, part ∈ c.children → sizeOf part < sizeOf c := by
    rintro ⟨span, ctxt, callee, args, typeArgs⟩ h
    simp only [Call.children, List.mem_cons, List.mem_append, List.mem_map, Option.mem_toList] at h
    rcases h with h | ⟨arg, h, eq⟩ | h
    · subst h; simp +arith
    · have := List.sizeOf_lt_of_mem h
      have : sizeOf arg.expr < sizeOf arg := by cases arg; simp +arith
      subst eq; simp +arith; omega
    · subst h; simp +arith
  cases node with
  | leaf => simp [children] at h
  | ident => simp [children] at h
  | string => simp [children] at h
  | list items => have : sizeOf part < sizeOf items := List.sizeOf_lt_of_mem h; simp; omega
  | record fields =>
    obtain ⟨field, h, eq⟩ := List.mem_map.1 h
    have := List.sizeOf_lt_of_mem h
    have : sizeOf field.2 < sizeOf field := by cases field; simp +arith
    subst eq; simp; omega
  | template span exprs quasis =>
    have : sizeOf part < sizeOf exprs := List.sizeOf_lt_of_mem h; simp; omega
  | call c => have := inCall c h; simp; omega
  | optCall role span optional c => have := inCall c h; simp; omega
  | throwStmt span argument => simp [children] at h; subst h; simp +arith
  | binary span operator left right =>
    simp [children] at h; rcases h with h | h <;> subst h <;> simp +arith

/-- A property holds of every tree if it passes from the children of a node to the node. -/
theorem induct {P : Node → Prop}
    (step : ∀ node : Node, (∀ part ∈ node.children, P part) → P node) (node : Node) : P node :=
  step node fun part _ => induct step part
termination_by sizeOf node
decreasing_by exact sizeOf_lt_of_mem_children (by assumption)

end Node

theorem Call.withChildren_children {α : Type} (call : Call α) :
    call.withChildren call.children = call := by
  obtain ⟨span, ctxt, callee, args, typeArgs⟩ := call
  have same : args.zipWith (fun arg expr => ⟨arg.spread, expr⟩) (args.map Argument.expr) = args := by
    induction args with
    | nil => rfl
    | cons arg args ih => simp [ih]
  have fits : (args.map Argument.expr).length = args.length := List.length_map _
  simp only [Call.children, Call.withChildren, List.splitAt_eq, ← fits, List.take_left,
    List.drop_left, same]
  cases typeArgs <;> rfl

theorem Node.withChildren_children (node : Node) : node.withChildren node.children = node := by
  have same : ∀ fields : List (String × Node),
      fields.zipWith (fun field part => (field.1, part)) (fields.map Prod.snd) = fields := by
    intro fields
    induction fields with
    | nil => rfl
    | cons field fields ih => simp [ih]
  cases node <;> simp [withChildren, children, Call.withChildren_children, same]

end SourceStamp
