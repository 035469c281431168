import SourceStamp.Json.Basic
import SourceStamp.Syntax.Node

/-! Syntax trees as JSON. An object with a known `type` and exactly the members of that type becomes
the node of its kind, a pair of positions becomes a span, and any other object becomes a record with
its members in order. -/

set_option autoImplicit false

namespace SourceStamp.Node

abbrev Fields : Type := List (String × Node)

def null? : Node → Option Unit
  | .leaf .null => some ()
  | _ => none

def bool? : Node → Option Bool
  | .leaf (.bool value) => some value
  | _ => none

def nat? : Node → Option Nat
  | .leaf (.number lexeme) => Json.nat? (.number lexeme)
  | _ => none

def text? : Node → Option String
  | .leaf (.text value) => some value
  | _ => none

def span? : Node → Option Span
  | .leaf (.span value) => some value
  | _ => none

def items? : Node → Option (List Node)
  | .list items => some items
  | _ => none

def orNull? {α : Type} (read? : Node → Option α) (node : Node) : Option (Option α) :=
  if node.null?.isSome then some none else (read? node).map some

def Fields.get? {α : Type} (fields : Fields) (name : String) (read? : Node → Option α) : Option α :=
  fields.lookup name >>= read?

def Fields.isOf (fields : Fields) (name : String) (size : Nat) : Bool :=
  fields.length == size && fields.get? "type" text? == some name

def spanOf? (fields : Fields) : Option Node := do
  guard (fields.length = 2)
  return .leaf (.span ⟨← fields.get? "start" nat?, ← fields.get? "end" nat?⟩)

def identOf? (fields : Fields) : Option Node := do
  guard (fields.isOf "Identifier" 5)
  return .ident ⟨← fields.get? "span" span?, ← fields.get? "ctxt" nat?,
    ← fields.get? "value" text?, ← fields.get? "optional" bool?⟩

def stringOf? (fields : Fields) : Option Node := do
  guard (fields.isOf "StringLiteral" 4)
  return .string ⟨← fields.get? "span" span?, ← fields.get? "value" text?,
    ← fields.get? "raw" (orNull? text?)⟩

def element? : Node → Option TemplateElement
  | .record fields => do
    guard (Fields.isOf fields "TemplateElement" 5)
    return ⟨← Fields.get? fields "span" span?, ← Fields.get? fields "tail" bool?,
      ← Fields.get? fields "cooked" (orNull? text?), ← Fields.get? fields "raw" text?⟩
  | _ => none

def templateOf? (fields : Fields) : Option Node := do
  guard (fields.isOf "TemplateLiteral" 4)
  let quasis ← fields.get? "quasis" items?
  return .template (← fields.get? "span" span?) (← fields.get? "expressions" items?)
    (← quasis.mapM element?)

def argument? : Node → Option (Argument Node)
  | .record fields => do
    guard (fields.length = 2)
    return ⟨← Fields.get? fields "spread" (orNull? span?), ← Fields.get? fields "expression" some⟩
  | _ => none

def callOf? (fields : Fields) : Option Node := do
  guard (fields.isOf "CallExpression" 6)
  let args ← fields.get? "arguments" items?
  return .call ⟨← fields.get? "span" span?, ← fields.get? "ctxt" nat?, ← fields.get? "callee" some,
    ← args.mapM argument?, ← fields.get? "typeArguments" (orNull? some)⟩

def call? : Node → Option (Call Node)
  | .call c => some c
  | _ => none

/-- An optional chain that ends in a call. Its call was read before it as a plain one. -/
def chainOf? (fields : Fields) : Option Node := do
  guard (fields.isOf "OptionalChainingExpression" 4)
  return .optCall .expression (← fields.get? "span" span?) (← fields.get? "optional" bool?)
    (← fields.get? "base" call?)

def throwOf? (fields : Fields) : Option Node := do
  guard (fields.isOf "ThrowStatement" 3)
  return .throwStmt (← fields.get? "span" span?) (← fields.get? "argument" some)

def binaryOf? (fields : Fields) : Option Node := do
  guard (fields.isOf "BinaryExpression" 5)
  return .binary (← fields.get? "span" span?) (← fields.get? "operator" text?)
    (← fields.get? "left" some) (← fields.get? "right" some)

-- An optional chain that is assigned to is no expression.
def asTarget : Node → Node
  | .optCall _ span optional c => .optCall .assignTarget span optional c
  | node => node

def recordOf (fields : Fields) : Node :=
  if fields.get? "type" text? = some "AssignmentExpression" then
    .record (fields.map fun (name, part) => (name, if name = "left" then part.asTarget else part))
  else .record fields

def ofFields (fields : Fields) : Node :=
  let kinds := [spanOf?, identOf?, stringOf?, templateOf?, callOf?, chainOf?, throwOf?, binaryOf?]
  (kinds.findSome? fun kind? => kind? fields).getD (recordOf fields)

mutual

def ofJson? : Json → Option Node
  | .null => some (.leaf .null)
  | .bool value => some (.leaf (.bool value))
  | .number lexeme => some (.leaf (.number lexeme))
  | .string text => text.map fun value => .leaf (.text value)
  | .array items => (ofItems? items).map .list
  | .object members => (ofMembers? members).map ofFields

def ofItems? : List Json → Option (List Node)
  | [] => some []
  | item :: rest => do return (← ofJson? item) :: (← ofItems? rest)

def ofMembers? : List (Option String × Json) → Option Fields
  | [] => some []
  | (key, value) :: rest => do return (← key, ← ofJson? value) :: (← ofMembers? rest)

end

end SourceStamp.Node

namespace SourceStamp

def Span.toJson (span : Span) : Json :=
  .ofFields [("start", .ofNat span.start), ("end", .ofNat span.stop)]

def Json.orNull {α : Type} (write : α → Json) (value : Option α) : Json :=
  (value.map write).getD .null

def Leaf.toJson : Leaf → Json
  | .null => .null
  | .bool value => .bool value
  | .number lexeme => .number lexeme
  | .text value => .ofText value
  | .span value => value.toJson

def Ident.toJson (ident : Ident) : Json :=
  .ofFields [("type", .ofText "Identifier"), ("span", ident.span.toJson),
    ("ctxt", .ofNat ident.ctxt), ("value", .ofText ident.name), ("optional", .bool ident.optional)]

def StringLit.toJson (literal : StringLit) : Json :=
  .ofFields [("type", .ofText "StringLiteral"), ("span", literal.span.toJson),
    ("value", .ofText literal.value), ("raw", .orNull .ofText literal.raw)]

def TemplateElement.toJson (element : TemplateElement) : Json :=
  .ofFields [("type", .ofText "TemplateElement"), ("span", element.span.toJson),
    ("tail", .bool element.tail), ("cooked", .orNull .ofText element.cooked),
    ("raw", .ofText element.raw)]

namespace Node

mutual

def toJson : Node → Json
  | .leaf value => value.toJson
  | .list items => .array (itemsToJson items)
  | .record fields => .ofFields (fieldsToJson fields)
  | .ident id => id.toJson
  | .string literal => literal.toJson
  | .template span exprs quasis =>
    .ofFields [("type", .ofText "TemplateLiteral"), ("span", span.toJson),
      ("expressions", .array (itemsToJson exprs)),
      ("quasis", .array (quasis.map TemplateElement.toJson))]
  | .call c => callToJson c
  | .optCall _ span optional c =>
    .ofFields [("type", .ofText "OptionalChainingExpression"), ("span", span.toJson),
      ("optional", .bool optional), ("base", callToJson c)]
  | .throwStmt span argument =>
    .ofFields [("type", .ofText "ThrowStatement"), ("span", span.toJson),
      ("argument", toJson argument)]
  | .binary span operator left right =>
    .ofFields [("type", .ofText "BinaryExpression"), ("span", span.toJson),
      ("operator", .ofText operator), ("left", toJson left), ("right", toJson right)]

def itemsToJson : List Node → List Json
  | [] => []
  | node :: rest => toJson node :: itemsToJson rest

def fieldsToJson : List (String × Node) → List (String × Json)
  | [] => []
  | (name, node) :: rest => (name, toJson node) :: fieldsToJson rest

def argsToJson : List (Argument Node) → List Json
  | [] => []
  | ⟨spread, expr⟩ :: rest =>
    .ofFields [("spread", .orNull Span.toJson spread), ("expression", toJson expr)]
      :: argsToJson rest

def typeArgsToJson : Option Node → Json
  | none => .null
  | some node => toJson node

def callToJson : Call Node → Json
  | ⟨span, ctxt, callee, args, typeArgs⟩ =>
    .ofFields [("type", .ofText "CallExpression"), ("span", span.toJson), ("ctxt", .ofNat ctxt),
      ("callee", toJson callee), ("arguments", .array (argsToJson args)),
      ("typeArguments", typeArgsToJson typeArgs)]

end

end Node

end SourceStamp
