import EntityModel.Module
import EntityModel.Syntax.Literal
import EntityModel.Syntax.Tree

/-!
# Lowering syntax trees

A syntax tree is read for the expressions of declarations and forgotten. What an expression is
depends on the kind of its node and on the expressions that its children are.
-/

namespace EntityModel.Syntax

/-- A node of a syntax tree with the expression that it is, and the parts that it consists of. -/
inductive Part where
  | node (head : Node) (value : Expr) (parts : List Part)

namespace Part

def head : Part → Node
  | .node head _ _ => head

def value : Part → Expr
  | .node _ value _ => value

def parts : Part → List Part
  | .node _ _ parts => parts

def kind (part : Part) : String := part.head.kind

def text (part : Part) : String := part.head.text

/-- The first part that fills a field. -/
def field? (name : String) (parts : List Part) : Option Part :=
  parts.find? fun part => part.head.field = some name

/-- The parts that are neither tokens nor comments. -/
def named (parts : List Part) : List Part :=
  parts.filter fun part => part.head.isNamed && !part.head.isExtra

/-- The text of a node without the marks around it. -/
def unquoted (part : Part) : String := String.ofList (Literal.unquote part.text.toList)

/-- A call, or a template behind a tag. -/
def call (parts : List Part) : Expr :=
  match field? "function" parts, field? "arguments" parts with
  | some function, some arguments =>
    if arguments.kind = "template_string" then .tagged function.text arguments.unquoted
    else .call function.value ((named arguments.parts).map value)
  | _, _ => .other "call_expression"

def member (parts : List Part) : Expr :=
  match field? "object" parts, field? "property" parts with
  | some object, some property => .member object.value property.text
  | _, _ => .other "member_expression"

/-- The key of an entry: a string by what it stands for, anything else as written. -/
def key (part : Part) : String :=
  if part.kind = "string" then Literal.stringValue part.text.toList else part.text

/-- The entry of an object that a part of it is. Methods and spreads are none. -/
def entry? (part : Part) : Option (String × Expr) :=
  match part.kind with
  | "pair" => do
    let name ← field? "key" part.parts
    let entry ← field? "value" part.parts
    return (name.key, entry.value)
  | "shorthand_property_identifier" => some (part.text, .ident part.text)
  | _ => none

/-- The pattern of a parameter as written, without its type and its usual value. -/
def parameter (part : Part) : String :=
  if part.kind = "required_parameter" || part.kind = "optional_parameter" then
    ((field? "pattern" part.parts).getD part).text
  else part.text

def parameters (parts : List Part) : List String :=
  match field? "parameter" parts, field? "parameters" parts with
  | some single, _ => [single.text]
  | none, some list => (named list.parts).map parameter
  | none, none => []

/-- What the body of a function gives: its value, or the one of the first return of a block. -/
def body (parts : List Part) : Expr :=
  match field? "body" parts with
  | none => .other "arrow_function"
  | some body =>
    if body.kind = "statement_block" then
      let returned := (named body.parts).find? (·.kind = "return_statement")
      match returned.bind fun part => (named part.parts).head? with
      | some part => part.value
      | none => .other "statement_block"
    else body.value

/-- A sign in front of a number is part of it; any other operator leaves its kind only. -/
def signed (parts : List Part) : Expr :=
  let operator := ((field? "operator" parts).map text).getD ""
  match operator, (field? "argument" parts).map value with
  | "-", some (.number number) => .number (-number)
  | "+", some (.number number) => .number number
  | _, _ => .other "unary_expression"

/-- The expression that a node with some parts is. -/
def lowered (head : Node) (parts : List Part) : Expr :=
  match head.kind with
  | "string" => .string (Literal.stringValue head.text.toList)
  | "number" =>
    match Literal.numberValue? head.text.toList with
    | some value => .number value
    | none => .other "number"
  | "true" => .boolean true
  | "false" => .boolean false
  | "null" | "undefined" => .null
  | "identifier" | "property_identifier" | "shorthand_property_identifier" => .ident head.text
  | "template_string" => .template (String.ofList (Literal.unquote head.text.toList))
  | "array" => .array ((named parts).map value)
  | "object" => .object ((named parts).filterMap entry?)
  | "parenthesized_expression" =>
    match (named parts).head? with
    | some inner => .paren inner.value
    | none => .other "parenthesized_expression"
  | "call_expression" => call parts
  | "member_expression" => member parts
  | "arrow_function" => .arrow (parameters parts) (body parts)
  | "unary_expression" => signed parts
  | "as_expression" | "satisfies_expression" | "non_null_expression" =>
    match (named parts).head? with
    | some inner => inner.value
    | none => .other head.kind
  | kind => .other kind

/-- The declaration of a variable with a plain name and a value. -/
def declaration? (part : Part) : Option Declaration := do
  guard (part.kind = "variable_declarator")
  let name ← field? "name" part.parts
  guard (name.kind = "identifier")
  let init ← field? "value" part.parts
  return ⟨name.text, init.value⟩

mutual

/-- The values that a statement declares, exported or not. -/
def declarations : Part → List Declaration
  | .node head _ parts =>
    match head.kind with
    | "export_statement" => exported parts
    | "lexical_declaration" | "variable_declaration" => (named parts).filterMap declaration?
    | _ => []

/-- The values that the declaration among the parts of an export declares. -/
def exported : List Part → List Declaration
  | [] => []
  | part :: rest =>
    if part.head.field = some "declaration" then declarations part else exported rest

end

end Part

namespace Tree

mutual

def part : Tree → Part
  | .node head children =>
    let parts := partsOf children
    .node head (Part.lowered head parts) parts

def partsOf : List Tree → List Part
  | [] => []
  | tree :: rest => part tree :: partsOf rest

end

/-- The expression that a tree is. -/
def lower (tree : Tree) : Expr := tree.part.value

@[simp] theorem lower_node (head : Node) (children : List Tree) :
    (node head children).lower = Part.lowered head (partsOf children) := rfl

/-- The values declared by the statements of a source text, in order. -/
def declarations (tree : Tree) : List Declaration :=
  (Part.named tree.part.parts).flatMap Part.declarations

end Tree

end EntityModel.Syntax
