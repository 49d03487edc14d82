import EntityModel.Syntax.Parser
import EntityModel.Syntax.Tree

/-!
# Parts of the grammar

Types, patterns, expressions and statements contain one another. Each is a goal; the rules of one
goal read the others through a table of parsers that is given to them. Trees are built of what
declarations need: nodes have no places, tokens are left out, and a node has a text where the text
is read.
-/

namespace EntityModel.Syntax

namespace Tree

/-- A node that is known by its kind and its text. -/
def leaf (kind text : String) : Tree :=
  .node ⟨kind, none, text, 0, 0, true, false, false, false, false⟩ []

/-- A node that is known by its kind and its children. -/
def branch (kind : String) (children : List Tree) : Tree :=
  .node ⟨kind, none, "", 0, 0, true, false, false, false, false⟩ children

def inField (field : String) : Tree → Tree
  | .node head children => .node { head with field := some field } children

def withText (text : String) : Tree → Tree
  | .node head children => .node { head with text := text } children

end Tree

/-- What surrounds an expression. -/
structure Surroundings where
  /-- Whether `in` is an operator here. -/
  allowIn : Bool
  /-- Whether a semicolon may end the expression here. -/
  ending : Bool
  /-- Whether a colon behind parameters starts their result type. -/
  resultType : Bool

namespace Surroundings

/-- Between brackets. -/
def nested : Surroundings := ⟨true, false, true⟩

/-- At the end of a statement. -/
def statement : Surroundings := ⟨true, true, true⟩

end Surroundings

/-- An expression that was read, and whether it may be assigned to. -/
structure Operand where
  value : Tree
  assignable : Bool

namespace Operand

/-- Syntax known by the name of its kind only. -/
def other (kind : String) : Operand := ⟨.leaf kind "", false⟩

/-- A word that is known by its kind. -/
def word (kind text : String) : Operand := ⟨.leaf kind text, true⟩

def call (callee : Operand) (arguments : Tree) : Operand :=
  ⟨.branch "call_expression"
    [callee.value.inField "function", arguments.inField "arguments"], false⟩

def member (target : Operand) (property : String) : Operand :=
  ⟨.branch "member_expression" [target.value.inField "object",
    (Tree.leaf "property_identifier" property).inField "property"], true⟩

end Operand

/-- The parts of the grammar that contain one another. -/
inductive Goal where
  | type
  | pattern
  | operand (surroundings : Surroundings)
  | expression (surroundings : Surroundings)
  | declaration
  | statement

def Goal.Answer : Goal → Type
  | .type => Unit
  | .pattern => Unit
  | .operand _ => Operand
  | .expression _ => Operand
  | .declaration => Tree
  | .statement => Tree

structure Grammar where
  parse : (goal : Goal) → Parser goal.Answer

namespace Grammar

variable (grammar : Grammar)

def type : Parser Unit := grammar.parse .type

def pattern : Parser Unit := grammar.parse .pattern

def operand (surroundings : Surroundings) : Parser Operand :=
  grammar.parse (.operand surroundings)

def expression (surroundings : Surroundings) : Parser Tree := do
  return (← grammar.parse (.expression surroundings)).value

def declaration : Parser Tree := grammar.parse .declaration

def statement : Parser Tree := grammar.parse .statement

/-- Reads expressions with commas between them; several of them are known by their kind only. -/
def expressions (surroundings : Surroundings) : Parser Tree := do
  match ← Parser.commaSeparated (grammar.expression surroundings) with
  | [single] => return single
  | several => return .branch "sequence_expression" several

def block : Parser Tree := do
  Parser.char '\x7b'
  let statements ← Parser.many grammar.statement
  Parser.char '\x7d'
  return .branch "statement_block" statements

/-- Reads a condition or another expression between parentheses; the answer is what stands
between them. -/
def parenthesized : Parser Tree := do
  Parser.char '('
  let value ← grammar.expressions .nested
  if ← Parser.trySymbol ":" then grammar.type
  Parser.char ')'
  return value

def initializer : Parser Unit := do
  if ← Parser.trySymbol "=" then
    let _ ← grammar.expression .nested

end Grammar

end EntityModel.Syntax
