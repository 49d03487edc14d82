import EntityModel.Failure
import EntityModel.Syntax.Lowering

/-!
# Reading source texts

Source texts are parsed by a parser that is given. A text with a syntax error anywhere is not read
at all, since what is left of it could lack columns or relations.
-/

namespace EntityModel

/-- A parser of source texts. -/
structure TreeParser where
  /-- Why the grammar cannot be loaded, if it cannot. -/
  fault? : Option String
  /-- The tree of a text; the parser may give up. -/
  tree? : String → Option Syntax.Tree

namespace TreeParser

variable (parser : TreeParser)

/-- A syntax error at a node: the place where the node starts and the start of its text. -/
def errorAt (fileName : String) (node : Syntax.Node) : Failure :=
  .malformed fileName (node.row + 1) (node.column + 1) (String.ofList (node.text.toList.take 40))

/-- Reads the values that a source text declares. -/
def module (fileName source : String) : Except Failure Module :=
  match parser.fault?, parser.tree? source with
  | some report, _ => .error (.grammar report)
  | none, none => .error (.malformed fileName 1 1 "")
  | none, some tree =>
    if tree.head.hasError then .error (errorAt fileName (tree.firstError?.getD tree.head))
    else .ok ⟨fileName, tree.declarations⟩

/-- Reads a single expression, as the value of a declaration. -/
def expression (source : String) : Except Failure Expr := do
  let parsed ← parser.module "<expr>" ("const __expr = " ++ source ++ ";")
  match parsed.declarations with
  | first :: _ => return first.init
  | [] => return .other "empty"

end TreeParser

end EntityModel
