import EntityModel.Syntax.Reading
import EntityModel.Syntax.StatementRule

/-!
# A parser of source files

The parser that the program runs with. It tells whether a text is well formed, and not where it
goes wrong.
-/

namespace EntityModel.Syntax

/-- Reads the line that names the interpreter of a file, if there is one. -/
def interpreterLine : Parser Unit := do
  match ← Parser.peek with
  | '#' :: '!' :: text => Parser.take (2 + (text.takeWhile (· ≠ '\n')).length)
  | _ => pure ()

def program (grammar : Grammar) : Parser Tree := do
  interpreterLine
  let statements ← Parser.many grammar.statement
  Parser.check (← Parser.peek).isEmpty
  return .branch "program" statements

/-- The tree of a source text, if it is well formed. No part of a text contains others more often
than four times its length. -/
def program? (text : List Char) : Option Tree :=
  let grammar := Grammar.upTo (4 * text.length + 64)
  ((program grammar).run (Cursor.start text)).map (·.1)

/-- The tree of a text that is not well formed: the whole of it is an error. -/
def errorTree (source : String) : Tree :=
  .node ⟨"ERROR", none, source, 0, 0, true, false, true, false, true⟩ []

def parser : TreeParser where
  fault? := none
  tree? source := some ((program? source.toList).getD (errorTree source))

end EntityModel.Syntax
