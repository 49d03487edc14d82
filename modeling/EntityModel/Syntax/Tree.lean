import EntityModel.Expr.Basic

/-!
# Syntax trees

What a parser makes of a source text: a tree of nodes, each with the name of its kind. Which kinds
and fields there are is a matter of the grammar that the parser follows.
-/

namespace EntityModel.Syntax

/-- A node of a syntax tree, apart from its children. -/
structure Node where
  kind : String
  /-- The field of its parent that the node fills. -/
  field : Option String
  /-- The source text that the node stands for. -/
  text : String
  /-- Where the node starts, counted from zero. -/
  row : Nat
  column : Nat
  /-- Whether the node is more than a token. -/
  isNamed : Bool
  /-- Whether the node may stand anywhere, as comments may. -/
  isExtra : Bool
  isError : Bool
  /-- Whether the node was put in where the text lacks it. -/
  isMissing : Bool
  /-- Whether there is an error in the text that the node stands for. -/
  hasError : Bool

inductive Tree where
  | node (head : Node) (children : List Tree)

namespace Tree

def head : Tree → Node
  | .node head _ => head

@[simp] theorem head_node (head : Node) (children : List Tree) : (node head children).head = head :=
  rfl

mutual

/-- The first node that is an error or that is missing. -/
def firstError? : Tree → Option Node
  | .node head children =>
    if head.isError || head.isMissing then some head
    else if head.hasError then firstErrorAmong? children
    else none

def firstErrorAmong? : List Tree → Option Node
  | [] => none
  | tree :: rest => (firstError? tree).or (firstErrorAmong? rest)

end

end Tree

end EntityModel.Syntax
