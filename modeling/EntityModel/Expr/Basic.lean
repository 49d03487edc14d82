import EntityModel.Number.Basic

/-!
# Expressions

The expressions that table, column and relation declarations are made of. Parentheses are kept;
every reading function looks through them.
-/

namespace EntityModel

/-- An expression of a schema declaration. Syntax that declarations do not use is `other`. -/
inductive Expr where
  | string (value : String)
  /-- A numeric literal, a sign in front included. -/
  | number (value : Number)
  | boolean (value : Bool)
  /-- The literals `null` and `undefined`. -/
  | null
  | array (items : List Expr)
  /-- An object literal, its entries in written order. -/
  | object (entries : List (String × Expr))
  | paren (inner : Expr)
  /-- A template literal behind a tag, both as written. -/
  | tagged (tag : String) (text : String)
  /-- A template literal, as written between the backticks. -/
  | template (text : String)
  | call (callee : Expr) (args : List Expr)
  | ident (name : String)
  | member (object : Expr) (property : String)
  /-- An arrow function, its parameter patterns as written, and the value it returns. -/
  | arrow (params : List String) (body : Expr)
  /-- Any other syntax, by the name of its kind. -/
  | other (kind : String)
deriving Inhabited

namespace Expr

/-- The expression inside all enclosing parentheses. -/
def unparen : Expr → Expr
  | .paren inner => inner.unparen
  | expr => expr

def string? (expr : Expr) : Option String :=
  match expr.unparen with
  | .string value => some value
  | _ => none

def number? (expr : Expr) : Option Number :=
  match expr.unparen with
  | .number value => some value
  | _ => none

def boolean? (expr : Expr) : Option Bool :=
  match expr.unparen with
  | .boolean value => some value
  | _ => none

def items? (expr : Expr) : Option (List Expr) :=
  match expr.unparen with
  | .array items => some items
  | _ => none

def entries? (expr : Expr) : Option (List (String × Expr)) :=
  match expr.unparen with
  | .object entries => some entries
  | _ => none

/-- The value of the first entry of an object literal with a key. -/
def get? (expr : Expr) (key : String) : Option Expr := do
  let entries ← expr.entries?
  let value ← entries.lookup key
  return value.unparen

def name? (expr : Expr) : Option String :=
  match expr.unparen with
  | .ident name => some name
  | _ => none

/-- The last property of a member access: `email` of `t.email`. -/
def property? (expr : Expr) : Option String :=
  match expr.unparen with
  | .member _ property => some property
  | _ => none

/-- The identifier that an expression made of identifiers and member accesses starts from. -/
def base? : Expr → Option String
  | .paren inner => inner.base?
  | .ident name => some name
  | .member target _ => target.base?
  | _ => none

/-- The identifier that a member access starts from: `users` of `users.id`. -/
def root? (expr : Expr) : Option String :=
  match expr.unparen with
  | .member target _ => target.base?
  | _ => none

/-- The parameters of an arrow function and the value it returns. -/
def function? (expr : Expr) : Option (List String × Expr) :=
  match expr.unparen with
  | .arrow params body => some (params, body.unparen)
  | _ => none

/-- The name that a call of this expression goes to: the identifier, or the last property of a
member access. -/
def calleeName? (expr : Expr) : Option String :=
  match expr.unparen with
  | .ident name => some name
  | .member _ property => some property
  | _ => none

theorem unparen_unparen (expr : Expr) : expr.unparen.unparen = expr.unparen := by
  induction expr using unparen.induct with
  | case1 inner ih => simpa [unparen] using ih
  | case2 expr hparen => cases expr <;> simp_all [unparen]

@[simp] theorem unparen_paren (inner : Expr) : (Expr.paren inner).unparen = inner.unparen := rfl

end Expr

end EntityModel
