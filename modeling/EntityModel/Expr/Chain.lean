import EntityModel.Expr.Basic

/-!
# Call chains

A declaration such as `uuid("id").primaryKey().defaultRandom()` is a chain of calls. It is read as
a list of frames, the outermost call first and the builder that starts the chain last.
-/

namespace EntityModel

/-- One call of a chain: the name that is called and its arguments. -/
structure Frame where
  name : String
  args : List Expr

namespace Frame

/-- An argument by its position, parentheses removed. -/
def arg? (frame : Frame) (index : Nat) : Option Expr :=
  (frame.args[index]?).map Expr.unparen

end Frame

namespace Expr

mutual

/-- The calls of a chain, outermost first. The chain ends at the first callee that is not an
identifier or a member access, or whose object is not itself a call. -/
def frames : Expr → List Frame
  | .paren inner => inner.frames
  | .call callee args => callee.calleeFrames args
  | _ => []

/-- The frames of a call of this callee with these arguments. -/
def calleeFrames (args : List Expr) : Expr → List Frame
  | .paren inner => inner.calleeFrames args
  | .ident name => [⟨name, args⟩]
  | .member target property => ⟨property, args⟩ :: target.frames
  | _ => []

end

mutual

/-- What the calls of a chain are made on: `t.parentId` of `t.parentId.desc().nullsLast()`. An
expression that is not a method call is its own receiver. -/
def receiver : Expr → Expr
  | .paren inner => inner.receiver
  | .call callee args => callee.objectReceiver?.getD (.call callee args)
  | expr => expr

/-- The receiver of the object that a callee is accessed on, if it is accessed on one. -/
def objectReceiver? : Expr → Option Expr
  | .paren inner => inner.objectReceiver?
  | .member target _ => some target.receiver
  | _ => none

end

/-- The innermost call of a chain. -/
def rootFrame? (expr : Expr) : Option Frame := expr.frames.getLast?

end Expr

end EntityModel
