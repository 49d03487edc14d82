import EntityModel.Expr.Basic

/-!
# Modules

What is read of a source file: the values that are declared at its top level.
-/

namespace EntityModel

/-- A named value declared at the top level of a file. -/
structure Declaration where
  name : String
  init : Expr

/-- The values declared at the top level of a file, in order. -/
structure Module where
  fileName : String
  declarations : List Declaration

end EntityModel
