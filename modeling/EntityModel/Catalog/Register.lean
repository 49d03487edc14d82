import EntityModel.Catalog.Basic
import EntityModel.Module
import EntityModel.Naming

/-!
# Registering declarations

Tables and enumerations of all files are registered before anything refers to them.
-/

namespace EntityModel

/-- The functions that declare tables and enumerations. -/
structure Builders where
  tables : List String
  enums : List String

namespace Builders

def usual : Builders where
  tables := ["pgTable", "mysqlTable", "sqliteTable"]
  enums := ["pgEnum", "mysqlEnum"]

end Builders

/-- The declarations of files, each with the name of its file. -/
def Module.declarationsOf (modules : List Module) : List (String × Declaration) :=
  modules.flatMap fun module => module.declarations.map fun declaration =>
    (module.fileName, declaration)

/-- The name of the entity of a table: that of the table, if it is given as a string, or else that
of the variable. -/
def entityName (binding : String) (first : Option Expr) : String :=
  Naming.pascalCase ((first.bind Expr.string?).getD binding)

namespace Catalog

/-- Registers what a declaration declares, if it is a table or an enumeration. -/
def registerDeclaration (builders : Builders) (catalog : Catalog) :
    String × Declaration → Catalog
  | (fileName, declaration) =>
    match declaration.init.rootFrame? with
    | none => catalog
    | some root =>
      if builders.tables.contains root.name then
        let first := root.arg? 0
        catalog.registerTable declaration.name (entityName declaration.name first)
          ((first.bind Expr.string?).getD declaration.name) fileName
      else if builders.enums.contains root.name then
        let members := ((root.arg? 1).bind Expr.items?).getD []
        catalog.registerEnum declaration.name (members.filterMap Expr.enumMember?)
      else catalog

def register (builders : Builders) (modules : List Module) (catalog : Catalog) : Catalog :=
  (Module.declarationsOf modules).foldl (registerDeclaration builders) catalog

end Catalog

end EntityModel
