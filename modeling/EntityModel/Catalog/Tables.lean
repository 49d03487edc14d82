import EntityModel.Catalog.Constraints
import EntityModel.Catalog.Register

/-!
# Reading tables

The columns, keys and indices of an entity come from the first declaration of its table variable.
-/

namespace EntityModel.Catalog

/-- Reads the columns and constraints of a table from the call that declares it. -/
def readTable (catalog : Catalog) (binding : String) (root : Frame) : Catalog :=
  let columns :=
    match root.arg? 1 with
    | some definition => Columns.ofExpr catalog.enums definition
    | none => OrderedMap.empty
  catalog.modify binding fun entity =>
    let filled := { entity with columns := columns }
    match root.arg? 2 with
    | some extras => filled.withExtras extras
    | none => filled

/-- Reads what a declaration says about its table, if it is the first of its variable. -/
def tableDeclaration (builders : Builders) (catalog : Catalog) (declaration : Declaration) :
    Catalog :=
  match declaration.init.rootFrame? with
  | none => catalog
  | some root =>
    if builders.tables.contains root.name then
      match catalog.markPopulated declaration.name with
      | (true, marked) => marked.readTable declaration.name root
      | (false, _) => catalog
    else catalog

def readTables (builders : Builders) (modules : List Module) (catalog : Catalog) : Catalog :=
  (modules.flatMap (·.declarations)).foldl (tableDeclaration builders) catalog

end EntityModel.Catalog
