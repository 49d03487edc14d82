import EntityModel.Conversion

/-!
# Reports

What is told of a conversion: a summary in one line, and details of every entity.
-/

namespace EntityModel.Report

def summary (conversion : Conversion) (directory : String) : String :=
  "Converted " ++ Nat.repr conversion.outputs.size ++ " file(s) (" ++
    Nat.repr conversion.entities.length ++ " entities) into " ++ directory

/-- What a relation owns, behind its description. -/
def ownership (relation : Relation) : String :=
  if !relation.isOwner then ""
  else if relation.cardinality = .manyToMany then " [join table]"
  else " [owner]"

/-- The line of a relation. -/
def relationLine (relation : Relation) : String :=
  "  " ++ relation.localName ++ " -> " ++ relation.toEntity ++ " " ++ relation.cardinality.text ++
    " (inverse: " ++ relation.inverseSide.getD "-" ++ ")" ++ ownership relation

def entityLine (entity : Entity) : String :=
  entity.name ++ " (" ++ entity.tableName ++ ") from " ++ entity.fileName ++ ": " ++
    Nat.repr entity.columns.size ++ " columns, " ++ Nat.repr entity.relations.length ++
    " relations, " ++ Nat.repr entity.indices.length ++ " indices"

/-- The details of a conversion: each entity, followed by its relations. -/
def details (conversion : Conversion) : String :=
  Text.unlines (conversion.entities.flatMap fun entity =>
    entityLine entity :: entity.relations.map relationLine)

end EntityModel.Report
