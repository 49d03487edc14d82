import EntityModel.Column.Vocabulary
import EntityModel.Schema.Fields

/-!
# Schema files

The text that declares the schemas of entities, each behind a comment that describes the types of
its properties.
-/

namespace EntityModel.Schema

/-- The type of the values of a column, for documentation. -/
def documentedType (column : Column) : String :=
  let listed := column.type = "enum" && !column.enumValues.isEmpty
  let values := Text.joinWith " | " (column.enumValues.map quoted)
  let base :=
    if listed then (if column.array then "(" ++ values ++ ")" else values)
    else Column.valueKind column.type
  if column.array then base ++ "[]" else base

/-- The comment that describes the properties of an entity. -/
def typeComment (entity : Entity) : String :=
  Text.unlines <|
    ["/**", " * @typedef \x7bObject\x7d " ++ entity.name] ++
    entity.columns.entries.map (fun (property, column) =>
      " * @property \x7b" ++ documentedType column ++ "\x7d " ++ property) ++
    [" */"]

def fieldLines (fields : List Field) : List String :=
  fields.map fun (name, value) => "      " ++ name ++ ": " ++ value ++ ","

/-- The lines of a member with its fields between braces. -/
def memberLines (opening : String) (fields : List Field) : List String :=
  ("    " ++ opening ++ "\x7b") :: fieldLines fields ++ ["    \x7d,"]

/-- The lines of a part of a schema that is left out if it has no members. -/
def partLines (opening closing : String) (members : List (List String)) : List String :=
  if members.isEmpty then [] else opening :: members.flatten ++ [closing]

def entityLines (entity : Entity) : List String :=
  let columns := entity.columns.entries.map fun (property, column) =>
    memberLines (objectKey property ++ ": ") (columnFields column)
  let relations := entity.relations.map fun relation =>
    memberLines (objectKey relation.localName ++ ": ") (relationFields relation)
  let indices := entity.indices.map fun index => memberLines "" (indexFields index)
  ["export const " ++ entity.name ++ "Entity = new EntitySchema(\x7b",
    "  name: " ++ quoted entity.name ++ ",",
    "  tableName: " ++ quoted entity.tableName ++ ",",
    "  columns: \x7b"] ++
  columns.flatten ++ ["  \x7d,"] ++
  partLines "  relations: \x7b" "  \x7d," relations ++
  partLines "  indices: [" "  ]," indices ++
  ["\x7d);"]

def entityText (entity : Entity) : String := Text.unlines (entityLines entity)

/-- The text of a file that declares the schemas of entities. -/
def fileText (entities : List Entity) : String :=
  "import \x7b EntitySchema \x7d from 'typeorm';\n" ++
    String.join (entities.map fun entity =>
      "\n" ++ typeComment entity ++ "\n" ++ entityText entity)

end EntityModel.Schema
