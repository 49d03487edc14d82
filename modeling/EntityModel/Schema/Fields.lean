import EntityModel.Entity
import EntityModel.Number.Text
import EntityModel.Schema.Quoted
import EntityModel.Text.Blank

/-!
# Fields of a schema

What a schema says of each column, relation and index: fields with their written values, in a fixed
order, those that say nothing left out.
-/

namespace EntityModel.Schema

abbrev Field := String × String

def truth (value : Bool) : String := if value then "true" else "false"

/-- A field that is written only to say that something holds. -/
def flag (name : String) (holds : Bool) : List Field :=
  if holds then [(name, "true")] else []

/-- A field that is written only if it has a value. -/
def optional {α : Type} (name : String) (write : α → String) : Option α → List Field
  | some value => [(name, write value)]
  | none => []

theorem mem_keys_flag {field name : String} {holds : Bool} :
    field ∈ (flag name holds).map Prod.fst ↔ field = name ∧ holds = true := by
  cases holds <;> simp [flag]

theorem mem_keys_optional {α : Type} {field name : String} {write : α → String}
    {value : Option α} :
    field ∈ (optional name write value).map Prod.fst ↔ field = name ∧ value.isSome = true := by
  cases value <;> simp [optional]

/-- A default value as written; one that is computed only says that it exists. -/
def defaultText : DefaultValue → String
  | .number value => NumberStyle.plain.text value
  | .string value => quoted value
  | .boolean value => truth value
  | .null => "null"
  | .computed => "true"

/-- The fields of a column. The length of an enumeration is not written. -/
def columnFields (column : Column) : List Field :=
  [("type", quoted column.type)] ++
  (if column.enumValues.isEmpty then [] else [("enum", quotedList column.enumValues)]) ++
  optional "precision" Nat.repr column.precision ++
  optional "scale" Nat.repr column.scale ++
  (if column.type = "enum" then [] else optional "length" Nat.repr column.length) ++
  optional "name" quoted column.name ++
  flag "array" column.array ++
  flag "primary" column.primary ++
  optional "generated" quoted column.generated ++
  flag "unique" column.unique ++
  [("nullable", truth column.nullable)] ++
  optional "default" defaultText column.default ++
  flag "createDate" column.createDate ++
  flag "updateDate" column.updateDate

/-- What happens on deletion or update: in upper case, without blanks around it. -/
def actionText (action : String) : String :=
  quoted (String.ofList ((Text.trimBlanks action.toList).map Text.asciiUpper))

/-- The column that holds the key of a relation, as written. -/
def joinColumnText (name : String) : String :=
  "\x7b name: " ++ quoted name ++ " \x7d"

/-- The fields of a relation. Only a side that leads to one row says where its key is and what
happens to it. -/
def relationFields (relation : Relation) : List Field :=
  let singular := relation.cardinality.isSingular
  [("target", quoted relation.toEntity), ("type", quoted relation.cardinality.text)] ++
  optional "inverseSide" quoted relation.inverseSide ++
  (if singular && relation.isOwner then
    optional "joinColumn" joinColumnText relation.joinColumn else []) ++
  flag "joinTable" (relation.cardinality = .manyToMany && relation.isOwner) ++
  (if singular then
    optional "cascade" truth relation.cascade ++
    optional "onDelete" actionText relation.onDelete ++
    optional "onUpdate" actionText relation.onUpdate else [])

def indexFields (index : Index) : List Field :=
  [("name", quoted index.name), ("columns", quotedList index.columns),
    ("unique", truth index.unique)]

end EntityModel.Schema
