import EntityModel.Entity
import EntityModel.Json.Basic

/-!
# The entity model as a document

Every field of every entity, so that the model can be read back.
-/

namespace EntityModel

namespace Json

def ofOption {α : Type} (write : α → Json) : Option α → Json
  | some value => write value
  | none => .null

def ofTexts (texts : List String) : Json := .array (texts.map .string)

end Json

def DefaultValue.toJson : DefaultValue → Json
  | .number value => .object [("kind", .string "number"), ("value", .number value)]
  | .string value => .object [("kind", .string "str"), ("value", .string value)]
  | .boolean value => .object [("kind", .string "bool"), ("value", .boolean value)]
  | .null => .object [("kind", .string "null")]
  | .computed => .object [("kind", .string "computed")]

def Column.toJson (column : Column) : Json :=
  .object [("type", .string column.type), ("nullable", .boolean column.nullable),
    ("primary", .boolean column.primary), ("unique", .boolean column.unique),
    ("array", .boolean column.array), ("generated", .ofOption .string column.generated),
    ("default", .ofOption DefaultValue.toJson column.default),
    ("create_date", .boolean column.createDate), ("update_date", .boolean column.updateDate),
    ("enum", .ofTexts column.enumValues), ("length", .ofOption .natural column.length),
    ("precision", .ofOption .natural column.precision),
    ("scale", .ofOption .natural column.scale), ("name", .ofOption .string column.name),
    ("references_var", .ofOption .string column.references),
    ("on_delete", .ofOption .string column.onDelete),
    ("on_update", .ofOption .string column.onUpdate),
    ("cascade", .ofOption .boolean column.cascade)]

def RelationBuilder.toJson : RelationBuilder → Json
  | .many => .object [("kind", .string "many")]
  | .one => .object [("kind", .string "one")]
  | .other name => .object [("kind", .string "other"), ("name", .string name)]

def Relation.toJson (relation : Relation) : Json :=
  .object [("from_entity", .string relation.fromEntity),
    ("from_var", .string relation.fromBinding), ("local_name", .string relation.localName),
    ("to_entity", .string relation.toEntity), ("to_var", .string relation.toBinding),
    ("rel_type", .string relation.cardinality.text),
    ("inverse_side", .ofOption .string relation.inverseSide),
    ("join_column_name", .ofOption .string relation.joinColumn),
    ("is_owner", .boolean relation.isOwner), ("on_delete", .ofOption .string relation.onDelete),
    ("on_update", .ofOption .string relation.onUpdate),
    ("cascade", .ofOption .boolean relation.cascade), ("orig_kind", relation.builder.toJson),
    ("explicit_fields", .boolean relation.explicitFields),
    ("custom_name", .ofOption .string relation.label)]

def Index.toJson (index : Index) : Json :=
  .object [("name", .string index.name), ("columns", .ofTexts index.columns),
    ("unique", .boolean index.unique)]

/-- An entity with all its fields; its columns are the members of an object. -/
def Entity.toJson (entity : Entity) : Json :=
  .object [("name", .string entity.name), ("table_name", .string entity.tableName),
    ("variable", .string entity.binding), ("file_name", .string entity.fileName),
    ("columns", .object (entity.columns.entries.map fun (property, column) =>
      (property, column.toJson))),
    ("relations", .array (entity.relations.map Relation.toJson)),
    ("indices", .array (entity.indices.map Index.toJson))]

def Json.ofEntities (entities : List Entity) : Json := .array (entities.map Entity.toJson)

end EntityModel
