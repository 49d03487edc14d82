import EntityModel.Catalog.Tables
import EntityModel.Relation.Pairing

/-!
# Reading and resolving relations

Relations are read when all columns are known, since the column that holds a key is looked for
among them. They are paired when all of them are read.
-/

namespace EntityModel

namespace Entity

/-- The first column that refers to a table variable, with its property. -/
def columnReferring? (entity : Entity) (binding : String) : Option (String × Column) :=
  entity.columns.entries.find? fun (_, column) => column.references = some binding

end Entity

structure KeyColumn where
  property : String
  /-- What is known of the column, on either side. -/
  column : Option Column

namespace Relation

/-- The columns that a relation lists for its key, if it lists any. -/
def fields? (options : Option Expr) : Option (List Expr) :=
  ((options.bind (·.get? "fields")).bind Expr.items?).filter (!·.isEmpty)

/-- The cardinality of a relation as far as its own declaration tells. -/
def declaredCardinality (builder : RelationBuilder) (explicitFields : Bool) : Cardinality :=
  match builder with
  | .many => .oneToMany
  | .one => if explicitFields then .manyToOne else .oneToOne
  | .other _ => .manyToOne

/-- The column that holds the key: the first listed one if it is a property, or else the first
column of the target that refers to the owner. -/
def keyColumn? (owner : Entity) (target : Option Entity) (fields : Option (List Expr)) :
    Option KeyColumn :=
  match (fields.bind List.head?).bind Expr.property? with
  | some field =>
    some ⟨field, (owner.column? field).or (target.bind (·.column? field))⟩
  | none =>
    (target.bind (·.columnReferring? owner.binding)).map fun (property, column) =>
      ⟨property, some column⟩

/-- The name that the column of a property has in a table: that of the owner's column, or else
that of the target's, or else the property in snake case. -/
def physicalName (owner : Entity) (target : Option Entity) (property : String) : String :=
  (((owner.column? property).bind (·.name)).or
    ((target.bind (·.column? property)).bind (·.name))).getD (Naming.snakeCase property)

/-- The relation that an expression declares under a name of an entity, not paired yet, where
entities are looked up by table variables. It needs to name a variable that it leads to. -/
def ofTables? (entityFor? : String → Option Entity) (ownerBinding localName : String)
    (expr : Expr) : Option Relation := do
  let owner ← entityFor? ownerBinding
  let root ← expr.rootFrame?
  let toBinding ← (root.arg? 0).bind Expr.name?
  let target := entityFor? toBinding
  let options := root.arg? 1
  let fields := fields? options
  let builder := RelationBuilder.ofName root.name
  let cardinality := declaredCardinality builder fields.isSome
  let key := keyColumn? owner target fields
  let keyColumn := key.bind (·.column)
  let joinColumn := key.map fun key => physicalName owner target key.property
  let text (name : String) : Option String := (options.bind (·.get? name)).bind Expr.string?
  return {
    fromEntity := owner.name
    fromBinding := ownerBinding
    localName := localName
    toEntity := (target.map (·.name)).getD (Naming.pascalCase toBinding)
    toBinding := toBinding
    cardinality := cardinality
    inverseSide := none
    joinColumn := joinColumn
    isOwner := cardinality.isSingular && joinColumn.isSome
    onDelete := (text "onDelete").or (keyColumn.bind (·.onDelete))
    onUpdate := (text "onUpdate").or (keyColumn.bind (·.onUpdate))
    cascade := ((options.bind (·.get? "cascade")).bind Expr.boolean?).or
      (keyColumn.bind (·.cascade))
    builder := builder
    explicitFields := fields.isSome
    label := text "relationName" }

/-- The relation that an expression declares under a name of an entity of a catalog. -/
def ofExpr? (catalog : Catalog) (ownerBinding localName : String) (expr : Expr) :
    Option Relation :=
  ofTables? catalog.entityFor? ownerBinding localName expr

end Relation

namespace Catalog

/-- The relations that a declaration declares: those of the object that its callback returns. -/
def relationsOf (catalog : Catalog) (declaration : Declaration) : List Relation :=
  (do
    let root ← declaration.init.rootFrame?
    guard (root.name = "relations")
    let owner ← (root.arg? 0).bind Expr.name?
    let _ ← catalog.entityFor? owner
    let (_, body) ← (root.arg? 1).bind Expr.function?
    let entries ← body.entries?
    return entries.filterMap fun (localName, value) =>
      Relation.ofExpr? catalog owner localName value).getD []

def readRelations (modules : List Module) (catalog : Catalog) : Catalog :=
  catalog.addStubs ((modules.flatMap (·.declarations)).flatMap catalog.relationsOf)

/-- Gives a relation to the entity that it starts from. -/
def attach (catalog : Catalog) (relation : Relation) : Catalog :=
  catalog.modify relation.fromBinding (·.addRelation relation)

/-- Pairs the waiting relations and gives them to their entities. -/
def resolve (catalog : Catalog) : Catalog :=
  (Relation.pairAll catalog.stubs).foldl attach { catalog with stubs := [] }

def ofModules (builders : Builders) (modules : List Module) : Catalog :=
  (((empty.register builders modules).readTables builders modules).readRelations modules).resolve

end Catalog

end EntityModel
