/-!
# Relations

A relation leads from one entity to another under a name of the first. It is declared on one side
only; its other side, if it has one, is another relation.
-/

namespace EntityModel

/-- How many rows stand on each side of a relation. -/
inductive Cardinality where
  | oneToMany
  | manyToOne
  | oneToOne
  | manyToMany
deriving DecidableEq

namespace Cardinality

def text : Cardinality → String
  | .oneToMany => "one-to-many"
  | .manyToOne => "many-to-one"
  | .oneToOne => "one-to-one"
  | .manyToMany => "many-to-many"

/-- Whether a row has at most one row on the other side, so that it may hold its key. -/
def isSingular : Cardinality → Bool
  | .manyToOne => true
  | .oneToOne => true
  | _ => false

end Cardinality

/-- The function that a relation is declared with. -/
inductive RelationBuilder where
  | many
  | one
  | other (name : String)
deriving DecidableEq

namespace RelationBuilder

def ofName (name : String) : RelationBuilder :=
  if name = "many" then .many else if name = "one" then .one else .other name

end RelationBuilder

structure Relation where
  fromEntity : String
  /-- The table variable of the entity that the relation starts from. -/
  fromBinding : String
  localName : String
  toEntity : String
  /-- The table variable of the entity that the relation leads to. -/
  toBinding : String
  cardinality : Cardinality
  /-- The name of the relation that leads back. -/
  inverseSide : Option String
  /-- The column that holds the key of the other side, if one is known. -/
  joinColumn : Option String
  /-- Whether this side holds the key or the table between both sides. -/
  isOwner : Bool
  onDelete : Option String
  onUpdate : Option String
  cascade : Option Bool
  builder : RelationBuilder
  /-- Whether the declaration lists the columns that hold the key. -/
  explicitFields : Bool
  /-- A label of the declaration. It has no influence. -/
  label : Option String
deriving DecidableEq

namespace Relation

/-- Whether two relations lead from and to the same two entities in opposite directions. -/
def isReverseOf (relation other : Relation) : Bool :=
  relation.fromEntity = other.toEntity && relation.toEntity = other.fromEntity

/-- Whether a relation is declared to lead to one row, without columns for the key. -/
def isPlainOne (relation : Relation) : Bool :=
  relation.builder = .one && !relation.explicitFields

end Relation

end EntityModel
