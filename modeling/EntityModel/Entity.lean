import EntityModel.Collection.OrderedMap
import EntityModel.Column.Basic
import EntityModel.Relation.Basic

/-!
# Entities

An entity is what a table declaration stands for: its columns, its relations and its indices.
-/

namespace EntityModel

structure Index where
  name : String
  columns : List String
  unique : Bool
deriving DecidableEq

/-- What a table declaration stands for. -/
structure Entity where
  name : String
  tableName : String
  /-- The variable that the table is declared as. -/
  binding : String
  fileName : String
  columns : OrderedMap Column
  relations : List Relation
  indices : List Index

namespace Entity

/-- An entity without columns, relations and indices. -/
def bare (name tableName binding fileName : String) : Entity where
  name := name
  tableName := tableName
  binding := binding
  fileName := fileName
  columns := OrderedMap.empty
  relations := []
  indices := []

def column? (entity : Entity) (property : String) : Option Column :=
  entity.columns.find? property

/-- The first relation with a name. -/
def relation? (entity : Entity) (localName : String) : Option Relation :=
  entity.relations.find? (·.localName = localName)

/-- Adds a relation, unless there is one with its name. -/
def addRelation (entity : Entity) (relation : Relation) : Entity :=
  if (entity.relation? relation.localName).isSome then entity
  else { entity with relations := entity.relations ++ [relation] }

end Entity

end EntityModel
