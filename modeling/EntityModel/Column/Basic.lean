import EntityModel.Number.Basic

/-!
# Columns

The storage type and the constraints of one property of an entity.
-/

namespace EntityModel

inductive DefaultValue where
  | number (value : Number)
  | string (value : String)
  | boolean (value : Bool)
  | null
  /-- A value that is only known when a row is stored. -/
  | computed
deriving DecidableEq

/-- The storage type and constraints of a property. -/
structure Column where
  type : String
  nullable : Bool
  primary : Bool
  unique : Bool
  array : Bool
  /-- How the database generates values, if it does. -/
  generated : Option String
  default : Option DefaultValue
  /-- Whether it is set when a row is inserted. -/
  createDate : Bool
  /-- Whether it is set when a row is updated. -/
  updateDate : Bool
  enumValues : List String
  length : Option Nat
  precision : Option Nat
  scale : Option Nat
  /-- The name of the column in the table, if it is not that of the property. -/
  name : Option String
  /-- The table variable that the column refers to. -/
  references : Option String
  onDelete : Option String
  onUpdate : Option String
  cascade : Option Bool
deriving DecidableEq

namespace Column

/-- A column of which nothing is known: nullable text. -/
def unknown : Column where
  type := "text"
  nullable := true
  primary := false
  unique := false
  array := false
  generated := none
  default := none
  createDate := false
  updateDate := false
  enumValues := []
  length := none
  precision := none
  scale := none
  name := none
  references := none
  onDelete := none
  onUpdate := none
  cascade := none

/-- Makes a column part of the primary key, which is never null. -/
def makePrimary (column : Column) : Column :=
  { column with primary := true, nullable := false }

end Column

end EntityModel
