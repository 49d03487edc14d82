import EntityModel.Column.Reading
import EntityModel.Entity

/-!
# Keys and indices of tables

A table may declare keys over several columns and indices beside its columns, as the entries of an
object or the items of an array.
-/

namespace EntityModel

namespace Expr

/-- The column that an argument of an index names, looking through what is called on it: a
property, or else the text of what stands there. -/
def indexColumn? (argument : Expr) : Option String :=
  let receiver := argument.receiver
  match receiver.property?.or receiver.string? with
  | some name => some name
  | none =>
    match receiver with
    | .tagged tag text => some (tag ++ "\x60" ++ text ++ "\x60")
    | .template text => some text
    | .ident name => some name
    | _ => none

/-- The constraints that a table declares, each with its key if it has one. -/
def constraints (extras : Expr) : List (Option String × Expr) :=
  let body := Columns.definitionBody extras
  match body.entries?, body.items? with
  | some entries, _ => entries.map fun (key, value) => (some key, value)
  | none, some items => items.map fun item => (none, item)
  | none, none => []

end Expr

namespace Frame

/-- The properties that a primary key consists of: those of its list of columns if it has one, or
else those of its arguments. -/
def keyProperties (root : Frame) : List String :=
  match (root.arg? 0).bind (·.get? "columns") with
  | some list => (list.items?.getD []).filterMap Expr.property?
  | none => root.args.filterMap Expr.property?

def isIndex (root : Frame) : Bool :=
  ["index", "uniqueIndex", "unique"].contains root.name

end Frame

namespace Index

/-- The index that a chain of calls declares. Its columns are those of all calls of `on`, in
written order. -/
def ofFrames (tableName : String) (key : Option String) (frames : List Frame) (root : Frame) :
    Index :=
  let columns := ((frames.reverse.filter (·.name = "on")).flatMap (·.args)).filterMap
    Expr.indexColumn?
  { name := (((root.arg? 0).bind Expr.string?).or key).getD
      (tableName ++ "_" ++ Text.joinWith "_" columns ++ "_idx")
    columns := columns
    unique := root.name ≠ "index" }

end Index

namespace Entity

/-- Makes properties part of the primary key; those without a column are passed over. -/
def makePrimary (entity : Entity) (properties : List String) : Entity :=
  { entity with
    columns := properties.foldl (fun columns property =>
      columns.modify property Column.makePrimary) entity.columns }

def withConstraint (entity : Entity) : Option String × Expr → Entity
  | (key, value) =>
    let frames := value.frames
    match frames.getLast? with
    | none => entity
    | some root =>
      if root.name = "primaryKey" then entity.makePrimary root.keyProperties
      else if root.isIndex then
        { entity with
          indices := entity.indices ++ [Index.ofFrames entity.tableName key frames root] }
      else entity

def withExtras (entity : Entity) (extras : Expr) : Entity :=
  extras.constraints.foldl withConstraint entity

end Entity

end EntityModel
