import EntityModel.Collection.OrderedMap
import EntityModel.Column.Basic
import EntityModel.Column.Vocabulary
import EntityModel.Expr.Chain
import EntityModel.Text.Case
import EntityModel.Text.Lines

/-!
# Reading columns

A column is declared by a chain of calls: the innermost call builds it, and each further call
modifies it. No declaration is refused; what is not understood leaves nullable text.
-/

namespace EntityModel

/-- The values of enumerations, by the variable that declares them. -/
abbrev Enumerations := OrderedMap (List String)

def createdAt : String := "createdAt"

def updatedAt : String := "updatedAt"

/-- The value of a member of an enumeration: a string, or the last property of a member access. -/
def Expr.enumMember? (expr : Expr) : Option String :=
  expr.string?.or expr.property?

/-- The size that an expression gives: a whole number of at most 32 bits. -/
def Expr.size? (expr : Expr) : Option Nat := do
  let value ← expr.number?
  let size ← value.toNat?
  guard (size < Nat.pow 2 32)
  return size

/-- Whether the text of a query reads the current time, in any mixture of case. -/
def readsCurrentTime (text : String) : Bool :=
  let lower := text.toList.map Text.asciiLower
  Text.hasPart "current_timestamp".toList lower || Text.hasPart "now()".toList lower

namespace DefaultValue

def ofArgument : Option Expr → DefaultValue
  | none => .computed
  | some argument =>
    match argument.unparen with
    | .number value => .number value
    | .string value => .string value
    | .template text => .string text
    | .boolean value => .boolean value
    | .null => .null
    | .tagged _ text => if readsCurrentTime text then .string "CURRENT_TIMESTAMP" else .computed
    | _ => .computed

end DefaultValue

namespace Column

def withOptions (column : Column) (options : Expr) : Column :=
  let sized : Column := { column with
    length := (options.get? "length").bind Expr.size?
    precision := (options.get? "precision").bind Expr.size?
    scale := (options.get? "scale").bind Expr.size? }
  let enumerated : Column :=
    match (options.get? "enum").bind Expr.items? with
    | some items => { sized with type := "enum", enumValues := items.filterMap Expr.enumMember? }
    | none => sized
  if (options.get? "withTimezone").bind Expr.boolean? = some true then
    { enumerated with type := "timestamptz" }
  else enumerated

/-- The options of a column builder: the first of its first two arguments that is an object. -/
def options? (builder : Frame) : Option Expr :=
  ([builder.arg? 0, builder.arg? 1].filterMap id).find? (·.entries?.isSome)

/-- The column that a builder makes for a property, before it is modified. -/
def ofBuilder (enums : Enumerations) (property : String) (builder : Frame) : Column :=
  let typed : Column :=
    match enums.find? builder.name with
    | some values => { unknown with type := "enum", enumValues := values }
    | none => { unknown with
        type := (builderType? builder.name).getD "text"
        generated := if isCounted builder.name then some "increment" else none }
  let named : Column :=
    match (builder.arg? 0).bind Expr.string? with
    | some name => if name ≠ property then { typed with name := some name } else typed
    | none => typed
  match options? builder with
  | some options => named.withOptions options
  | none => named

/-- Notes what a column refers to and what happens to it when that is deleted or updated. -/
def withReference (column : Column) (reference : Frame) : Column :=
  let target := (reference.arg? 0).map fun argument =>
    match argument.function? with
    | some (_, body) => body
    | none => argument
  let options := reference.arg? 1
  let text (key : String) : Option String := (options.bind (·.get? key)).bind Expr.string?
  { column with
    references := (target.bind Expr.root?).or column.references
    onDelete := (text "onDelete").or column.onDelete
    onUpdate := (text "onUpdate").or column.onUpdate
    cascade := ((options.bind (·.get? "cascade")).bind Expr.boolean?).or column.cascade }

/-- Applies one call of a chain behind the builder. -/
def modifiedBy (property : String) (column : Column) (modifier : Frame) : Column :=
  match modifier.name with
  | "notNull" => { column with nullable := false }
  | "primaryKey" => column.makePrimary
  | "unique" => { column with unique := true }
  | "array" => { column with array := true }
  | "$onUpdate" => { column with updateDate := true }
  | "$onUpdateFn" => { column with updateDate := true }
  | "default" => { column with default := some (.ofArgument (modifier.arg? 0)) }
  | "$default" => { column with default := some .computed }
  | "$defaultFn" => { column with default := some .computed }
  | "defaultRandom" =>
    { column with generated := some "uuid", type := "uuid", nullable := false }
  | "defaultNow" =>
    if property ≠ createdAt then { column with default := some .computed } else column
  | "generatedAlwaysAsIdentity" =>
    { column with generated := some "increment", nullable := false }
  | "generatedByDefaultAsIdentity" =>
    { column with generated := some "increment", nullable := false }
  | "references" => column.withReference modifier
  | _ => column

/-- Applies what follows from the name of a property alone, and that keys are never null. -/
def withConventions (property : String) (column : Column) : Column :=
  let dated : Column :=
    if property = createdAt then { column with createDate := true, nullable := false }
    else if property = updatedAt then { column with updateDate := true }
    else column
  if dated.primary then { dated with nullable := false } else dated

/-- The column that an expression declares for a property. -/
def ofExpr (enums : Enumerations) (property : String) (expr : Expr) : Column :=
  let frames := expr.frames
  let column :=
    match frames.getLast? with
    | some builder =>
      frames.dropLast.reverse.foldl (modifiedBy property) (ofBuilder enums property builder)
    | none => unknown
  column.withConventions property

end Column

abbrev Columns := OrderedMap Column

namespace Columns

/-- What a definition stands for: the value that it returns if it is a function. -/
def definitionBody (definition : Expr) : Expr :=
  match definition.function? with
  | some (_, body) => body
  | none => definition.unparen

/-- The columns that a definition declares, one for each entry of an object. -/
def ofExpr (enums : Enumerations) (definition : Expr) : Columns :=
  match (definitionBody definition).entries? with
  | some entries =>
    OrderedMap.ofList (entries.map fun (property, expr) =>
      (property, Column.ofExpr enums property expr))
  | none => OrderedMap.empty

end Columns

end EntityModel
