import Mathlib.Data.List.Basic
import EntityModel.Column.Reading

/-!
# What a chain of calls declares

A column in closed form: what the builder of a chain gives and which calls stand behind it. Most
calls count however often and wherever they stand. Those that give a default, a generation or a
reference take it from each other, so that the outermost one decides. Hence only their order among
themselves matters.
-/

namespace EntityModel

namespace Column

variable {α : Type}

/-! ## Calls of a chain -/

/-- Whether one of some calls stands in a chain. -/
def calls (names : List String) (modifiers : List Frame) : Bool :=
  modifiers.any fun modifier => names.contains modifier.name

/-- What a call gives if it is one of some calls. -/
def given? (names : List String) (read? : Frame → Option α) (modifier : Frame) : Option α :=
  if names.contains modifier.name then read? modifier else none

/-- What the outermost of some calls gives, of those that give something. -/
def outermost? (names : List String) (read? : Frame → Option α) (modifiers : List Frame) :
    Option α :=
  modifiers.findSome? (given? names read?)

/-- The calls that give a default. -/
def defaultCalls : List String := ["default", "$default", "$defaultFn", "defaultNow"]

/-- The calls that let the database generate the values. -/
def generationCalls : List String :=
  ["defaultRandom", "generatedAlwaysAsIdentity", "generatedByDefaultAsIdentity"]

/-- The calls after which a column is never null. -/
def requiredCalls : List String := ["notNull", "primaryKey"] ++ generationCalls

def updateCalls : List String := ["$onUpdate", "$onUpdateFn"]

def referenceCalls : List String := ["references"]

/-- The default that a call gives. The date of the creation of a row has no default of its own. -/
def defaultGiven? (property : String) (modifier : Frame) : Option DefaultValue :=
  if modifier.name = "default" then some (.ofArgument (modifier.arg? 0))
  else if modifier.name = "defaultNow" ∧ property = createdAt then none
  else some .computed

def generationGiven? (modifier : Frame) : Option String :=
  some (if modifier.name = "defaultRandom" then "uuid" else "increment")

/-- The table variable that a reference leads to. -/
def targetGiven? (reference : Frame) : Option String :=
  ((reference.arg? 0).map fun argument =>
    match argument.function? with
    | some (_, body) => body
    | none => argument).bind Expr.root?

def optionGiven? (key : String) (read? : Expr → Option α) (reference : Frame) : Option α :=
  ((reference.arg? 1).bind (·.get? key)).bind read?

/-! ## The closed form -/

/-- An option of the builder of a column. -/
def builderOption? (root : Frame) (key : String) (read? : Expr → Option α) : Option α :=
  ((options? root).bind (·.get? key)).bind read?

/-- The column that a builder and the calls behind it declare for a property, outermost call
first. -/
def declared (enums : Enumerations) (property : String) (root : Frame) (modifiers : List Frame) :
    Column where
  type :=
    if calls ["defaultRandom"] modifiers then "uuid"
    else if builderOption? root "withTimezone" Expr.boolean? = some true then "timestamptz"
    else if (builderOption? root "enum" Expr.items?).isSome || (enums.find? root.name).isSome then
      "enum"
    else (builderType? root.name).getD "text"
  nullable := !(property = createdAt || calls requiredCalls modifiers)
  primary := calls ["primaryKey"] modifiers
  unique := calls ["unique"] modifiers
  array := calls ["array"] modifiers
  generated := (outermost? generationCalls generationGiven? modifiers).or
    (if isCounted root.name && (enums.find? root.name).isNone then some "increment" else none)
  default := outermost? defaultCalls (defaultGiven? property) modifiers
  createDate := property = createdAt
  updateDate := property = updatedAt || calls updateCalls modifiers
  enumValues :=
    match builderOption? root "enum" Expr.items? with
    | some items => items.filterMap Expr.enumMember?
    | none => (enums.find? root.name).getD []
  length := builderOption? root "length" Expr.size?
  precision := builderOption? root "precision" Expr.size?
  scale := builderOption? root "scale" Expr.size?
  name := ((root.arg? 0).bind Expr.string?).filter (· ≠ property)
  references := outermost? referenceCalls targetGiven? modifiers
  onDelete := outermost? referenceCalls (optionGiven? "onDelete" Expr.string?) modifiers
  onUpdate := outermost? referenceCalls (optionGiven? "onUpdate" Expr.string?) modifiers
  cascade := outermost? referenceCalls (optionGiven? "cascade" Expr.boolean?) modifiers

/-- The column of a chain before what follows from the name of its property. -/
def chained (enums : Enumerations) (property : String) (root : Frame) (modifiers : List Frame) :
    Column :=
  { declared enums property root modifiers with
    nullable := !calls requiredCalls modifiers
    createDate := false
    updateDate := calls updateCalls modifiers }

variable {enums : Enumerations} {property : String} {root : Frame} {modifiers others : List Frame}

theorem calls_cons (names : List String) (modifier : Frame) (modifiers : List Frame) :
    calls names (modifier :: modifiers) =
      (names.contains modifier.name || calls names modifiers) := List.any_cons

theorem outermost?_cons (names : List String) (read? : Frame → Option α) (modifier : Frame)
    (modifiers : List Frame) : outermost? names read? (modifier :: modifiers) =
      (given? names read? modifier).or (outermost? names read? modifiers) := by
  unfold outermost?
  rw [List.findSome?_cons]
  cases given? names read? modifier <;> rfl

/-- What one call of a chain changes, field by field. -/
theorem modifiedBy_eq (property : String) (column : Column) (modifier : Frame) :
    modifiedBy property column modifier = { column with
      type := if modifier.name = "defaultRandom" then "uuid" else column.type
      nullable := !requiredCalls.contains modifier.name && column.nullable
      primary := modifier.name = "primaryKey" || column.primary
      unique := modifier.name = "unique" || column.unique
      array := modifier.name = "array" || column.array
      generated := (given? generationCalls generationGiven? modifier).or column.generated
      default := (given? defaultCalls (defaultGiven? property) modifier).or column.default
      updateDate := updateCalls.contains modifier.name || column.updateDate
      references := (given? referenceCalls targetGiven? modifier).or column.references
      onDelete := (given? referenceCalls (optionGiven? "onDelete" Expr.string?) modifier).or
        column.onDelete
      onUpdate := (given? referenceCalls (optionGiven? "onUpdate" Expr.string?) modifier).or
        column.onUpdate
      cascade := (given? referenceCalls (optionGiven? "cascade" Expr.boolean?) modifier).or
        column.cascade } := by
  simp only [given?, requiredCalls, generationCalls, updateCalls, referenceCalls, defaultCalls]
  unfold modifiedBy
  split
  case h_11 hname =>
    by_cases hcreated : property = createdAt <;> simp [hcreated, hname, defaultGiven?]
  case h_14 hname =>
    simp [hname, withReference, optionGiven?]
    rfl
  case h_15 => simp_all
  all_goals
    next hname => simp [hname, makePrimary, defaultGiven?, generationGiven?]

/-- What the options of a builder change, field by field. -/
theorem withOptions_eq (column : Column) (options : Expr) : column.withOptions options =
    { column with
      type :=
        if (options.get? "withTimezone").bind Expr.boolean? = some true then "timestamptz"
        else if ((options.get? "enum").bind Expr.items?).isSome then "enum"
        else column.type
      enumValues :=
        match (options.get? "enum").bind Expr.items? with
        | some items => items.filterMap Expr.enumMember?
        | none => column.enumValues
      length := (options.get? "length").bind Expr.size?
      precision := (options.get? "precision").bind Expr.size?
      scale := (options.get? "scale").bind Expr.size? } := by
  unfold withOptions
  cases (options.get? "enum").bind Expr.items? <;>
    by_cases hzone : (options.get? "withTimezone").bind Expr.boolean? = some true <;>
    simp [hzone]

/-- A builder without further calls. -/
theorem ofBuilder_eq (enums : Enumerations) (property : String) (root : Frame) :
    ofBuilder enums property root = chained enums property root [] := by
  have hnone : ∀ names, calls names [] = false := fun _ => rfl
  have hnothing : ∀ (β : Type) names (read? : Frame → Option β), outermost? names read? [] = none :=
    fun _ _ _ => rfl
  unfold ofBuilder chained declared builderOption?
  cases hname : (root.arg? 0).bind Expr.string? with
  | none =>
      cases henum : enums.find? root.name <;> cases hoptions : options? root <;>
        simp [hnone, hnothing, unknown, withOptions_eq]
  | some name =>
      by_cases hproperty : name = property <;> cases henum : enums.find? root.name <;>
        cases hoptions : options? root <;>
        simp [hnone, hnothing, unknown, withOptions_eq, hproperty, Option.filter]

/-- A further call, outside of those before it. -/
theorem modifiedBy_chained (modifier : Frame) :
    modifiedBy property (chained enums property root modifiers) modifier =
      chained enums property root (modifier :: modifiers) := by
  rw [modifiedBy_eq]
  have htype : ∀ holds : Bool, ∀ rest : String,
      (if modifier.name = "defaultRandom" then "uuid" else if holds then "uuid" else rest) =
        if (["defaultRandom"].contains modifier.name || holds) then "uuid" else rest := by
    intro holds rest
    by_cases hname : modifier.name = "defaultRandom" <;> simp [hname]
  have hone : ∀ name, ([name].contains modifier.name) = decide (modifier.name = name) :=
    fun name => by simp
  simp only [chained, declared, calls_cons, outermost?_cons, htype, Bool.not_or, Option.or_assoc,
    hone]

/-- The name of a property counts like a call. -/
theorem withConventions_chained :
    (chained enums property root modifiers).withConventions property =
      declared enums property root modifiers := by
  have hrequired :
      calls ["primaryKey"] modifiers = true → calls requiredCalls modifiers = true := by
    intro hprimary
    obtain ⟨modifier, hmem, hname⟩ := List.any_eq_true.mp hprimary
    refine List.any_eq_true.mpr ⟨modifier, hmem, ?_⟩
    have hkey : modifier.name = "primaryKey" := by simpa using hname
    simp [hkey, requiredCalls]
  have hdistinct : createdAt ≠ updatedAt := by decide
  unfold withConventions
  by_cases hcreated : property = createdAt
  · simp [hcreated, chained, declared, hdistinct]
  · by_cases hupdated : property = updatedAt
    · by_cases hprimary : calls ["primaryKey"] modifiers = true
      · simp [hupdated, hdistinct.symm, chained, declared, hprimary, hrequired]
      · simp [hupdated, hdistinct.symm, chained, declared, hprimary]
    · by_cases hprimary : calls ["primaryKey"] modifiers = true
      · simp [hupdated, hcreated, chained, declared, hprimary, hrequired]
      · simp [hupdated, hcreated, chained, declared, hprimary]

/-- A chain of calls declares the closed form of its builder and the calls behind it. -/
theorem ofExpr_eq_declared (enums : Enumerations) (property : String) {expr : Expr}
    (hne : expr.frames ≠ []) : ofExpr enums property expr =
      declared enums property (expr.frames.getLast hne) expr.frames.dropLast := by
  have hfold : ∀ modifiers : List Frame, modifiers.reverse.foldl (modifiedBy property)
      (ofBuilder enums property (expr.frames.getLast hne)) =
      chained enums property (expr.frames.getLast hne) modifiers := by
    intro modifiers
    induction modifiers with
    | nil => exact ofBuilder_eq enums property _
    | cons modifier modifiers ih =>
        rw [List.reverse_cons, List.foldl_append, ih]
        exact modifiedBy_chained modifier
  simp only [ofExpr, List.getLast?_eq_getLast_of_ne_nil hne, hfold, withConventions_chained]

/-! ## The order of calls -/

end Column

end EntityModel
