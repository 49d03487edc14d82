import EntityModel.Proofs.Catalog.Indices
import EntityModel.Proofs.Collection.OrderedMap
import EntityModel.Proofs.Expr.Unwinding
import Mathlib.Tactic.SplitIfs

/-!
# What the constraints of a table change

A table lists its constraints in an object, with a key for each, or in an array (`Lists`). They make
columns part of the primary key and append indices, and change nothing else (`Constrains`). A column
is part of the key if any constraint names it, so the columns depend neither on the order of
constraints nor on how often they are applied.
-/

namespace EntityModel

/-- A constraint of a table, with its key if it has one. -/
abbrev Constraint := Option String × Expr

namespace Expr

variable {expr extras : Expr} {root : Frame} {calls : List Frame} {constraints : List Constraint}

/-! ## The constraints that are listed -/

/-- Whether an expression stands for another one: for itself, or for what it returns if it is a
function, with parentheses around either. -/
inductive StandsFor : (expr body : Expr) → Prop
  | itself {expr body : Expr} (hbody : expr.unparen = body)
      (hfunction : ∀ params result, body ≠ .arrow params result) : StandsFor expr body
  | function {expr result body : Expr} {params : List String}
      (hfunction : expr.unparen = .arrow params result) (hbody : result.unparen = body) :
      StandsFor expr body

/-- Whether an expression lists constraints: the entries of an object with their keys, or the items
of an array. Anything else lists none. -/
inductive Lists : Expr → List Constraint → Prop
  | entries {extras : Expr} {entries : List (String × Expr)}
      (hobject : extras.StandsFor (.object entries)) :
      Lists extras (entries.map fun entry => (some entry.1, entry.2))
  | items {extras : Expr} {items : List Expr} (harray : extras.StandsFor (.array items)) :
      Lists extras (items.map fun item => (none, item))
  | none {extras body : Expr} (hbody : extras.StandsFor body)
      (hobject : ∀ entries, body ≠ .object entries) (harray : ∀ items, body ≠ .array items) :
      Lists extras []

theorem StandsFor.definitionBody_eq {body : Expr} (hbody : expr.StandsFor body) :
    Columns.definitionBody expr = body := by
  cases hbody with
  | itself hbody hfunction =>
      rw [Columns.definitionBody, function?, hbody]
      cases body with
      | arrow params result => exact absurd rfl (hfunction params result)
      | _ => rfl
  | function hfunction hbody => rw [Columns.definitionBody, function?, hfunction, ← hbody]

theorem standsFor_definitionBody (expr : Expr) : expr.StandsFor (Columns.definitionBody expr) := by
  rw [Columns.definitionBody, function?]
  cases hexpr : expr.unparen with
  | arrow params result => exact .function hexpr rfl
  | _ => exact .itself hexpr (by simp)

theorem StandsFor.unparen_eq {body : Expr} (hbody : expr.StandsFor body) : body.unparen = body := by
  cases hbody with
  | itself hbody _ => rw [← hbody, unparen_unparen]
  | function _ hbody => rw [← hbody, unparen_unparen]

/-- Every expression lists its constraints and no others. -/
theorem lists_iff : extras.Lists constraints ↔ extras.constraints = constraints := by
  constructor
  · intro hlists
    cases hlists with
    | entries hobject => simp [Expr.constraints, hobject.definitionBody_eq, entries?, unparen]
    | items harray =>
        simp [Expr.constraints, harray.definitionBody_eq, entries?, items?, unparen]
    | @none body hbody hobject harray =>
        rw [Expr.constraints, hbody.definitionBody_eq, entries?, items?, hbody.unparen_eq]
        cases body with
        | object entries => exact absurd rfl (hobject entries)
        | array items => exact absurd rfl (harray items)
        | _ => rfl
  · rintro rfl
    have hbody := standsFor_definitionBody extras
    rw [Expr.constraints, entries?, items?, hbody.unparen_eq]
    cases hexpr : Columns.definitionBody extras with
    | object entries => exact .entries (hexpr ▸ hbody)
    | array items => exact .items (hexpr ▸ hbody)
    | _ => exact .none hbody (by simp [hexpr]) (by simp [hexpr])

theorem property?_eq_some_iff {property : String} :
    expr.property? = some property ↔ ∃ target, expr.unparen = .member target property := by
  unfold property?
  cases expr.unparen <;> simp

end Expr

namespace Frame

variable {root : Frame} {property : String}

/-- Whether the first argument of a call is an object with columns. -/
def HasColumns (root : Frame) (columns : Expr) : Prop :=
  ∃ first rest entries, root.args = first :: rest ∧ first.unparen = .object entries ∧
    entries.lookup "columns" = some columns

/-- Whether a call names a property for a primary key: if its first argument is an object with
columns, these are a list of which one does, and else one of the arguments does. -/
inductive NamesKey (root : Frame) : String → Prop
  | listed {columns item target : Expr} {items : List Expr} {property : String}
      (hcolumns : root.HasColumns columns) (hitems : columns.unparen = .array items)
      (hitem : item ∈ items) (hproperty : item.unparen = .member target property) :
      NamesKey root property
  | positional {argument target : Expr} {property : String}
      (hcolumns : ∀ columns, ¬ root.HasColumns columns) (hargument : argument ∈ root.args)
      (hproperty : argument.unparen = .member target property) : NamesKey root property

theorem bind_get?_eq_some_iff {bare : Expr} :
    (root.arg? 0).bind (·.get? "columns") = some bare ↔
      ∃ columns, root.HasColumns columns ∧ columns.unparen = bare := by
  unfold HasColumns arg?
  cases root.args with
  | nil => simp
  | cons first rest =>
      simp only [List.getElem?_cons_zero, Option.map_some, Option.bind_some, Expr.get?,
        Expr.entries?, Expr.unparen_unparen]
      cases hfirst : first.unparen with
      | object entries => simp [hfirst, Option.bind_eq_some_iff]
      | _ => simp [hfirst]

/-- Where there are columns, a key consists of the properties in their list. -/
theorem HasColumns.mem_keyProperties_iff {columns : Expr} (hcolumns : root.HasColumns columns) :
    property ∈ root.keyProperties ↔ ∃ items item target, columns.unparen = .array items ∧
      item ∈ items ∧ item.unparen = .member target property := by
  have hbare := bind_get?_eq_some_iff.mpr ⟨columns, hcolumns, rfl⟩
  simp only [keyProperties, hbare, Expr.items?, Expr.unparen_unparen, List.mem_filterMap,
    Expr.property?_eq_some_iff]
  cases columns.unparen with
  | array items => simp
  | _ => simp

/-- Where there are none, it consists of those among the arguments. -/
theorem mem_keyProperties_iff_of_none (hcolumns : ∀ columns, ¬ root.HasColumns columns) :
    property ∈ root.keyProperties ↔ ∃ argument ∈ root.args, ∃ target,
      argument.unparen = .member target property := by
  have hnone : (root.arg? 0).bind (·.get? "columns") = none := by
    apply Option.eq_none_iff_forall_ne_some.mpr
    intro bare hbare
    obtain ⟨columns, hsome, _⟩ := bind_get?_eq_some_iff.mp hbare
    exact hcolumns columns hsome
  simp only [keyProperties, hnone, List.mem_filterMap, Expr.property?_eq_some_iff]

theorem mem_keyProperties_iff : property ∈ root.keyProperties ↔ root.NamesKey property := by
  constructor
  · intro hmem
    by_cases hsome : ∃ columns, root.HasColumns columns
    · obtain ⟨columns, hcolumns⟩ := hsome
      obtain ⟨items, item, target, hitems, hitem, hproperty⟩ :=
        hcolumns.mem_keyProperties_iff.mp hmem
      exact .listed hcolumns hitems hitem hproperty
    · have hcolumns := not_exists.mp hsome
      obtain ⟨argument, hargument, target, hproperty⟩ :=
        (mem_keyProperties_iff_of_none hcolumns).mp hmem
      exact .positional hcolumns hargument hproperty
  · intro hnames
    cases hnames with
    | listed hcolumns hitems hitem hproperty =>
        exact hcolumns.mem_keyProperties_iff.mpr ⟨_, _, _, hitems, hitem, hproperty⟩
    | positional hcolumns hargument hproperty =>
        exact (mem_keyProperties_iff_of_none hcolumns).mpr ⟨_, hargument, _, hproperty⟩

end Frame

namespace Constraint

variable {constraint : Constraint} {root : Frame} {calls : List Frame} {tableName property : String}

/-- Whether one of some constraints is a primary key that names a property. -/
def MakesKey (constraints : List Constraint) (property : String) : Prop :=
  ∃ constraint ∈ constraints, ∃ root calls, constraint.2.ConsistsOf root calls ∧
    root.name = "primaryKey" ∧ root.NamesKey property

/-- Whether a constraint is an index: a chain of calls that starts with that of an index. -/
def IsIndex (constraint : Constraint) : Prop :=
  ∃ root calls, constraint.2.ConsistsOf root calls ∧
    root.name ∈ ["index", "uniqueIndex", "unique"]

/-- Whether an index of a table is what a constraint declares. -/
def Declares (tableName : String) (constraint : Constraint) (index : Index) : Prop :=
  ∃ root calls, constraint.2.ConsistsOf root calls ∧
    root.name ∈ ["index", "uniqueIndex", "unique"] ∧
    Index.FollowsCalls tableName constraint.1 root calls index

/-- Whether indices of a table are those of some constraints: one for each constraint that is an
index, in their order. -/
inductive DeclareIndices (tableName : String) : List Constraint → List Index → Prop
  | nil : DeclareIndices tableName [] []
  | index {constraint : Constraint} {constraints : List Constraint} {index : Index}
      {indices : List Index} (hdeclares : constraint.Declares tableName index)
      (hrest : DeclareIndices tableName constraints indices) :
      DeclareIndices tableName (constraint :: constraints) (index :: indices)
  | skip {constraint : Constraint} {constraints : List Constraint} {indices : List Index}
      (hother : ¬ constraint.IsIndex) (hrest : DeclareIndices tableName constraints indices) :
      DeclareIndices tableName (constraint :: constraints) indices

theorem DeclareIndices.append {first second : List Constraint} {indices added : List Index}
    (hfirst : DeclareIndices tableName first indices)
    (hsecond : DeclareIndices tableName second added) :
    DeclareIndices tableName (first ++ second) (indices ++ added) := by
  induction hfirst with
  | nil => exact hsecond
  | index hdeclares _ ih => exact .index hdeclares ih
  | skip hother _ ih => exact .skip hother ih

theorem makesKey_append {first second : List Constraint} :
    MakesKey (first ++ second) property ↔ MakesKey first property ∨ MakesKey second property := by
  simp only [MakesKey, List.mem_append, or_and_right, exists_or]

theorem makesKey_singleton_iff (hchain : constraint.2.ConsistsOf root calls) :
    MakesKey [constraint] property ↔ root.name = "primaryKey" ∧ root.NamesKey property := by
  constructor
  · rintro ⟨other, hmem, root', calls', hother, hkey⟩
    obtain rfl := List.mem_singleton.mp hmem
    obtain ⟨rfl, _⟩ := hchain.unique hother
    exact hkey
  · intro hkey
    exact ⟨constraint, List.mem_singleton_self _, root, calls, hchain, hkey⟩

theorem isIndex_iff (hchain : constraint.2.ConsistsOf root calls) :
    constraint.IsIndex ↔ root.isIndex = true := by
  rw [Frame.isIndex, List.contains_iff_mem]
  constructor
  · rintro ⟨root', calls', hother, hname⟩
    obtain ⟨rfl, _⟩ := hchain.unique hother
    exact hname
  · intro hname
    exact ⟨root, calls, hchain, hname⟩

theorem declares_ofFrames (hchain : constraint.2.ConsistsOf root calls)
    (hindex : root.isIndex = true) :
    constraint.Declares tableName
      (Index.ofFrames tableName constraint.1 constraint.2.frames root) := by
  have hname : root.name ∈ ["index", "uniqueIndex", "unique"] := List.contains_iff_mem.mp hindex
  refine ⟨root, calls, hchain, hname, ?_⟩
  rw [Expr.consistsOf_iff.mp hchain]
  apply Index.followsCalls_ofFrames
  intro hon
  simp [hon] at hname

theorem MakesKey.of_perm {first second : List Constraint} (hmakes : MakesKey first property)
    (hperm : first.Perm second) : MakesKey second property := by
  obtain ⟨constraint, hmem, hkey⟩ := hmakes
  exact ⟨constraint, hperm.mem_iff.mp hmem, hkey⟩

end Constraint

namespace Column

theorem makePrimary_makePrimary (column : Column) :
    column.makePrimary.makePrimary = column.makePrimary := rfl

end Column

namespace Entity

open Constraint

variable {constraints : List Constraint} {before after : Entity}

/-- What constraints of a table change: the columns that they name for a primary key, and the
indices, by one for each constraint that is an index. -/
structure Constrains (constraints : List Constraint) (before after : Entity) : Prop where
  name_eq : after.name = before.name
  tableName_eq : after.tableName = before.tableName
  binding_eq : after.binding = before.binding
  fileName_eq : after.fileName = before.fileName
  relations_eq : after.relations = before.relations
  keys_eq : after.columns.keys = before.columns.keys
  column_of_key : ∀ property, MakesKey constraints property → after.column? property =
    (before.column? property).map fun column => { column with primary := true, nullable := false }
  column_of_other : ∀ property, ¬ MakesKey constraints property →
    after.column? property = before.column? property
  indices_eq : ∃ added, after.indices = before.indices ++ added ∧
    DeclareIndices before.tableName constraints added

theorem keys_makePrimary (entity : Entity) (properties : List String) :
    (entity.makePrimary properties).columns.keys = entity.columns.keys := by
  unfold makePrimary
  dsimp only
  generalize entity.columns = columns
  induction properties generalizing columns with
  | nil => rfl
  | cons property properties ih => rw [List.foldl_cons, ih, OrderedMap.keys_modify]

/-- Making a column primary again does not change it. -/
theorem column?_makePrimary (entity : Entity) (properties : List String) (property : String) :
    (entity.makePrimary properties).column? property =
      if property ∈ properties then (entity.column? property).map Column.makePrimary
      else entity.column? property := by
  unfold makePrimary column?
  dsimp only
  generalize entity.columns = columns
  induction properties generalizing columns with
  | nil => rfl
  | cons first properties ih =>
      rw [List.foldl_cons, ih, OrderedMap.find?_modify]
      by_cases hfirst : property = first
      · subst hfirst
        by_cases hmem : property ∈ properties <;>
          simp [hmem, Function.comp_def, Column.makePrimary_makePrimary]
      · simp [hfirst]

namespace Constrains

theorem nil (entity : Entity) : Constrains [] entity entity where
  name_eq := rfl
  tableName_eq := rfl
  binding_eq := rfl
  fileName_eq := rfl
  relations_eq := rfl
  keys_eq := rfl
  column_of_key property hmakes := by
    obtain ⟨constraint, hmem, _⟩ := hmakes
    cases hmem
  column_of_other _ _ := rfl
  indices_eq := ⟨[], (List.append_nil _).symm, .nil⟩

/-- A constraint that is no index appends none. -/
theorem indices_skip (hbefore : Constrains constraints before after) {constraint : Constraint}
    (hindex : ¬ constraint.IsIndex) : ∃ added, after.indices = before.indices ++ added ∧
      DeclareIndices before.tableName (constraints ++ [constraint]) added := by
  obtain ⟨added, hadded, hdeclares⟩ := hbefore.indices_eq
  refine ⟨added, hadded, ?_⟩
  rw [← List.append_nil added]
  exact hdeclares.append (.skip hindex .nil)

/-- A constraint that is neither a key nor an index counts for nothing. -/
theorem skip (hbefore : Constrains constraints before after) {constraint : Constraint}
    (hmakes : ∀ property, ¬ MakesKey [constraint] property) (hindex : ¬ constraint.IsIndex) :
    Constrains (constraints ++ [constraint]) before after where
  __ := hbefore
  column_of_key property hkey :=
    hbefore.column_of_key property ((makesKey_append.mp hkey).resolve_right (hmakes property))
  column_of_other property hnone :=
    hbefore.column_of_other property fun hkey => hnone (makesKey_append.mpr (Or.inl hkey))
  indices_eq := hbefore.indices_skip hindex

theorem key (hbefore : Constrains constraints before after) {constraint : Constraint}
    {root : Frame} {calls : List Frame} (hchain : constraint.2.ConsistsOf root calls)
    (hname : root.name = "primaryKey") :
    Constrains (constraints ++ [constraint]) before (after.makePrimary root.keyProperties) where
  __ := hbefore
  keys_eq := (keys_makePrimary _ _).trans hbefore.keys_eq
  column_of_key property hkey := by
    rw [makesKey_append, makesKey_singleton_iff hchain, ← Frame.mem_keyProperties_iff] at hkey
    rw [column?_makePrimary]
    -- A column that an earlier constraint names is primary already.
    by_cases hformer : MakesKey constraints property
    · rw [hbefore.column_of_key property hformer]
      split_ifs
      · rw [Option.map_map]
        rfl
      · rfl
    · rw [if_pos (hkey.resolve_left hformer).2, hbefore.column_of_other property hformer]
      rfl
  column_of_other property hnone := by
    rw [makesKey_append, makesKey_singleton_iff hchain, ← Frame.mem_keyProperties_iff, not_or,
      not_and] at hnone
    rw [column?_makePrimary, if_neg (hnone.2 hname), hbefore.column_of_other property hnone.1]
  indices_eq := by
    apply hbefore.indices_skip
    rw [isIndex_iff hchain, Frame.isIndex, hname]
    decide

theorem index (hbefore : Constrains constraints before after) {constraint : Constraint}
    {root : Frame} {calls : List Frame} (hchain : constraint.2.ConsistsOf root calls)
    (hindex : root.isIndex = true) :
    Constrains (constraints ++ [constraint]) before { after with
      indices := after.indices ++
        [Index.ofFrames after.tableName constraint.1 constraint.2.frames root] } where
  __ := hbefore
  column_of_key property hkey := by
    rw [makesKey_append, makesKey_singleton_iff hchain] at hkey
    apply hbefore.column_of_key property
    apply hkey.resolve_right
    rintro ⟨hname, _⟩
    simp [Frame.isIndex, hname] at hindex
  column_of_other property hnone :=
    hbefore.column_of_other property fun hkey => hnone (makesKey_append.mpr (Or.inl hkey))
  indices_eq := by
    obtain ⟨added, hadded, hdeclares⟩ := hbefore.indices_eq
    refine ⟨added ++ [Index.ofFrames before.tableName constraint.1 constraint.2.frames root],
      ?_, ?_⟩
    · rw [hadded, hbefore.tableName_eq, List.append_assoc]
    · exact hdeclares.append (.index (declares_ofFrames hchain hindex) .nil)

/-- One more constraint changes what it names or declares. -/
theorem step (hbefore : Constrains constraints before after) (constraint : Constraint) :
    Constrains (constraints ++ [constraint]) before (after.withConstraint constraint) := by
  obtain ⟨key, value⟩ := constraint
  dsimp only [withConstraint]
  split
  next hnone =>
    have hchain : ∀ root calls, ¬ value.ConsistsOf root calls := by
      intro root calls hvalue
      rw [Expr.consistsOf_iff.mp hvalue, List.getLast?_concat] at hnone
      cases hnone
    refine hbefore.skip ?_ ?_
    · rintro property ⟨other, hmem, root, calls, hvalue, _⟩
      obtain rfl := List.mem_singleton.mp hmem
      exact hchain root calls hvalue
    · rintro ⟨root, calls, hvalue, _⟩
      exact hchain root calls hvalue
  next root hlast =>
    obtain ⟨calls, hvalue⟩ := Expr.exists_consistsOf hlast
    split_ifs with hname hindex
    · exact hbefore.key hvalue hname
    · exact hbefore.index hvalue hindex
    · refine hbefore.skip (fun property hmakes => ?_) (mt (isIndex_iff hvalue).mp hindex)
      exact hname ((makesKey_singleton_iff hvalue).mp hmakes).1

theorem run (entity : Entity) (constraints : List Constraint) :
    Constrains constraints entity (constraints.foldl withConstraint entity) := by
  induction constraints using List.reverseRecOn with
  | nil => exact nil entity
  | append_singleton constraints constraint ih =>
      rw [List.foldl_append]
      exact ih.step constraint

/-- The columns follow from which properties are named for a key. -/
theorem columns_eq {others : List Constraint} {after' : Entity}
    (hconstrains : Constrains constraints before after)
    (hothers : Constrains others before after')
    (hsame : ∀ property, MakesKey constraints property ↔ MakesKey others property) :
    after.columns = after'.columns := by
  apply OrderedMap.eq_of_keys_of_find? (hconstrains.keys_eq.trans hothers.keys_eq.symm)
  intro property
  by_cases hmakes : MakesKey constraints property
  · exact (hconstrains.column_of_key property hmakes).trans
      (hothers.column_of_key property ((hsame property).mp hmakes)).symm
  · exact (hconstrains.column_of_other property hmakes).trans
      (hothers.column_of_other property (mt (hsame property).mpr hmakes)).symm

end Constrains

/-- Whether no column of a primary key may be null. -/
def KeysRequired (entity : Entity) : Prop :=
  ∀ property column, entity.column? property = some column → column.primary = true →
    column.nullable = false

theorem Constrains.keysRequired (hconstrains : Constrains constraints before after)
    (hrequired : before.KeysRequired) : after.KeysRequired := by
  intro property column hcolumn hprimary
  by_cases hmakes : MakesKey constraints property
  · rw [hconstrains.column_of_key property hmakes, Option.map_eq_some_iff] at hcolumn
    obtain ⟨former, _, rfl⟩ := hcolumn
    rfl
  · rw [hconstrains.column_of_other property hmakes] at hcolumn
    exact hrequired property column hcolumn hprimary

/-- Every expression lists constraints, and these change nothing but the columns that they name for
a primary key, and append one index for each of them that is an index. So the columns depend neither
on their order nor on how often they are applied, and primary keys stay required. -/
theorem withExtras_constrains :
    (∀ extras : Expr, ∃ constraints, extras.Lists constraints) ∧
    (∀ (entity : Entity) extras constraints, extras.Lists constraints →
      Constrains constraints entity (entity.withExtras extras)) ∧
    (∀ (entity : Entity) extras others first second, extras.Lists first → others.Lists second →
      first.Perm second → (entity.withExtras extras).columns = (entity.withExtras others).columns) ∧
    (∀ (entity : Entity) extras, ((entity.withExtras extras).withExtras extras).columns =
      (entity.withExtras extras).columns) ∧
    (∀ (entity : Entity) extras, entity.KeysRequired → (entity.withExtras extras).KeysRequired) := by
  have hrun : ∀ (entity : Entity) (extras : Expr),
      Constrains extras.constraints entity (entity.withExtras extras) :=
    fun entity extras => .run entity extras.constraints
  refine ⟨fun extras => ⟨_, Expr.lists_iff.mpr rfl⟩, fun entity extras constraints hlists => ?_,
    fun entity extras others first second hfirst hsecond hperm => ?_, fun entity extras => ?_,
    fun entity extras hrequired => (hrun entity extras).keysRequired hrequired⟩
  · rw [← Expr.lists_iff.mp hlists]
    exact hrun entity extras
  · rw [← Expr.lists_iff.mp hfirst, ← Expr.lists_iff.mp hsecond] at hperm
    exact (hrun entity extras).columns_eq (hrun entity others) fun property =>
      ⟨fun hmakes => hmakes.of_perm hperm, fun hmakes => hmakes.of_perm hperm.symm⟩
  · -- Applying constraints twice is applying the list of them followed by itself.
    have htwice : Constrains (extras.constraints ++ extras.constraints) entity
        ((entity.withExtras extras).withExtras extras) := by
      have happly := Constrains.run entity (extras.constraints ++ extras.constraints)
      rwa [List.foldl_append] at happly
    exact htwice.columns_eq (hrun entity extras) fun property => by
      rw [makesKey_append, or_self_iff]

/-- A key over two columns and an index: the entries of an object that a function returns, and in the
other order those of an object alone. -/
theorem withExtras_keyAndIndex :
    let table : Entity := { Entity.bare "Members" "members" "members" "members.ts" with
      columns := OrderedMap.ofList [("user", .unknown), ("team", .unknown), ("note", .unknown)] }
    let column (property : String) : Expr := .member (.ident "t") property
    let key : Expr := .call (.ident "primaryKey")
      [.object [("columns", .array [column "user", column "team"])]]
    let byTeam : Expr := .call (.member (.call (.ident "index") []) "on") [column "team"]
    let extras : Expr := .arrow ["t"] (.paren (.object [("pk", key), ("byTeam", byTeam)]))
    let others : Expr := .object [("byTeam", byTeam), ("pk", key)]
    let constraints : List Constraint := [(some "pk", key), (some "byTeam", byTeam)]
    extras.Lists constraints ∧ others.Lists constraints.reverse ∧ table.KeysRequired ∧
      Constrains constraints table (table.withExtras extras) ∧
      (table.withExtras extras).columns = (table.withExtras others).columns ∧
      (table.withExtras extras).KeysRequired ∧
      (table.withExtras extras).column? "user" =
        some { Column.unknown with primary := true, nullable := false } := by
  intro table column key byTeam extras others constraints
  have hextras : extras.Lists constraints := Expr.lists_iff.mpr rfl
  have hothers : others.Lists constraints.reverse := Expr.lists_iff.mpr rfl
  have hplain : ∀ entry ∈ table.columns.entries, entry.2.primary = false := by decide
  have hrequired : table.KeysRequired := by
    intro property found hcolumn hprimary
    rw [hplain _ (OrderedMap.find?_eq_some_iff.mp hcolumn)] at hprimary
    cases hprimary
  obtain ⟨_, hconstrains, hperm, _, hkeys⟩ := withExtras_constrains
  have hrun := hconstrains table extras constraints hextras
  refine ⟨hextras, hothers, hrequired, hrun,
    hperm table extras others _ _ hextras hothers (List.reverse_perm _).symm,
    hkeys table extras hrequired, ?_⟩
  have huser : Constraint.MakesKey constraints "user" :=
    ⟨_, List.mem_cons_self, ⟨"primaryKey", _⟩, [], Expr.consistsOf_iff.mpr rfl, rfl,
      .listed ⟨_, _, _, rfl, rfl, rfl⟩ rfl List.mem_cons_self rfl⟩
  rw [hrun.column_of_key "user" huser]
  rfl

end Entity

end EntityModel
