import EntityModel.Proofs.Catalog.Declarations
import EntityModel.Proofs.Catalog.Inverse

/-!
# Join columns

The join column of a relation is named for a key property: the first one that its declaration
lists, or else that of the first column of the target that refers back. The name that the property
has in the table of either side goes before its name in snake case. So the side that is said to
hold the key need not have the join column: a key that is found stands in the table of the target.
-/

namespace EntityModel

namespace Columns

/-- Whether a property has a column with a name of its own. -/
def Names (columns : Columns) (property name : String) : Prop :=
  ∃ column, columns.find? property = some column ∧ column.name = some name

/-- Whether a column stands under a name in its table: its own, or else that of its property. -/
def Stores (columns : Columns) (name : String) : Prop :=
  ∃ entry ∈ columns.entries, entry.2.name.getD entry.1 = name

instance {columns : Columns} {name : String} : Decidable (columns.Stores name) :=
  inferInstanceAs (Decidable (∃ entry ∈ columns.entries, entry.2.name.getD entry.1 = name))

variable {columns : Columns} {property : String}

theorem names_iff {name : String} :
    columns.Names property name ↔ (columns.find? property).bind (·.name) = some name :=
  Option.bind_eq_some_iff.symm

theorem Names.unique {name name' : String} (hnames : columns.Names property name)
    (hnames' : columns.Names property name') : name = name' :=
  Option.some.inj ((names_iff.mp hnames).symm.trans (names_iff.mp hnames'))

theorem stores_of_names {name : String} (hnames : columns.Names property name) :
    columns.Stores name := by
  obtain ⟨column, hcolumn, hname⟩ := hnames
  exact ⟨(property, column), OrderedMap.find?_eq_some_iff.mp hcolumn, by simp [hname]⟩

theorem name_eq_none_of_forall_not_names {column : Column}
    (hcolumn : columns.find? property = some column)
    (hnone : ∀ name, ¬ columns.Names property name) : column.name = none := by
  rw [Option.eq_none_iff_forall_ne_some]
  exact fun name hname => hnone name ⟨column, hcolumn, hname⟩

/-- A column without a name of its own stands under that of its property. -/
theorem stores_of_forall_not_names {column : Column}
    (hcolumn : columns.find? property = some column)
    (hnone : ∀ name, ¬ columns.Names property name) : columns.Stores property := by
  refine ⟨(property, column), OrderedMap.find?_eq_some_iff.mp hcolumn, ?_⟩
  rw [name_eq_none_of_forall_not_names hcolumn hnone, Option.getD_none]

end Columns

namespace Relation

/-- Whether a declaration lists no property in the first place of its columns. -/
def Unlisted (fields : Option (List Expr)) : Prop :=
  ∀ field rest, fields = some (field :: rest) → field.property? = none

/-- Whether a property is the key of a relation of a table variable, by the columns of its target
and the columns that its declaration lists. -/
inductive IsKeyProperty (binding : String) (target : Option Columns)
    (fields : Option (List Expr)) : String → Prop
  | listed {field : Expr} {rest : List Expr} {property : String}
      (hfields : fields = some (field :: rest)) (hproperty : field.property? = some property) :
      IsKeyProperty binding target fields property
  /-- Without a listed property, the first column of the target that refers to the table variable
  is found. -/
  | found {columns : Columns} {front back : List (String × Column)} {property : String}
      {column : Column}
      (hfields : Unlisted fields) (htarget : target = some columns)
      (hentries : columns.entries = front ++ (property, column) :: back)
      (hrefers : column.references = some binding)
      (hfirst : ∀ entry ∈ front, entry.2.references ≠ some binding) :
      IsKeyProperty binding target fields property

/-- Whether the join column of a key property has a name, by the columns of both sides. -/
inductive IsKeyName (own : Columns) (target : Option Columns) (property : String) : String → Prop
  | own {name : String} (hown : own.Names property name) : IsKeyName own target property name
  | target {columns : Columns} {name : String} (hown : ∀ other, ¬ own.Names property other)
      (htarget : target = some columns) (hnames : columns.Names property name) :
      IsKeyName own target property name
  | snakeCase (hown : ∀ other, ¬ own.Names property other)
      (htarget : ∀ columns other, target = some columns → ¬ columns.Names property other) :
      IsKeyName own target property (Naming.snakeCase property)

theorem unlisted_iff {fields : Option (List Expr)} :
    Unlisted fields ↔ (fields.bind List.head?).bind Expr.property? = none := by
  have hfirst : ∀ field, fields.bind List.head? = some field ↔
      ∃ rest, fields = some (field :: rest) := by
    simp [Option.bind_eq_some_iff, List.head?_eq_some_iff]
  simp only [Unlisted, Option.bind_eq_none_iff (o := fields.bind List.head?), hfirst,
    forall_exists_index]

/-- The key column is that of the key property, if there is one. -/
theorem isKeyProperty_iff {owner : Entity} {target : Option Entity} {fields : Option (List Expr)}
    {property : String} : IsKeyProperty owner.binding (target.map (·.columns)) fields property ↔
      ∃ key, keyColumn? owner target fields = some key ∧ key.property = property := by
  constructor
  · intro hproperty
    cases hproperty with
    | listed hfields hproperty =>
        exact ⟨⟨property, (owner.column? property).or (target.bind (·.column? property))⟩,
          by simp [keyColumn?, hfields, hproperty], rfl⟩
    | @found columns front back _ column hfields htarget hentries hrefers hfirst =>
        obtain ⟨entity, rfl, rfl⟩ := Option.map_eq_some_iff.mp htarget
        -- The search goes to the target only where no property is listed.
        have hunlisted := unlisted_iff.mp hfields
        have hfound : entity.columnReferring? owner.binding = some (property, column) :=
          List.find?_eq_some_iff_append.mpr
            ⟨by simpa using hrefers, front, back, hentries, by simpa using hfirst⟩
        exact ⟨⟨property, some column⟩, by simp [keyColumn?, hunlisted, hfound], rfl⟩
  · rintro ⟨key, hkey, rfl⟩
    unfold keyColumn? at hkey
    split at hkey
    next field hfield =>
      obtain rfl := Option.some.inj hkey
      simp only [Option.bind_eq_some_iff] at hfield
      obtain ⟨first, ⟨items, rfl, hhead⟩, hproperty⟩ := hfield
      obtain ⟨rest, rfl⟩ := List.head?_eq_some_iff.mp hhead
      exact .listed rfl hproperty
    next hnone =>
      simp only [Option.map_eq_some_iff, Option.bind_eq_some_iff] at hkey
      obtain ⟨⟨property, column⟩, ⟨entity, rfl, hfound⟩, rfl⟩ := hkey
      obtain ⟨hrefers, front, back, hentries, hfirst⟩ := List.find?_eq_some_iff_append.mp hfound
      exact .found (unlisted_iff.mpr hnone) rfl hentries (by simpa using hrefers)
        (by simpa using hfirst)

theorem isKeyName_physicalName (owner : Entity) (target : Option Entity) (property : String) :
    IsKeyName owner.columns (target.map (·.columns)) property
      (physicalName owner target property) := by
  unfold physicalName Entity.column?
  cases hown : (owner.columns.find? property).bind (·.name) with
  | some name => exact .own (Columns.names_iff.mpr hown)
  | none =>
      have hnone : ∀ other, ¬ Columns.Names owner.columns property other := by
        intro other hnames
        rw [Columns.names_iff, hown] at hnames
        cases hnames
      cases htarget : (target.bind fun entity => entity.columns.find? property).bind (·.name) with
      | some name =>
          obtain ⟨column, hcolumn, hname⟩ := Option.bind_eq_some_iff.mp htarget
          obtain ⟨entity, rfl, hcolumn⟩ := Option.bind_eq_some_iff.mp hcolumn
          exact .target hnone rfl ⟨column, hcolumn, hname⟩
      | none =>
          refine .snakeCase hnone ?_
          rintro columns other hcolumns ⟨column, hcolumn, hname⟩
          obtain ⟨entity, rfl, rfl⟩ := Option.map_eq_some_iff.mp hcolumns
          simp [hcolumn, hname] at htarget

/-- A key property has one name. -/
theorem IsKeyName.unique {own : Columns} {target : Option Columns} {property name name' : String}
    (hname : IsKeyName own target property name) (hname' : IsKeyName own target property name') :
    name = name' := by
  cases hname with
  | own hown =>
      cases hname' with
      | own hown' => exact hown.unique hown'
      | target hnone _ _ | snakeCase hnone _ => exact absurd hown (hnone _)
  | target hnone htarget hnames =>
      cases hname' with
      | own hown => exact absurd hown (hnone _)
      | target _ htarget' hnames' =>
          obtain rfl := Option.some.inj (htarget.symm.trans htarget')
          exact hnames.unique hnames'
      | snakeCase _ hunnamed => exact absurd hnames (hunnamed _ _ htarget)
  | snakeCase hnone hunnamed =>
      cases hname' with
      | own hown => exact absurd hown (hnone _)
      | target _ htarget hnames => exact absurd hnames (hunnamed _ _ htarget)
      | snakeCase _ _ => rfl

theorem IsKeyProperty.exists_of_unlisted {binding : String} {target : Option Columns}
    {fields : Option (List Expr)} {property : String}
    (hproperty : IsKeyProperty binding target fields property) (hunlisted : Unlisted fields) :
    ∃ columns column, target = some columns ∧ columns.find? property = some column ∧
      column.references = some binding := by
  cases hproperty with
  | listed hfields hproperty =>
      rw [hunlisted _ _ hfields] at hproperty
      cases hproperty
  | found _ htarget hentries hrefers _ =>
      refine ⟨_, _, htarget, OrderedMap.find?_eq_some_iff.mpr ?_, hrefers⟩
      rw [hentries]
      exact List.mem_append_right _ List.mem_cons_self

namespace IsKeyName

variable {own : Columns} {target : Option Columns} {property name : String}

/-- A key with a column of the side that declares it is a join column there, unless its name comes
from the target or from the case of the property. -/
theorem stores_own (hname : IsKeyName own target property name) {column : Column}
    (hcolumn : own.find? property = some column) (hkept : column.name ≠ none ∨
      (∀ columns other, target = some columns → ¬ columns.Names property other) ∧
        Naming.snakeCase property = property) : own.Stores name := by
  cases hname with
  | own hown => exact Columns.stores_of_names hown
  | target hown htarget hnames =>
      have hunnamed := Columns.name_eq_none_of_forall_not_names hcolumn hown
      exact absurd hnames ((hkept.resolve_left (not_not_intro hunnamed)).1 _ _ htarget)
  | snakeCase hown _ =>
      have hunnamed := Columns.name_eq_none_of_forall_not_names hcolumn hown
      rw [(hkept.resolve_left (not_not_intro hunnamed)).2]
      exact Columns.stores_of_forall_not_names hcolumn hown

/-- A key with a column of the target is a join column there, unless its name comes from the other
side or from the case of the property. -/
theorem stores_target {columns : Columns} (hname : IsKeyName own (some columns) property name)
    (hown : ∀ other, ¬ own.Names property other) {column : Column}
    (hcolumn : columns.find? property = some column)
    (hkept : column.name ≠ none ∨ Naming.snakeCase property = property) : columns.Stores name := by
  cases hname with
  | own hnames => exact absurd hnames (hown _)
  | target _ htarget hnames =>
      obtain rfl := Option.some.inj htarget
      exact Columns.stores_of_names hnames
  | snakeCase _ hnone =>
      have hunnamed := Columns.name_eq_none_of_forall_not_names hcolumn (hnone columns · rfl)
      rw [hkept.resolve_left (not_not_intro hunnamed)]
      exact Columns.stores_of_forall_not_names hcolumn (hnone columns · rfl)

end IsKeyName

end Relation

namespace Catalog

variable {catalog : Catalog}

/-- The columns of a table variable, if it has an entity. -/
def columnsFor? (catalog : Catalog) (binding : String) : Option Columns :=
  (catalog.entityFor? binding).map (·.columns)

/-- Resolving relations changes no columns. -/
theorem columnsFor?_resolve (catalog : Catalog) (binding : String) :
    catalog.resolve.columnsFor? binding = catalog.columnsFor? binding := by
  have hcolumns : ∀ catalog : Catalog, catalog.columnsFor? binding =
      ((catalog.entities.map fun entity => (entity.binding, entity.columns)).find?
        (·.1 = binding)).map Prod.snd := by
    intro catalog
    rw [List.find?_map, Option.map_map]
    rfl
  rw [hcolumns, hcolumns, map_entities_resolve catalog _ fun _ _ => rfl]

theorem Distinct.columnsFor?_eq (hdistinct : catalog.Distinct) {entity : Entity}
    (hmem : entity ∈ catalog.entities) :
    catalog.columnsFor? entity.binding = some entity.columns := by
  rw [columnsFor?, hdistinct.entityFor?_eq_some_iff.mpr ⟨hmem, rfl⟩, Option.map_some]

/-- What a relation that is read takes for its join column. -/
theorem joinColumn_of_ofExpr? {binding localName : String} {value : Expr} {relation : Relation}
    (hread : Relation.ofExpr? catalog binding localName value = some relation) :
    ∃ owner root, catalog.entityFor? binding = some owner ∧ value.rootFrame? = some root ∧
      (root.arg? 0).bind Expr.name? = some relation.toBinding ∧
      relation.fromBinding = binding ∧ relation.localName = localName ∧
      relation.joinColumn = (Relation.keyColumn? owner (catalog.entityFor? relation.toBinding)
        (Relation.fields? (root.arg? 1))).map fun key =>
          Relation.physicalName owner (catalog.entityFor? relation.toBinding) key.property := by
  simp only [Relation.ofExpr?, Relation.ofTables?, bind, pure, Option.bind_eq_some_iff,
    Option.some.injEq] at hread
  obtain ⟨owner, howner, root, hroot, toBinding, htoBinding, rfl⟩ := hread
  exact ⟨owner, root, howner, hroot, Option.bind_eq_some_iff.mpr htoBinding, rfl, rfl, rfl⟩

/-- How a relation of an entity comes by the name of its join column: through a key property, by
the call that declares it. -/
structure FollowsKey (catalog : Catalog) (entity : Entity) (relation : Relation) (root : Frame)
    (property name : String) : Prop where
  isKeyProperty : Relation.IsKeyProperty entity.binding (catalog.columnsFor? relation.toBinding)
    (Relation.fields? (root.arg? 1)) property
  isKeyName : Relation.IsKeyName entity.columns (catalog.columnsFor? relation.toBinding) property
    name
  /-- The entity itself has the join column, if it has a column of the property that decides its
  name. -/
  stored_own : ∀ column, entity.columns.find? property = some column → column.name ≠ none ∨
      (∀ columns other, catalog.columnsFor? relation.toBinding = some columns →
        ¬ columns.Names property other) ∧ Naming.snakeCase property = property →
    Columns.Stores entity.columns name
  /-- A key that is found is a column of the target, and the target has the join column, if that
  column decides its name. -/
  stored_target : Relation.Unlisted (Relation.fields? (root.arg? 1)) → ∃ columns column,
    catalog.columnsFor? relation.toBinding = some columns ∧
      columns.find? property = some column ∧ column.references = some entity.binding ∧
      ((∀ other, ¬ Columns.Names entity.columns property other) →
        column.name ≠ none ∨ Naming.snakeCase property = property → columns.Stores name)

theorem FollowsKey.of_isKey {entity : Entity} {relation : Relation} {root : Frame}
    {property name : String} (hproperty : Relation.IsKeyProperty entity.binding
      (catalog.columnsFor? relation.toBinding) (Relation.fields? (root.arg? 1)) property)
    (hname : Relation.IsKeyName entity.columns (catalog.columnsFor? relation.toBinding) property
      name) : catalog.FollowsKey entity relation root property name where
  isKeyProperty := hproperty
  isKeyName := hname
  stored_own _ hcolumn hkept := hname.stores_own hcolumn hkept
  stored_target hunlisted := by
    obtain ⟨columns, column, hcolumns, hcolumn, hrefers⟩ := hproperty.exists_of_unlisted hunlisted
    refine ⟨columns, column, hcolumns, hcolumn, hrefers, fun hown hkept => ?_⟩
    rw [hcolumns] at hname
    exact hname.stores_target hown hcolumn hkept

/-- Whether every relation is declared for its entity under its name, by a call from which it
follows whether the relation has a join column, and of which name. -/
def JoinColumnsFollow (catalog : Catalog) (modules : List Module) : Prop :=
  ∀ entity ∈ catalog.entities, ∀ relation ∈ entity.relations,
    ∃ declaration ∈ modules.flatMap (·.declarations), ∃ value root,
      declaration.DeclaresRelation entity.binding relation.localName value ∧
      value.rootFrame? = some root ∧ (root.arg? 0).bind Expr.name? = some relation.toBinding ∧
      ∀ name, relation.joinColumn = some name ↔
        ∃ property, catalog.FollowsKey entity relation root property name

/-- Join columns follow from key properties, whichever side has them. -/
theorem joinColumnsFollow_ofModules (builders : Builders) (modules : List Module) :
    (ofModules builders modules).JoinColumnsFollow modules := by
  have hawaiting := awaiting_collected builders modules
  intro entity hentity relation hmem
  rw [ofModules_eq_resolve] at hentity ⊢
  obtain ⟨hbinding, place, hresult, _⟩ := (hawaiting.mem_relations_resolve_iff hentity).mp hmem
  obtain ⟨stub, _, _, _, hstub, rfl⟩ := Relation.exists_eq_of_getElem?_pairAll hresult
  -- The waiting relation was read from an entry of a declaration, with the columns that stay.
  have hdeclared := List.mem_of_getElem? hstub
  rw [stubs_collected, List.mem_flatMap] at hdeclared
  obtain ⟨declaration, hdeclaration, hdeclared⟩ := hdeclared
  obtain ⟨binding, localName, value, hentry, hread⟩ := mem_relationsOf_iff.mp hdeclared
  obtain ⟨owner, root, howner, hroot, htoBinding, rfl, rfl, hjoin⟩ := joinColumn_of_ofExpr? hread
  obtain ⟨_, hownerBinding⟩ := entityFor?_eq_some howner
  dsimp only at hbinding ⊢
  have hcolumns : entity.columns = owner.columns := by
    have hentityColumns := hawaiting.distinct_resolve.columnsFor?_eq hentity
    rw [columnsFor?_resolve, ← hbinding, columnsFor?, howner, Option.map_some] at hentityColumns
    exact (Option.some.inj hentityColumns).symm
  refine ⟨declaration, hdeclaration, value, root, hbinding ▸ hentry, hroot, htoBinding, ?_⟩
  intro name
  rw [hjoin, Option.map_eq_some_iff]
  constructor
  · rintro ⟨key, hkey, rfl⟩
    refine ⟨key.property, .of_isKey ?_ ?_⟩
    · rw [columnsFor?_resolve, ← hbinding, ← hownerBinding]
      exact Relation.isKeyProperty_iff.mpr ⟨key, hkey, rfl⟩
    · rw [columnsFor?_resolve, hcolumns]
      exact Relation.isKeyName_physicalName owner _ key.property
  · rintro ⟨property, hfollows⟩
    have hproperty := hfollows.isKeyProperty
    have hname := hfollows.isKeyName
    rw [columnsFor?_resolve, ← hbinding, ← hownerBinding] at hproperty
    rw [columnsFor?_resolve, hcolumns] at hname
    obtain ⟨key, hkey, rfl⟩ := Relation.isKeyProperty_iff.mp hproperty
    exact ⟨key, hkey, (Relation.isKeyName_physicalName owner _ key.property).unique hname⟩

/-- Whether every singular relation that owns its key has its join column among the columns of its
own entity. -/
def JoinColumnsOwn (catalog : Catalog) : Prop :=
  ∀ entity ∈ catalog.entities, ∀ relation ∈ entity.relations,
    relation.cardinality.isSingular = true → relation.isOwner = true →
      ∀ name ∈ relation.joinColumn, Columns.Stores entity.columns name

instance : Decidable catalog.JoinColumnsOwn :=
  inferInstanceAs (Decidable (∀ entity ∈ catalog.entities, ∀ relation ∈ entity.relations,
    relation.cardinality.isSingular = true → relation.isOwner = true →
      ∀ name ∈ relation.joinColumn, Columns.Stores entity.columns name))

/-- Users own their profile by the column of profiles that refers to them. A listed key without a
name of its own gets one in snake case, or the one that the target has for the same property. -/
theorem not_joinColumnsOwn_profiles :
    (¬ (ofModules Builders.usual [⟨"profiles.ts", [
      ⟨"users", .call (.ident "pgTable") [.string "users", .object [
        ("id", .call (.member (.call (.ident "uuid") [.string "id"]) "primaryKey") [])]]⟩,
      ⟨"profiles", .call (.ident "pgTable") [.string "profiles", .object [
        ("id", .call (.member (.call (.ident "uuid") [.string "id"]) "primaryKey") []),
        ("userId", .call (.member (.call (.ident "uuid") [.string "user_id"]) "references")
          [.arrow [] (.member (.ident "users") "id")])]]⟩,
      ⟨"profilesRelations", .call (.ident "relations") [.ident "profiles", .arrow ["{ one }"]
        (.object [("user", .call (.ident "one") [.ident "users"])])]⟩,
      ⟨"usersRelations", .call (.ident "relations") [.ident "users", .arrow ["{ one }"]
        (.object [("profile", .call (.ident "one") [.ident "profiles"])])]⟩]⟩]).JoinColumnsOwn) ∧
    (¬ (ofModules Builders.usual [⟨"profiles.ts", [
      ⟨"users", .call (.ident "pgTable") [.string "users", .object [
        ("id", .call (.ident "uuid") [])]]⟩,
      ⟨"profiles", .call (.ident "pgTable") [.string "profiles", .object [
        ("userId", .call (.ident "uuid") [])]]⟩,
      ⟨"profilesRelations", .call (.ident "relations") [.ident "profiles", .arrow ["{ one }"]
        (.object [("user", .call (.ident "one") [.ident "users", .object [
          ("fields", .array [.member (.ident "profiles") "userId"])]])])]⟩]⟩]).JoinColumnsOwn) ∧
    ¬ (ofModules Builders.usual [⟨"profiles.ts", [
      ⟨"users", .call (.ident "pgTable") [.string "users", .object [
        ("id", .call (.ident "uuid") [.string "user_id"])]]⟩,
      ⟨"profiles", .call (.ident "pgTable") [.string "profiles", .object [
        ("id", .call (.ident "uuid") [])]]⟩,
      ⟨"profilesRelations", .call (.ident "relations") [.ident "profiles", .arrow ["{ one }"]
        (.object [("user", .call (.ident "one") [.ident "users", .object [
          ("fields", .array [.member (.ident "profiles") "id"])]])])]⟩]⟩]).JoinColumnsOwn := by
  refine ⟨?_, ?_, ?_⟩ <;> decide +kernel

end Catalog

end EntityModel
