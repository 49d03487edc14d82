import EntityModel.File.Output
import EntityModel.Proofs.Json.Document

/-!
# The entity model reads back

The entities of a document are read by the names of its members and by the kinds of its values. The
text that the entity model is written as reads back as the model, so that no two models have one
text.
-/

namespace EntityModel

/-! ## Reading by names and kinds -/

namespace Json

variable {α : Type}

def string? : Json → Option String
  | .string value => some value
  | _ => none

def boolean? : Json → Option Bool
  | .boolean value => some value
  | _ => none

def natural? : Json → Option Nat
  | .natural value => some value
  | _ => none

def number? : Json → Option Number
  | .number value => some value
  | _ => none

/-- A value that may be absent. -/
def optional? (read? : Json → Option α) : Json → Option (Option α)
  | .null => some none
  | document => (read? document).map some

def items? (read? : Json → Option α) : Json → Option (List α)
  | .array items => items.mapM read?
  | _ => none

/-- The members of an object with their names. -/
def members? (read? : Json → Option α) : Json → Option (List (String × α))
  | .object members => members.mapM fun (name, value) => (read? value).map (name, ·)
  | _ => none

/-- The value of the member with a name. -/
def field? (name : String) (read? : Json → Option α) : Json → Option α
  | .object members => (members.lookup name).bind read?
  | _ => none

end Json

open Json

def DefaultValue.ofJson? (document : Json) : Option DefaultValue :=
  match document.field? "kind" string? with
  | some "number" => (document.field? "value" number?).map .number
  | some "str" => (document.field? "value" string?).map .string
  | some "bool" => (document.field? "value" boolean?).map .boolean
  | some "null" => some .null
  | some "computed" => some .computed
  | _ => none

def Column.ofJson? (document : Json) : Option Column := do
  return {
    type := ← document.field? "type" string?
    nullable := ← document.field? "nullable" boolean?
    primary := ← document.field? "primary" boolean?
    unique := ← document.field? "unique" boolean?
    array := ← document.field? "array" boolean?
    generated := ← document.field? "generated" (optional? string?)
    default := ← document.field? "default" (optional? DefaultValue.ofJson?)
    createDate := ← document.field? "create_date" boolean?
    updateDate := ← document.field? "update_date" boolean?
    enumValues := ← document.field? "enum" (items? string?)
    length := ← document.field? "length" (optional? natural?)
    precision := ← document.field? "precision" (optional? natural?)
    scale := ← document.field? "scale" (optional? natural?)
    name := ← document.field? "name" (optional? string?)
    references := ← document.field? "references_var" (optional? string?)
    onDelete := ← document.field? "on_delete" (optional? string?)
    onUpdate := ← document.field? "on_update" (optional? string?)
    cascade := ← document.field? "cascade" (optional? boolean?) }

def RelationBuilder.ofJson? (document : Json) : Option RelationBuilder :=
  match document.field? "kind" string? with
  | some "many" => some .many
  | some "one" => some .one
  | some "other" => (document.field? "name" string?).map .other
  | _ => none

def Cardinality.ofText? (text : String) : Option Cardinality :=
  [oneToMany, manyToOne, oneToOne, manyToMany].find? (·.text = text)

def Relation.ofJson? (document : Json) : Option Relation := do
  return {
    fromEntity := ← document.field? "from_entity" string?
    fromBinding := ← document.field? "from_var" string?
    localName := ← document.field? "local_name" string?
    toEntity := ← document.field? "to_entity" string?
    toBinding := ← document.field? "to_var" string?
    cardinality := ← (← document.field? "rel_type" string?) |> Cardinality.ofText?
    inverseSide := ← document.field? "inverse_side" (optional? string?)
    joinColumn := ← document.field? "join_column_name" (optional? string?)
    isOwner := ← document.field? "is_owner" boolean?
    onDelete := ← document.field? "on_delete" (optional? string?)
    onUpdate := ← document.field? "on_update" (optional? string?)
    cascade := ← document.field? "cascade" (optional? boolean?)
    builder := ← document.field? "orig_kind" RelationBuilder.ofJson?
    explicitFields := ← document.field? "explicit_fields" boolean?
    label := ← document.field? "custom_name" (optional? string?) }

def Index.ofJson? (document : Json) : Option Index := do
  return {
    name := ← document.field? "name" string?
    columns := ← document.field? "columns" (items? string?)
    unique := ← document.field? "unique" boolean? }

/-- An entity; its columns are the members of an object. -/
def Entity.ofJson? (document : Json) : Option Entity := do
  return {
    name := ← document.field? "name" string?
    tableName := ← document.field? "table_name" string?
    binding := ← document.field? "variable" string?
    fileName := ← document.field? "file_name" string?
    columns := OrderedMap.ofList (← document.field? "columns" (members? Column.ofJson?))
    relations := ← document.field? "relations" (items? Relation.ofJson?)
    indices := ← document.field? "indices" (items? Index.ofJson?) }

def Json.entities? : Json → Option (List Entity) := items? Entity.ofJson?

/-! ## What was written reads back -/

namespace Json

variable {α : Type} {write : α → Json} {read? : Json → Option α}

@[simp] theorem string?_string (value : String) : string? (.string value) = some value := rfl

@[simp] theorem boolean?_boolean (value : Bool) : boolean? (.boolean value) = some value := rfl

@[simp] theorem natural?_natural (value : Nat) : natural? (.natural value) = some value := rfl

@[simp] theorem number?_number (value : Number) : number? (.number value) = some value := rfl

@[simp] theorem field?_cons {name other : String} {value : Json} {members : List (String × Json)} :
    field? name read? (.object ((other, value) :: members)) =
      if name = other then read? value else field? name read? (.object members) := by
  rw [field?, List.lookup_cons]
  by_cases hname : name = other
  · simp [hname]
  · simp [hname, field?, beq_eq_false_iff_ne.mpr hname]

/-- A value that may be absent reads back if it is not written as an absent one. -/
theorem optional?_ofOption (hread : ∀ value, read? (write value) = some value)
    (hnull : read? .null = none) (value : Option α) :
    optional? read? (ofOption write value) = some value := by
  cases value with
  | none => rfl
  | some value =>
      have hvalue := hread value
      rw [ofOption]
      cases hwrite : write value with
      | null =>
          rw [hwrite, hnull] at hvalue
          cases hvalue
      | _ =>
          rw [hwrite] at hvalue
          simp only [optional?, hvalue, Option.map_some]

theorem items?_map {values : List α} (hread : ∀ value ∈ values, read? (write value) = some value) :
    items? read? (.array (values.map write)) = some values := by
  rw [items?]
  induction values with
  | nil => rfl
  | cons value values ih =>
      obtain ⟨hvalue, hvalues⟩ := List.forall_mem_cons.mp hread
      rw [List.map_cons, List.mapM_cons, hvalue, ih hvalues]
      rfl

theorem items?_ofTexts (texts : List String) : items? string? (ofTexts texts) = some texts :=
  items?_map fun _ _ => rfl

theorem members?_map {entries : List (String × α)}
    (hread : ∀ entry ∈ entries, read? (write entry.2) = some entry.2) :
    members? read? (.object (entries.map fun (name, value) => (name, write value))) =
      some entries := by
  rw [members?]
  induction entries with
  | nil => rfl
  | cons entry entries ih =>
      obtain ⟨hentry, hentries⟩ := List.forall_mem_cons.mp hread
      rw [List.map_cons, List.mapM_cons, ih hentries]
      simp [hentry]

end Json

@[simp] theorem DefaultValue.ofJson?_toJson (value : DefaultValue) :
    DefaultValue.ofJson? value.toJson = some value := by
  cases value <;> simp [toJson, ofJson?]

@[simp] theorem Column.ofJson?_toJson (column : Column) :
    Column.ofJson? column.toJson = some column := by
  have htext := optional?_ofOption string?_string rfl
  have hnatural := optional?_ofOption natural?_natural rfl
  have hboolean := optional?_ofOption boolean?_boolean rfl
  have hdefault := optional?_ofOption DefaultValue.ofJson?_toJson rfl
  simp [toJson, ofJson?, htext, hnatural, hboolean, hdefault, items?_ofTexts]

@[simp] theorem RelationBuilder.ofJson?_toJson (builder : RelationBuilder) :
    RelationBuilder.ofJson? builder.toJson = some builder := by
  cases builder <;> simp [toJson, ofJson?]

@[simp] theorem Cardinality.ofText?_text (cardinality : Cardinality) :
    Cardinality.ofText? cardinality.text = some cardinality := by
  cases cardinality <;> decide

@[simp] theorem Relation.ofJson?_toJson (relation : Relation) :
    Relation.ofJson? relation.toJson = some relation := by
  have htext := optional?_ofOption string?_string rfl
  have hboolean := optional?_ofOption boolean?_boolean rfl
  simp [toJson, ofJson?, htext, hboolean]

@[simp] theorem Index.ofJson?_toJson (index : Index) :
    Index.ofJson? index.toJson = some index := by
  simp [toJson, ofJson?, items?_ofTexts]

@[simp] theorem Entity.ofJson?_toJson (entity : Entity) :
    Entity.ofJson? entity.toJson = some entity := by
  have hcolumns : members? Column.ofJson? (.object (entity.columns.entries.map
      fun entry => (entry.1, entry.2.toJson))) = some entity.columns.entries :=
    members?_map fun entry _ => entry.2.ofJson?_toJson
  have hrelations : items? Relation.ofJson? (.array (entity.relations.map Relation.toJson)) =
      some entity.relations :=
    items?_map fun relation _ => relation.ofJson?_toJson
  have hindices : items? Index.ofJson? (.array (entity.indices.map Index.toJson)) =
      some entity.indices :=
    items?_map fun index _ => index.ofJson?_toJson
  simp [toJson, ofJson?, hcolumns, hrelations, hindices, OrderedMap.ofList_entries]

theorem Json.entities?_ofEntities (entities : List Entity) :
    Json.entities? (Json.ofEntities entities) = some entities :=
  items?_map fun entity _ => entity.ofJson?_toJson

/-! ## Finite numbers -/

/-- Whether the default of a column is no infinite number and not NaN. -/
def Column.HasFiniteDefault (column : Column) : Prop :=
  ∀ value, column.default = some (.number value) → value.isFinite = true

def Entity.HasFiniteDefaults (entity : Entity) : Prop :=
  ∀ entry ∈ entity.columns.entries, entry.2.HasFiniteDefault

namespace Json

variable {α : Type} {write : α → Json}

theorem isFinite_ofOption {value : Option α}
    (hfinite : ∀ held, value = some held → (write held).IsFinite) :
    (ofOption write value).IsFinite := by
  cases value with
  | none => exact .null
  | some held => exact hfinite held rfl

theorem isFinite_array_map {values : List α}
    (hfinite : ∀ value ∈ values, (write value).IsFinite) :
    (array (values.map write)).IsFinite := by
  refine .array _ fun item hitem => ?_
  obtain ⟨value, hvalue, rfl⟩ := List.mem_map.mp hitem
  exact hfinite value hvalue

theorem isFinite_object {members : List (String × Json)}
    (hvalues : ∀ value ∈ members.map Prod.snd, value.IsFinite) : (object members).IsFinite :=
  .object _ fun _ hmember => hvalues _ (List.mem_map_of_mem hmember)

end Json

theorem DefaultValue.isFinite_toJson {value : DefaultValue}
    (hfinite : ∀ number, value = .number number → number.isFinite = true) :
    value.toJson.IsFinite := by
  cases value with
  | number number =>
      have hnumber := hfinite number rfl
      cases number with
      | finite negative magnitude =>
          exact isFinite_object (by simp [IsFinite.string, IsFinite.number])
      | infinite negative => cases hnumber
      | nan => cases hnumber
  | string value => exact isFinite_object (by simp [IsFinite.string])
  | boolean value => exact isFinite_object (by simp [IsFinite.string, IsFinite.boolean])
  | null => exact isFinite_object (by simp [IsFinite.string])
  | computed => exact isFinite_object (by simp [IsFinite.string])

theorem Json.isFinite_texts (texts : List String) : (ofTexts texts).IsFinite :=
  isFinite_array_map fun text _ => .string text

theorem Json.isFinite_text? (text : Option String) : (ofOption .string text).IsFinite :=
  isFinite_ofOption fun text _ => .string text

theorem Json.isFinite_natural? (value : Option Nat) : (ofOption .natural value).IsFinite :=
  isFinite_ofOption fun value _ => .natural value

theorem Json.isFinite_boolean? (value : Option Bool) : (ofOption .boolean value).IsFinite :=
  isFinite_ofOption fun value _ => .boolean value

theorem Column.isFinite_toJson {column : Column} (hfinite : column.HasFiniteDefault) :
    column.toJson.IsFinite := by
  have hdefault : (ofOption DefaultValue.toJson column.default).IsFinite :=
    isFinite_ofOption fun value hvalue =>
      DefaultValue.isFinite_toJson fun number hnumber => hfinite number (hnumber ▸ hvalue)
  apply isFinite_object
  simp [hdefault, isFinite_texts, isFinite_text?, isFinite_natural?, isFinite_boolean?,
    IsFinite.string, IsFinite.boolean]

theorem RelationBuilder.isFinite_toJson (builder : RelationBuilder) :
    builder.toJson.IsFinite := by
  cases builder <;> exact isFinite_object (by simp [IsFinite.string])

theorem Relation.isFinite_toJson (relation : Relation) : relation.toJson.IsFinite := by
  apply isFinite_object
  simp [RelationBuilder.isFinite_toJson, isFinite_text?, isFinite_boolean?, IsFinite.string,
    IsFinite.boolean]

theorem Index.isFinite_toJson (index : Index) : index.toJson.IsFinite := by
  apply isFinite_object
  simp [isFinite_texts, IsFinite.string, IsFinite.boolean]

theorem Entity.isFinite_toJson {entity : Entity} (hfinite : entity.HasFiniteDefaults) :
    entity.toJson.IsFinite := by
  have hcolumns : (object (entity.columns.entries.map fun entry =>
      (entry.1, entry.2.toJson))).IsFinite := by
    refine .object _ fun member hmember => ?_
    obtain ⟨entry, hentry, rfl⟩ := List.mem_map.mp hmember
    exact Column.isFinite_toJson (hfinite entry hentry)
  have hrelations : (array (entity.relations.map Relation.toJson)).IsFinite :=
    isFinite_array_map fun relation _ => relation.isFinite_toJson
  have hindices : (array (entity.indices.map Index.toJson)).IsFinite :=
    isFinite_array_map fun index _ => index.isFinite_toJson
  apply isFinite_object
  simp only [List.map_cons, List.map_nil, List.forall_mem_cons]
  exact ⟨.string _, .string _, .string _, .string _, hcolumns, hrelations, hindices,
    List.forall_mem_nil _⟩

/-! ## The dump -/

namespace Output

variable {entities : List Entity}

theorem ofText?_modelText (hfinite : ∀ entity ∈ entities, entity.HasFiniteDefaults) :
    ofText? (modelText entities) = some (Json.ofEntities entities) :=
  ofText?_text (isFinite_array_map fun entity hentity =>
    Entity.isFinite_toJson (hfinite entity hentity))

/-- The text of a model without infinite defaults is a document that holds all of the model, so
that no two such models have one text. -/
theorem modelText_readsBack (hfinite : ∀ entity ∈ entities, entity.HasFiniteDefaults) :
    (∃ document, ofText? (modelText entities) = some document ∧
      entities? document = some entities) ∧
    ∀ others : List Entity, (∀ entity ∈ others, entity.HasFiniteDefaults) →
      modelText others = modelText entities → others = entities := by
  have hdocument := ofText?_modelText hfinite
  refine ⟨⟨_, hdocument, entities?_ofEntities entities⟩, fun others hothers htext => ?_⟩
  have hread := entities?_ofEntities others
  rw [← htext, ofText?_modelText hothers] at hdocument
  rw [Option.some.inj hdocument, entities?_ofEntities entities] at hread
  exact (Option.some.inj hread).symm

/-- Scores with a negative default and notes whose default is null, under a quoted name. -/
theorem modelText_scoresAndNotes :
    let score : Column :=
      { Column.unknown with default := some (.number (.finite true ⟨5, by decide⟩)) }
    let note : Column := { Column.unknown with default := some .null, name := some "a \"note\"\n" }
    let users : Entity :=
      { Entity.bare "Users" "users" "users" "users.ts" with
        columns := ⟨[("score", score), ("note", note)], by decide⟩ }
    (∀ entity ∈ [users], entity.HasFiniteDefaults) ∧
      ∃ document, ofText? (modelText [users]) = some document ∧
        entities? document = some [users] := by
  intro score note users
  have hfinite : ∀ entity ∈ [users], entity.HasFiniteDefaults := by
    rw [List.forall_mem_singleton]
    refine List.forall_mem_cons.mpr ⟨?_, List.forall_mem_singleton.mpr ?_⟩
    · rintro _ ⟨⟩
      rfl
    · nofun
  exact ⟨hfinite, (modelText_readsBack hfinite).1⟩

end Output

end EntityModel
