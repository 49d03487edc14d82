import EntityModel.Column.Reading
import EntityModel.Schema.Declaration
import Mathlib.Data.List.Induction
import Mathlib.Tactic.SplitIfs

/-!
# Well-formed columns

Every column that is read has a type of the vocabulary and is not named like its property, is never
null if it is part of the primary key, and follows the conventions for the dates of a row. The
calls of a chain keep the first two (`IsTyped`), whatever their order; the rest is settled at the
end and kept when a column becomes part of the primary key later.
-/

namespace EntityModel

namespace Column

/-- The storage types that a column can have. -/
def vocabulary : List String :=
  builderTypes.map Prod.snd ++ ["text", "enum", "uuid", "timestamptz"]

/-- Whether a column of a property has a type of the vocabulary and no name that its property
gives it anyway. -/
structure IsTyped (property : String) (column : Column) : Prop where
  type_mem : column.type ∈ vocabulary
  name_ne : column.name ≠ some property

/-- Whether a column is one that can be stored for a property. -/
structure IsWellFormed (property : String) (column : Column) : Prop
    extends column.IsTyped property where
  nullable_of_primary : column.primary = true → column.nullable = false
  of_createdAt : property = createdAt → column.createDate = true ∧ column.nullable = false
  of_updatedAt : property = updatedAt → column.updateDate = true

variable {property : String} {column : Column}

theorem builderType?_mem_vocabulary {builder type : String}
    (htype : builderType? builder = some type) : type ∈ vocabulary := by
  obtain ⟨front, back, hentries, _⟩ := List.lookup_eq_some_iff.mp htype
  apply List.mem_append_left
  rw [hentries, List.map_append, List.map_cons]
  exact List.mem_append_right _ List.mem_cons_self

theorem mem_vocabulary_of_mem {type : String}
    (hmem : type ∈ ["text", "enum", "uuid", "timestamptz"]) : type ∈ vocabulary :=
  List.mem_append_right _ hmem

namespace IsTyped

theorem unknown : unknown.IsTyped property :=
  ⟨mem_vocabulary_of_mem (by simp [Column.unknown]), by simp [Column.unknown]⟩

theorem withOptions (htyped : column.IsTyped property) (options : Expr) :
    (column.withOptions options).IsTyped property := by
  obtain ⟨htype, hname⟩ := htyped
  unfold Column.withOptions
  extract_lets sized enumerated
  have henumerated : enumerated.IsTyped property := by
    dsimp only [enumerated]
    split
    · exact ⟨mem_vocabulary_of_mem (by simp), hname⟩
    · exact ⟨htype, hname⟩
  split_ifs
  · exact ⟨mem_vocabulary_of_mem (by simp), henumerated.name_ne⟩
  · exact henumerated

theorem ofBuilder (enums : Enumerations) (property : String) (builder : Frame) :
    (ofBuilder enums property builder).IsTyped property := by
  unfold Column.ofBuilder
  extract_lets initial typed named
  have htyped : typed.IsTyped property := by
    dsimp only [typed]
    split
    · exact ⟨mem_vocabulary_of_mem (by simp), unknown.name_ne⟩
    · refine ⟨?_, unknown.name_ne⟩
      cases htype : builderType? builder.name with
      | none => exact (unknown : Column.unknown.IsTyped property).type_mem
      | some type => exact builderType?_mem_vocabulary htype
  have hnamed : named.IsTyped property := by
    dsimp only [named]
    split
    · split_ifs with hne
      · exact ⟨htyped.type_mem, by simpa using hne⟩
      · exact htyped
    · exact htyped
  split
  · exact hnamed.withOptions _
  · exact hnamed

/-- A further call of a chain changes the type to one of the vocabulary, if at all, and never the
name. -/
theorem modifiedBy (htyped : column.IsTyped property) (modifier : Frame) :
    (modifiedBy property column modifier).IsTyped property := by
  obtain ⟨htype, hname⟩ := htyped
  unfold Column.modifiedBy
  split
  case h_10 => exact ⟨mem_vocabulary_of_mem (by simp), hname⟩
  case h_11 => split_ifs <;> exact ⟨htype, hname⟩
  all_goals exact ⟨htype, hname⟩

end IsTyped

namespace IsWellFormed

/-- The conventions settle what the calls of a chain leave open. -/
theorem withConventions (htyped : column.IsTyped property) :
    (column.withConventions property).IsWellFormed property := by
  obtain ⟨htype, hname⟩ := htyped
  unfold Column.withConventions
  extract_lets dated
  have htyped : dated.IsTyped property := by
    dsimp only [dated]
    split_ifs <;> exact ⟨htype, hname⟩
  have hcreated : property = createdAt → dated.createDate = true ∧ dated.nullable = false := by
    intro heq
    simp [dated, heq]
  have hupdated : property = updatedAt → dated.updateDate = true := by
    rintro rfl
    simp [dated, show updatedAt ≠ createdAt by decide]
  split_ifs with hprimary
  · exact ⟨⟨htyped.type_mem, htyped.name_ne⟩, fun _ => rfl, fun heq => ⟨(hcreated heq).1, rfl⟩,
      hupdated⟩
  · exact ⟨htyped, fun h => absurd h hprimary, hcreated, hupdated⟩

theorem ofExpr (enums : Enumerations) (property : String) (expr : Expr) :
    (ofExpr enums property expr).IsWellFormed property := by
  apply withConventions
  split
  · next builder _ =>
    exact List.foldlRecOn _ _ (motive := IsTyped property)
      (IsTyped.ofBuilder enums property builder) fun _ htyped modifier _ =>
        htyped.modifiedBy modifier
  · exact IsTyped.unknown

theorem makePrimary (hformed : column.IsWellFormed property) :
    column.makePrimary.IsWellFormed property where
  type_mem := hformed.type_mem
  name_ne := hformed.name_ne
  nullable_of_primary _ := rfl
  of_createdAt heq := ⟨(hformed.of_createdAt heq).1, rfl⟩
  of_updatedAt := hformed.of_updatedAt

end IsWellFormed

end Column

namespace OrderedMap

variable {α : Type} {holds : String → α → Prop}

theorem mem_insertEntry {name : String} {value : α} {entries : List (String × α)}
    {entry : String × α} (hentry : entry ∈ insertEntry name value entries) :
    entry = (name, value) ∨ entry ∈ entries := by
  induction entries with
  | nil => simpa [insertEntry] using hentry
  | cons head rest ih =>
      obtain ⟨key, old⟩ := head
      simp only [insertEntry] at hentry
      split at hentry
      · exact (List.mem_cons.mp hentry).imp_right (List.mem_cons_of_mem _)
      · rcases List.mem_cons.mp hentry with rfl | hrest
        · exact Or.inr List.mem_cons_self
        · exact (ih hrest).imp_right (List.mem_cons_of_mem _)

/-- Every entry of the map of a list is one of the list. -/
theorem mem_of_mem_ofList {entries : List (String × α)} {entry : String × α}
    (hentry : entry ∈ (ofList entries).entries) : entry ∈ entries := by
  unfold ofList at hentry
  induction entries using List.reverseRecOn with
  | nil => cases hentry
  | append_singleton entries last ih =>
      rw [List.foldl_append, List.foldl_cons, List.foldl_nil] at hentry
      rcases mem_insertEntry hentry with rfl | hformer
      · simp
      · exact List.mem_append_left _ (ih hformer)

end OrderedMap

namespace Columns

/-- Whether every column is well formed for its property. -/
def AreWellFormed (columns : Columns) : Prop :=
  ∀ property column, (property, column) ∈ columns.entries → column.IsWellFormed property

theorem AreWellFormed.empty : AreWellFormed OrderedMap.empty := fun _ _ hmem => nomatch hmem

theorem AreWellFormed.ofExpr (enums : Enumerations) (definition : Expr) :
    AreWellFormed (ofExpr enums definition) := by
  unfold Columns.ofExpr
  split
  · intro property column hmem
    obtain ⟨⟨_, expr⟩, _, heq⟩ := List.mem_map.mp (OrderedMap.mem_of_mem_ofList hmem)
    obtain ⟨rfl, rfl⟩ := Prod.mk.inj heq
    exact Column.IsWellFormed.ofExpr enums _ expr
  · exact empty

theorem AreWellFormed.makePrimary {columns : Columns} (hformed : columns.AreWellFormed)
    (property : String) : AreWellFormed (columns.modify property Column.makePrimary) := by
  intro name column hmem
  obtain ⟨⟨_, former⟩, hformer, heq⟩ := List.mem_map.mp hmem
  obtain ⟨rfl, rfl⟩ := Prod.mk.inj heq
  have hwell := hformed _ former hformer
  split
  · exact hwell.makePrimary
  · exact hwell

end Columns

namespace Schema

theorem not_mem_flag {field name value : String} {holds : Bool} (hne : field ≠ name) :
    (field, value) ∉ flag name holds := fun hmem =>
  hne (mem_keys_flag.mp (List.mem_map_of_mem hmem)).1

theorem not_mem_optional {α : Type} {field name value : String} {write : α → String}
    {content : Option α} (hne : field ≠ name) :
    (field, value) ∉ optional name write content := fun hmem =>
  hne (mem_keys_optional.mp (List.mem_map_of_mem hmem)).1

/-- A schema says of every column whether it may be null, and says it once. -/
theorem mem_columnFields_nullable_iff {column : Column} {value : String} :
    ("nullable", value) ∈ columnFields column ↔ value = truth column.nullable := by
  simp [columnFields, not_mem_flag, not_mem_optional]

end Schema

end EntityModel
