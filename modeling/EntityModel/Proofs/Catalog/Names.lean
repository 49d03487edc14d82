import EntityModel.Catalog.Basic
import Mathlib.Data.List.Nodup
import Mathlib.Data.List.Perm.Subperm
import Std.Data.String.ToNat

/-!
# Names in a catalog

No two entities of a catalog share a name or a table variable. A name that is taken gets the least
number that makes it free; one of more candidates than there are entities is free, so the search
ends.
-/

namespace EntityModel.Catalog

variable {catalog : Catalog} {binding wanted : String}

/-- Whether the entities of a catalog have names and table variables of their own. -/
structure Distinct (catalog : Catalog) : Prop where
  bindings_nodup : (catalog.entities.map (·.binding)).Nodup
  names_nodup : (catalog.entities.map (·.name)).Nodup

theorem isTaken_iff {name : String} : catalog.isTaken binding name = true ↔
    ∃ entity ∈ catalog.entities, entity.binding ≠ binding ∧ entity.name = name := by
  simp [isTaken]

/-- Of more numbered names than there are entities, one is free. -/
theorem exists_free_number (catalog : Catalog) (binding wanted : String) :
    ∃ number ∈ List.range' 2 (catalog.entities.length + 1),
      catalog.isTaken binding (wanted ++ Nat.repr number) = false := by
  by_contra hnone
  have htaken : ∀ number ∈ List.range' 2 (catalog.entities.length + 1),
      catalog.isTaken binding (wanted ++ Nat.repr number) = true := by
    intro number hnumber
    by_contra hfree
    exact hnone ⟨number, hnumber, Bool.eq_false_iff.mpr hfree⟩
  have hnodup : ((List.range' 2 (catalog.entities.length + 1)).map fun number =>
      wanted ++ Nat.repr number).Nodup := by
    apply List.Nodup.map _ List.nodup_range'
    intro first second heq
    exact Nat.repr_injective ((String.append_right_inj wanted).mp heq)
  -- Taken candidates are names of entities, and there are more candidates than entities.
  have hsubset : ((List.range' 2 (catalog.entities.length + 1)).map fun number =>
      wanted ++ Nat.repr number) ⊆ catalog.entities.map (·.name) := by
    intro name hname
    obtain ⟨number, hnumber, rfl⟩ := List.mem_map.mp hname
    obtain ⟨entity, hentity, _, heq⟩ := isTaken_iff.mp (htaken number hnumber)
    exact List.mem_map.mpr ⟨entity, hentity, heq⟩
  have hlength := (List.subperm_of_subset hnodup hsubset).length_le
  rw [List.length_map, List.length_map, List.length_range'] at hlength
  omega

/-- A free name is the wanted one, or it has the least number from two on that makes it free. -/
theorem freeName_cases (catalog : Catalog) (binding wanted : String) :
    (catalog.isTaken binding wanted = false ∧ catalog.freeName binding wanted = wanted) ∨
    (catalog.isTaken binding wanted = true ∧ ∃ number ≥ 2,
      catalog.freeName binding wanted = wanted ++ Nat.repr number ∧
      catalog.isTaken binding (wanted ++ Nat.repr number) = false ∧
      ∀ smaller, 2 ≤ smaller → smaller < number →
        catalog.isTaken binding (wanted ++ Nat.repr smaller) = true) := by
  cases htaken : catalog.isTaken binding wanted with
  | false => exact Or.inl ⟨rfl, by simp [freeName, htaken]⟩
  | true =>
      obtain ⟨_, hmem, hfree⟩ := exists_free_number catalog binding wanted
      have hfound : ((List.range' 2 (catalog.entities.length + 1)).find? fun number =>
          !catalog.isTaken binding (wanted ++ Nat.repr number)).isSome = true :=
        List.find?_isSome.mpr ⟨_, hmem, by rw [hfree]; rfl⟩
      obtain ⟨number, hnumber⟩ := Option.isSome_iff_exists.mp hfound
      -- The search stops at the first free candidate, so it has the least number.
      obtain ⟨hfree, hmem, hleast⟩ := List.find?_range'_eq_some.mp hnumber
      refine Or.inr ⟨rfl, number, (List.mem_range'_1.mp hmem).1, ?_, ?_, ?_⟩
      · simp only [freeName, htaken, if_true, List.find?_map, Function.comp_def]
        rw [hnumber]
        rfl
      · simpa using hfree
      · simpa using hleast

theorem isTaken_freeName (catalog : Catalog) (binding wanted : String) :
    catalog.isTaken binding (catalog.freeName binding wanted) = false := by
  rcases freeName_cases catalog binding wanted with ⟨hfree, heq⟩ | ⟨_, _, _, heq, hfree, _⟩ <;>
    rw [heq, hfree]

/-- A name that no entity has is given as it is wanted. -/
theorem freeName_of_not_mem (hwanted : wanted ∉ catalog.entities.map (·.name)) :
    catalog.freeName binding wanted = wanted := by
  have hfree : ¬ catalog.isTaken binding wanted = true := by
    rw [isTaken_iff]
    rintro ⟨entity, hmem, _, rfl⟩
    exact hwanted (List.mem_map_of_mem hmem)
  rw [freeName, if_neg hfree]

theorem entityFor?_isSome_iff :
    (catalog.entityFor? binding).isSome = true ↔ binding ∈ catalog.entities.map (·.binding) := by
  simp [entityFor?]

theorem entityFor?_eq_some {entity : Entity} (hfound : catalog.entityFor? binding = some entity) :
    entity ∈ catalog.entities ∧ entity.binding = binding :=
  ⟨List.mem_of_find?_eq_some hfound, by simpa using List.find?_some hfound⟩

/-- Where keys are distinct, the first item with the key of an item is that item. -/
theorem find?_eq_some_of_nodup_map {α : Type} {key : α → String} {items : List α} {item : α}
    (hnodup : (items.map key).Nodup) (hmem : item ∈ items) :
    items.find? (fun other => key other = key item) = some item := by
  have hsome : (items.find? fun other => key other = key item).isSome = true :=
    List.find?_isSome.mpr ⟨item, hmem, decide_eq_true rfl⟩
  obtain ⟨found, hfound⟩ := Option.isSome_iff_exists.mp hsome
  have hkey : key found = key item := by simpa using List.find?_some hfound
  rw [hfound, List.inj_on_of_nodup_map hnodup (List.mem_of_find?_eq_some hfound) hmem hkey]

/-- A change that keeps names and table variables keeps those of the whole catalog. -/
theorem map_modify {α : Type} (property : Entity → α) (binding : String)
    {change : Entity → Entity} (hchange : ∀ entity, property (change entity) = property entity) :
    (catalog.modify binding change).entities.map property = catalog.entities.map property := by
  simp only [modify, List.map_map]
  apply List.map_congr_left
  intro entity _
  simp only [Function.comp_apply]
  split
  · exact hchange entity
  · rfl

namespace Distinct

theorem empty : Distinct empty := ⟨List.nodup_nil, List.nodup_nil⟩

theorem eq_of_binding (hdistinct : catalog.Distinct) {first second : Entity}
    (hfirst : first ∈ catalog.entities) (hsecond : second ∈ catalog.entities)
    (heq : first.binding = second.binding) : first = second :=
  List.inj_on_of_nodup_map hdistinct.bindings_nodup hfirst hsecond heq

theorem eq_of_name (hdistinct : catalog.Distinct) {first second : Entity}
    (hfirst : first ∈ catalog.entities) (hsecond : second ∈ catalog.entities)
    (heq : first.name = second.name) : first = second :=
  List.inj_on_of_nodup_map hdistinct.names_nodup hfirst hsecond heq

theorem entityFor?_eq_some_iff (hdistinct : catalog.Distinct) {binding : String}
    {entity : Entity} : catalog.entityFor? binding = some entity ↔
      entity ∈ catalog.entities ∧ entity.binding = binding := by
  refine ⟨entityFor?_eq_some, ?_⟩
  rintro ⟨hmem, rfl⟩
  exact find?_eq_some_of_nodup_map hdistinct.bindings_nodup hmem

/-- Entities of distinct variables are those that their variables stand for. -/
theorem filterMap_entityFor? (hdistinct : catalog.Distinct)
    {entities : List Entity} (hentities : ∀ entity ∈ entities, entity ∈ catalog.entities) :
    (entities.map (·.binding)).filterMap catalog.entityFor? = entities := by
  rw [List.filterMap_map]
  calc entities.filterMap (catalog.entityFor? ∘ fun entity => entity.binding)
      = entities.filterMap some := by
        apply List.filterMap_congr
        intro entity hmem
        exact hdistinct.entityFor?_eq_some_iff.mpr ⟨hentities entity hmem, rfl⟩
    _ = entities := List.filterMap_some

theorem of_map_eq {other : Catalog} (hdistinct : catalog.Distinct)
    (hbindings : other.entities.map (·.binding) = catalog.entities.map (·.binding))
    (hnames : other.entities.map (·.name) = catalog.entities.map (·.name)) : other.Distinct :=
  ⟨hbindings ▸ hdistinct.bindings_nodup, hnames ▸ hdistinct.names_nodup⟩

theorem modify (hdistinct : catalog.Distinct) (binding : String) {change : Entity → Entity}
    (hbinding : ∀ entity, (change entity).binding = entity.binding)
    (hname : ∀ entity, (change entity).name = entity.name) :
    (catalog.modify binding change).Distinct :=
  hdistinct.of_map_eq (map_modify (·.binding) binding hbinding)
    (map_modify (·.name) binding hname)

/-- An entity that changes its name to one that no other entity has keeps names distinct. -/
theorem nodup_map_name_modify (hdistinct : catalog.Distinct) {name : String}
    {change : Entity → Entity} (hchange : ∀ entity, (change entity).name = name)
    (hfree : ∀ entity ∈ catalog.entities, entity.binding ≠ binding → entity.name ≠ name) :
    ((catalog.modify binding change).entities.map (·.name)).Nodup := by
  simp only [Catalog.modify, List.map_map]
  apply List.Nodup.map_on _ (List.Nodup.of_map _ hdistinct.bindings_nodup)
  intro first hfirst second hsecond heq
  simp only [Function.comp_apply] at heq
  split at heq <;> split at heq
  next hbinding hbinding' =>
    exact hdistinct.eq_of_binding hfirst hsecond (hbinding.trans hbinding'.symm)
  next hother =>
    rw [hchange] at heq
    exact absurd heq.symm (hfree second hsecond hother)
  next hother _ =>
    rw [hchange] at heq
    exact absurd heq (hfree first hfirst hother)
  next => exact hdistinct.eq_of_name hfirst hsecond heq

/-- An entity with a variable and a name of its own may be added. -/
theorem concat (hdistinct : catalog.Distinct) {entity : Entity}
    (hbinding : ∀ other ∈ catalog.entities, other.binding ≠ entity.binding)
    (hname : ∀ other ∈ catalog.entities, other.name ≠ entity.name) :
    Distinct { catalog with entities := catalog.entities ++ [entity] } := by
  constructor
  · rw [List.map_append, List.map_singleton, ← List.concat_eq_append]
    exact hdistinct.bindings_nodup.concat (by simpa using hbinding)
  · rw [List.map_append, List.map_singleton, ← List.concat_eq_append]
    exact hdistinct.names_nodup.concat (by simpa using hname)

/-- Noting the declaration of a table keeps names and table variables distinct. -/
theorem registerTable (hdistinct : catalog.Distinct) (binding wanted tableName fileName : String) :
    (catalog.registerTable binding wanted tableName fileName).Distinct := by
  have hfree : ∀ entity ∈ catalog.entities, entity.binding ≠ binding →
      entity.name ≠ catalog.freeName binding wanted := by
    intro entity hentity hother heq
    have htaken := isTaken_iff.mpr ⟨entity, hentity, hother, heq⟩
    rw [isTaken_freeName] at htaken
    cases htaken
  unfold Catalog.registerTable
  dsimp only
  split
  next hknown =>
    refine ⟨?_, hdistinct.nodup_map_name_modify (fun _ => rfl) hfree⟩
    rw [map_modify (·.binding) binding]
    · exact hdistinct.bindings_nodup
    · exact fun _ => rfl
  next hnew =>
    rw [entityFor?_isSome_iff] at hnew
    have hother : ∀ entity ∈ catalog.entities, entity.binding ≠ binding := by
      intro entity hentity heq
      exact hnew (List.mem_map.mpr ⟨entity, hentity, heq⟩)
    exact hdistinct.concat hother fun entity hentity => hfree entity hentity (hother entity hentity)

end Distinct

end EntityModel.Catalog
