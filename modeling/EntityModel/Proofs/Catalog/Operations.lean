import EntityModel.Proofs.Catalog.Inverse
import EntityModel.Proofs.Collection.OrderedMap

/-!
# Runs of operations on a catalog

A catalog is built by operations, in any order and any number. After every run of them names and
table variables are distinct, and entities stand in the order in which their tables were first
registered (`bindings_run`).
-/

namespace EntityModel.Catalog

/-- What may be done with a catalog. -/
inductive Operation where
  | registerTable (binding wanted tableName fileName : String)
  | registerEnum (binding : String) (values : List String)
  | markPopulated (binding : String)
  | setColumns (binding : String) (columns : Columns)
  | addExtras (binding : String) (extras : Expr)
  | addStubs (stubs : List Relation)
  | readRelations (modules : List Module)
  | resolve

namespace Operation

def apply (catalog : Catalog) : Operation → Catalog
  | .registerTable binding wanted tableName fileName =>
    catalog.registerTable binding wanted tableName fileName
  | .registerEnum binding values => catalog.registerEnum binding values
  | .markPopulated binding => (catalog.markPopulated binding).2
  | .setColumns binding columns =>
    catalog.modify binding fun entity => { entity with columns := columns }
  | .addExtras binding extras => catalog.modify binding (·.withExtras extras)
  | .addStubs stubs => catalog.addStubs stubs
  | .readRelations modules => catalog.readRelations modules
  | .resolve => catalog.resolve

/-- The table variables that an operation registers. -/
def registered : Operation → List String
  | .registerTable binding _ _ _ => [binding]
  | _ => []

end Operation

/-- The catalog that operations leave behind. -/
def run (operations : List Operation) : Catalog := operations.foldl Operation.apply empty

variable {catalog : Catalog}

/-- Whether no entity of another variable has a name. -/
def IsFree (catalog : Catalog) (binding name : String) : Prop :=
  ∀ entity ∈ catalog.entities, entity.binding ≠ binding → entity.name ≠ name

/-- Whether a variable that wants a name gets another one: the wanted one if it is free, or else the
wanted one with the least number from two on that makes it free. -/
def IsGiven (catalog : Catalog) (binding wanted name : String) : Prop :=
  catalog.IsFree binding wanted ∧ name = wanted ∨
    ¬ catalog.IsFree binding wanted ∧ ∃ number ≥ 2, name = wanted ++ Nat.repr number ∧
      catalog.IsFree binding name ∧ ∀ smaller, 2 ≤ smaller → smaller < number →
        ¬ catalog.IsFree binding (wanted ++ Nat.repr smaller)

theorem isFree_iff {binding name : String} :
    catalog.IsFree binding name ↔ catalog.isTaken binding name = false := by
  rw [← Bool.not_eq_true, isTaken_iff]
  simp only [IsFree, not_exists, not_and]

theorem isGiven_freeName (catalog : Catalog) (binding wanted : String) :
    catalog.IsGiven binding wanted (catalog.freeName binding wanted) := by
  simp only [IsGiven, isFree_iff, Bool.not_eq_false]
  rcases freeName_cases catalog binding wanted with
    ⟨hfree, heq⟩ | ⟨htaken, number, hnumber, heq, hfree, hleast⟩
  · exact Or.inl ⟨hfree, heq⟩
  · exact Or.inr ⟨htaken, number, hnumber, heq, heq ▸ hfree, hleast⟩

theorem modify_modify (catalog : Catalog) (binding : String) {first : Entity → Entity}
    (hfirst : ∀ entity, (first entity).binding = entity.binding) (second : Entity → Entity) :
    (catalog.modify binding first).modify binding second =
      catalog.modify binding (second ∘ first) := by
  simp only [modify, List.map_map]
  congr 1
  apply List.map_congr_left
  intro entity _
  by_cases hbinding : entity.binding = binding <;> simp [hbinding, hfirst]

/-- Every operation keeps names and table variables distinct. -/
theorem Distinct.apply (hdistinct : catalog.Distinct) (operation : Operation) :
    (operation.apply catalog).Distinct := by
  cases operation with
  | registerTable binding wanted tableName fileName =>
      exact hdistinct.registerTable binding wanted tableName fileName
  | registerEnum binding values => exact ⟨hdistinct.bindings_nodup, hdistinct.names_nodup⟩
  | markPopulated binding =>
      dsimp only [Operation.apply, Catalog.markPopulated]
      split <;> exact ⟨hdistinct.bindings_nodup, hdistinct.names_nodup⟩
  | setColumns binding columns => exact hdistinct.modify binding (fun _ => rfl) fun _ => rfl
  | addExtras binding extras =>
      exact hdistinct.modify binding (·.binding_withExtras extras) (·.name_withExtras extras)
  | addStubs stubs => exact ⟨hdistinct.bindings_nodup, hdistinct.names_nodup⟩
  | readRelations modules => exact ⟨hdistinct.bindings_nodup, hdistinct.names_nodup⟩
  | resolve =>
      exact hdistinct.of_map_eq (map_entities_resolve catalog _ fun _ _ => rfl)
        (map_entities_resolve catalog _ fun _ _ => rfl)

/-- An operation adds the variables that it registers for the first time. -/
theorem bindings_apply (catalog : Catalog) (operation : Operation) :
    (operation.apply catalog).entities.map (·.binding) = catalog.entities.map (·.binding) ++
      operation.registered.filter (· ∉ catalog.entities.map (·.binding)) := by
  cases operation with
  | registerTable binding wanted tableName fileName =>
      dsimp only [Operation.apply, Operation.registered, registerTable]
      split
      next hknown =>
        rw [entityFor?_isSome_iff] at hknown
        rw [List.filter_singleton, decide_eq_false (not_not_intro hknown), map_modify (·.binding)]
        · exact (List.append_nil _).symm
        · exact fun _ => rfl
      next hnew =>
        rw [entityFor?_isSome_iff] at hnew
        rw [List.filter_singleton, decide_eq_true hnew, List.map_append]
        rfl
  | markPopulated binding =>
      dsimp only [Operation.apply, markPopulated]
      split <;> exact (List.append_nil _).symm
  | setColumns binding columns =>
      rw [Operation.apply, map_modify (·.binding)]
      · exact (List.append_nil _).symm
      · exact fun _ => rfl
  | addExtras binding extras =>
      rw [Operation.apply, map_modify (·.binding)]
      · exact (List.append_nil _).symm
      · exact fun entity => entity.binding_withExtras extras
  | resolve =>
      rw [Operation.apply, map_entities_resolve catalog (·.binding) fun _ _ => rfl]
      exact (List.append_nil _).symm
  | registerEnum _ _ | addStubs _ | readRelations _ => exact (List.append_nil _).symm

theorem distinct_run (operations : List Operation) : (run operations).Distinct :=
  List.foldlRecOn operations Operation.apply Distinct.empty
    fun _ hdistinct operation _ => hdistinct.apply operation

/-- Entities stand in the order in which their table variables were first registered. -/
theorem bindings_run (operations : List Operation) :
    (run operations).entities.map (·.binding) =
      (operations.flatMap Operation.registered).eraseDups := by
  induction operations using List.reverseRecOn with
  | nil => rfl
  | append_singleton operations operation ih =>
      rw [run, List.foldl_append, List.foldl_cons, List.foldl_nil, ← run, bindings_apply, ih,
        List.flatMap_append, List.flatMap_singleton]
      cases operation with
      | registerTable binding _ _ _ =>
        simp only [Operation.registered, eraseDups_concat, List.mem_eraseDups,
          List.filter_singleton]
        by_cases hknown : binding ∈ operations.flatMap Operation.registered <;> simp [hknown]
      | _ => simp [Operation.registered]

/-! ## The catalog of a project -/

/-- Whether a catalog is what some operations leave behind. -/
def IsRun (catalog : Catalog) : Prop := ∃ operations, run operations = catalog

namespace IsRun

theorem apply (hrun : catalog.IsRun) (operation : Operation) : (operation.apply catalog).IsRun := by
  obtain ⟨operations, rfl⟩ := hrun
  exact ⟨operations ++ [operation], by rw [run, List.foldl_append]; rfl⟩

theorem registerDeclaration (hrun : catalog.IsRun) (builders : Builders)
    (declaration : String × Declaration) :
    (catalog.registerDeclaration builders declaration).IsRun := by
  obtain ⟨fileName, declaration⟩ := declaration
  dsimp only [Catalog.registerDeclaration]
  split
  · exact hrun
  · split_ifs
    · exact hrun.apply (.registerTable _ _ _ _)
    · exact hrun.apply (.registerEnum _ _)
    · exact hrun

/-- Reading a table sets the columns of its entity and adds its extras, if there are any. -/
theorem readTable (hrun : catalog.IsRun) (binding : String) (root : Frame) :
    (catalog.readTable binding root).IsRun := by
  rw [readTable_eq]
  unfold Entity.readFrom
  cases root.arg? 2 with
  | none => exact hrun.apply (.setColumns binding _)
  | some extras =>
      have hboth : ∀ columns : Columns, (catalog.modify binding fun entity =>
          { entity with columns := columns }.withExtras extras).IsRun := by
        intro columns
        have hextras :=
          (hrun.apply (.setColumns binding columns)).apply (.addExtras binding extras)
        rw [Operation.apply, Operation.apply, modify_modify] at hextras
        · exact hextras
        · exact fun _ => rfl
      exact hboth _

theorem tableDeclaration (hrun : catalog.IsRun) (builders : Builders) (declaration : Declaration) :
    (catalog.tableDeclaration builders declaration).IsRun := by
  unfold Catalog.tableDeclaration
  split
  next => exact hrun
  next root _ =>
    split
    · split
      next marked hmarked =>
        have hrun' := hrun.apply (.markPopulated declaration.name)
        rw [Operation.apply, hmarked] at hrun'
        exact hrun'.readTable declaration.name root
      next => exact hrun
    · exact hrun

end IsRun

/-- The catalog of a project is built by operations. -/
theorem isRun_ofModules (builders : Builders) (modules : List Module) :
    (ofModules builders modules).IsRun := by
  have hregistered : (empty.register builders modules).IsRun :=
    List.foldlRecOn _ _ (motive := IsRun) ⟨[], rfl⟩
      fun _ hrun declaration _ => hrun.registerDeclaration builders declaration
  have hread : ((empty.register builders modules).readTables builders modules).IsRun :=
    List.foldlRecOn _ _ (motive := IsRun) hregistered
      fun _ hrun declaration _ => hrun.tableDeclaration builders declaration
  exact (hread.apply (.readRelations modules)).apply .resolve

end EntityModel.Catalog
