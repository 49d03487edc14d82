import EntityModel.Context.Passes
import EntityModel.Proofs.Catalog.Operations

/-!
# Contexts and catalogs

A context is worked on through its index, a catalog by searching it. As long as index and entities
are in step, both find, change and name the same entities, so every pass leaves a context whose
catalog is what the pass makes of the catalog (`refines_ofModules`).
-/

namespace EntityModel.Context

/-- Whether index and entities are in step: the position of a variable in the index is the one at
which an entity of the variable stands. -/
def InStep (context : Context) : Prop :=
  ∀ binding position, context.positions.find? binding = some position ↔
    (context.entities[position]?).map (·.binding) = some binding

namespace InStep

variable {context other : Context} {binding : String} {position : Nat}

theorem empty : InStep empty := by
  intro binding position
  simp [Context.empty, OrderedMap.find?, OrderedMap.empty]

/-- Whether index and entities are in step depends on the table variables alone. -/
theorem of_bindings_eq (hstep : context.InStep) (hpositions : other.positions = context.positions)
    (hbindings : other.entities.map (·.binding) = context.entities.map (·.binding)) :
    other.InStep := by
  intro binding position
  rw [hpositions, ← List.getElem?_map, hbindings, List.getElem?_map]
  exact hstep binding position

theorem exists_of_find? (hstep : context.InStep)
    (hfind : context.positions.find? binding = some position) :
    ∃ entity, context.entities[position]? = some entity ∧ entity.binding = binding :=
  Option.map_eq_some_iff.mp ((hstep binding position).mp hfind)

theorem find?_eq_some_iff (hstep : context.InStep) {entity : Entity}
    (hat : context.entities[position]? = some entity) :
    context.positions.find? binding = some position ↔ entity.binding = binding := by
  rw [hstep binding position, hat, Option.map_some, Option.some.injEq]

theorem ne_of_find?_eq_none (hstep : context.InStep)
    (hfind : context.positions.find? binding = none) :
    ∀ entity ∈ context.entities, entity.binding ≠ binding := by
  intro entity hmem heq
  obtain ⟨position, hat⟩ := List.getElem?_of_mem hmem
  rw [(hstep.find?_eq_some_iff hat).mpr heq] at hfind
  cases hfind

/-- A variable has one position, so no two entities have one variable. -/
theorem bindings_nodup (hstep : context.InStep) :
    (context.entities.map (·.binding)).Nodup := by
  rw [List.nodup_iff_getElem?_ne_getElem?]
  intro first second hlt hsecond heq
  have hsome := List.getElem?_eq_getElem hsecond
  have hfirst := (hstep _ first).mpr (List.getElem?_map ▸ heq.trans hsome)
  rw [(hstep _ second).mpr (List.getElem?_map ▸ hsome), Option.some.injEq] at hfirst
  exact absurd hfirst.symm (Nat.ne_of_lt hlt)

/-- The index finds the entity that a search finds. -/
theorem entityFor?_eq (hstep : context.InStep) (binding : String) :
    context.entityFor? binding = context.catalog.entityFor? binding := by
  unfold Context.entityFor?
  cases hfind : context.positions.find? binding with
  | none =>
      have hne := hstep.ne_of_find?_eq_none hfind
      exact (List.find?_eq_none.mpr (by simpa using hne)).symm
  | some position =>
      obtain ⟨entity, hat, rfl⟩ := hstep.exists_of_find? hfind
      rw [Option.bind_some, hat]
      exact (Catalog.find?_eq_some_of_nodup_map hstep.bindings_nodup
        (List.mem_of_getElem? hat)).symm

/-- Changing the entity at the position of a variable changes the entity of that variable. -/
theorem modify_eq_map (hstep : context.InStep)
    (hfind : context.positions.find? binding = some position) (change : Entity → Entity) :
    context.entities.modify position change = context.entities.map fun entity =>
      if entity.binding = binding then change entity else entity := by
  apply List.ext_getElem?
  intro place
  rw [List.getElem?_modify, List.getElem?_map]
  cases hat : context.entities[place]? with
  | none => rfl
  | some entity =>
      have hhere : position = place ↔ entity.binding = binding := by
        rw [← hstep.find?_eq_some_iff hat, hfind, Option.some.injEq]
      by_cases hplace : position = place
      · simp [hplace, hhere.mp hplace]
      · simp [hplace, mt hhere.mpr hplace]

theorem catalog_modify (hstep : context.InStep) (binding : String) (change : Entity → Entity) :
    (context.modify binding change).catalog = context.catalog.modify binding change := by
  unfold Context.modify Catalog.modify
  cases hfind : context.positions.find? binding with
  | none =>
      have hsame : context.entities.map (fun entity =>
          if entity.binding = binding then change entity else entity) = context.entities := by
        refine (List.map_congr_left fun entity hmem => ?_).trans (List.map_id _)
        exact if_neg (hstep.ne_of_find?_eq_none hfind entity hmem)
      simp only [catalog, hsame]
  | some position => simp only [catalog, hstep.modify_eq_map hfind]

theorem modify (hstep : context.InStep) (binding : String) {change : Entity → Entity}
    (hchange : ∀ entity, (change entity).binding = entity.binding) :
    (context.modify binding change).InStep := by
  apply hstep.of_bindings_eq
  · unfold Context.modify
    split <;> rfl
  · change (context.modify binding change).catalog.entities.map (·.binding) = _
    rw [hstep.catalog_modify, Catalog.map_modify (·.binding) binding hchange]
    rfl

/-- Passing over the position of a variable passes over the entity of that variable. -/
theorem isTaken_eq (hstep : context.InStep) (binding name : String) :
    context.isTaken (context.positions.find? binding) name =
      context.catalog.isTaken binding name := by
  rw [Bool.eq_iff_iff, Catalog.isTaken_iff, isTaken, List.any_eq_true]
  constructor
  · rintro ⟨⟨entity, position⟩, hmem, hother⟩
    have hat := List.mem_zipIdx_iff_getElem?.mp hmem
    simp only [Bool.and_eq_true, decide_eq_true_eq] at hother
    refine ⟨entity, List.mem_of_getElem? hat, fun heq => hother.1 ?_, hother.2⟩
    exact ((hstep.find?_eq_some_iff hat).mpr heq).symm
  · rintro ⟨entity, hmem, hother, hname⟩
    obtain ⟨position, hat⟩ := List.getElem?_of_mem hmem
    refine ⟨(entity, position), List.mem_zipIdx_iff_getElem?.mpr hat, ?_⟩
    simp only [Bool.and_eq_true, decide_eq_true_eq]
    exact ⟨fun heq => hother ((hstep.find?_eq_some_iff hat).mp heq.symm), hname⟩

theorem freeName_eq (hstep : context.InStep) (binding wanted : String) :
    context.freeName (context.positions.find? binding) wanted =
      context.catalog.freeName binding wanted := by
  simp only [freeName, Catalog.freeName, hstep.isTaken_eq]
  rfl

/-- A new variable gets the position behind all entities. -/
theorem concat (hstep : context.InStep) {entity : Entity}
    (hnew : context.positions.find? entity.binding = none) :
    InStep { context with
      entities := context.entities ++ [entity]
      positions := context.positions.insert entity.binding context.entities.length } := by
  intro binding position
  dsimp only
  rw [OrderedMap.find?_insert]
  rcases Nat.lt_trichotomy position context.entities.length with hlt | rfl | hlt
  · -- An old position: it is not that of the new variable, which no entity has.
    rw [List.getElem?_append_left hlt, ← hstep binding position]
    by_cases hbinding : binding = entity.binding
    · subst hbinding
      simp [hnew, Nat.ne_of_gt hlt]
    · rw [if_neg hbinding]
  · rw [List.getElem?_concat_length, Option.map_some, Option.some.injEq]
    by_cases hbinding : binding = entity.binding
    · simp [hbinding]
    · rw [if_neg hbinding, hstep]
      simp [Ne.symm hbinding]
  · have hnone : (context.entities ++ [entity])[position]? = none := by
      rw [List.getElem?_eq_none_iff, List.length_append]
      exact hlt
    rw [hnone]
    by_cases hbinding : binding = entity.binding
    · simp [hbinding, Nat.ne_of_lt hlt]
    · rw [if_neg hbinding, hstep, List.getElem?_eq_none (Nat.le_of_lt hlt)]

end InStep

/-- Whether a context stands for a catalog. -/
structure Refines (context : Context) (catalog : Catalog) : Prop where
  inStep : context.InStep
  catalog_eq : context.catalog = catalog

namespace Refines

variable {context : Context} {catalog : Catalog}

theorem empty : Refines empty Catalog.empty := ⟨InStep.empty, rfl⟩

/-! ## Operations -/

theorem entityFor?_eq (hrefines : Refines context catalog) :
    context.entityFor? = catalog.entityFor? := by
  obtain ⟨hstep, rfl⟩ := hrefines
  funext binding
  exact hstep.entityFor?_eq binding

theorem modify (hrefines : Refines context catalog) (binding : String) {change : Entity → Entity}
    (hchange : ∀ entity, (change entity).binding = entity.binding) :
    Refines (context.modify binding change) (catalog.modify binding change) := by
  obtain ⟨hstep, rfl⟩ := hrefines
  exact ⟨hstep.modify binding hchange, hstep.catalog_modify binding change⟩

theorem registerTable (hrefines : Refines context catalog)
    (binding wanted tableName fileName : String) :
    Refines (context.registerTable binding wanted tableName fileName)
      (catalog.registerTable binding wanted tableName fileName) := by
  obtain ⟨hstep, rfl⟩ := hrefines
  unfold Context.registerTable Catalog.registerTable
  dsimp only
  rw [hstep.freeName_eq, ← hstep.entityFor?_eq]
  cases hfind : context.positions.find? binding with
  | some position =>
      obtain ⟨entity, hat, _⟩ := hstep.exists_of_find? hfind
      have hknown : (context.entityFor? binding).isSome = true := by
        rw [Context.entityFor?, hfind, Option.bind_some, hat]
        rfl
      rw [if_pos hknown]
      have hmodify (change : Entity → Entity)
          (hchange : ∀ entity, (change entity).binding = entity.binding) :=
        Refines.modify ⟨hstep, rfl⟩ binding hchange
      simp only [Context.modify, hfind] at hmodify
      exact hmodify _ fun _ => rfl
  | none =>
      have hnew : ¬ (context.entityFor? binding).isSome = true := by
        rw [Context.entityFor?, hfind]
        exact Bool.false_ne_true
      rw [if_neg hnew]
      exact ⟨hstep.concat hfind, rfl⟩

theorem registerEnum (hrefines : Refines context catalog) (binding : String)
    (values : List String) :
    Refines (context.registerEnum binding values) (catalog.registerEnum binding values) := by
  obtain ⟨hstep, rfl⟩ := hrefines
  exact ⟨hstep.of_bindings_eq rfl rfl, rfl⟩

theorem markPopulated (hrefines : Refines context catalog) (binding : String) :
    (context.markPopulated binding).1 = (catalog.markPopulated binding).1 ∧
      Refines (context.markPopulated binding).2 (catalog.markPopulated binding).2 := by
  obtain ⟨hstep, rfl⟩ := hrefines
  unfold Context.markPopulated Catalog.markPopulated
  cases hknown : context.populated.contains binding with
  | true =>
      have hknown' : context.catalog.populated.contains binding = true := hknown
      rw [if_pos rfl, if_pos hknown']
      exact ⟨rfl, hstep, rfl⟩
  | false =>
      have hknown' : ¬ context.catalog.populated.contains binding = true :=
        Bool.eq_false_iff.mp hknown
      rw [if_neg Bool.false_ne_true, if_neg hknown']
      exact ⟨rfl, hstep.of_bindings_eq rfl rfl, rfl⟩

theorem addStubs (hrefines : Refines context catalog) (stubs : List Relation) :
    Refines (context.addStubs stubs) (catalog.addStubs stubs) := by
  obtain ⟨hstep, rfl⟩ := hrefines
  exact ⟨hstep.of_bindings_eq rfl rfl, rfl⟩

/-! ## Passes -/

theorem registerDeclaration (hrefines : Refines context catalog) (builders : Builders)
    (declaration : String × Declaration) :
    Refines (context.registerDeclaration builders declaration)
      (catalog.registerDeclaration builders declaration) := by
  obtain ⟨fileName, declaration⟩ := declaration
  dsimp only [Context.registerDeclaration, Catalog.registerDeclaration]
  cases declaration.init.rootFrame? with
  | none => exact hrefines
  | some root =>
      dsimp only
      split_ifs
      · exact hrefines.registerTable _ _ _ _
      · exact hrefines.registerEnum _ _
      · exact hrefines

theorem register (hrefines : Refines context catalog) (builders : Builders)
    (modules : List Module) :
    Refines (context.register builders modules) (catalog.register builders modules) :=
  List.foldl_rel hrefines fun declaration _ _ _ hrefines =>
    hrefines.registerDeclaration builders declaration

theorem readTable (hrefines : Refines context catalog) (binding : String) (root : Frame) :
    Refines (context.readTable binding root) (catalog.readTable binding root) := by
  have henums : context.enums = catalog.enums := congrArg Catalog.enums hrefines.catalog_eq
  unfold Context.readTable Catalog.readTable
  rw [henums]
  apply hrefines.modify
  intro entity
  cases root.arg? 2 with
  | none => rfl
  | some extras => exact Entity.binding_withExtras _ _

theorem tableDeclaration (hrefines : Refines context catalog) (builders : Builders)
    (declaration : Declaration) :
    Refines (context.tableDeclaration builders declaration)
      (catalog.tableDeclaration builders declaration) := by
  obtain ⟨hsame, hmarked⟩ := hrefines.markPopulated declaration.name
  unfold Context.tableDeclaration Catalog.tableDeclaration
  cases declaration.init.rootFrame? with
  | none => exact hrefines
  | some root =>
      dsimp only
      split_ifs
      · generalize context.markPopulated declaration.name = marked at hsame hmarked
        generalize catalog.markPopulated declaration.name = expected at hsame hmarked
        obtain ⟨fresh, marked⟩ := marked
        obtain ⟨_, expected⟩ := expected
        dsimp only at hsame hmarked
        subst hsame
        cases fresh with
        | true => exact hmarked.readTable declaration.name root
        | false => exact hrefines
      · exact hrefines

theorem readTables (hrefines : Refines context catalog) (builders : Builders)
    (modules : List Module) :
    Refines (context.readTables builders modules) (catalog.readTables builders modules) :=
  List.foldl_rel hrefines fun declaration _ _ _ hrefines =>
    hrefines.tableDeclaration builders declaration

theorem relationsOf_eq (hrefines : Refines context catalog) :
    context.relationsOf = catalog.relationsOf := by
  funext declaration
  unfold Context.relationsOf Catalog.relationsOf
  rw [hrefines.entityFor?_eq]
  rfl

theorem readRelations (hrefines : Refines context catalog) (modules : List Module) :
    Refines (context.readRelations modules) (catalog.readRelations modules) := by
  unfold Context.readRelations Catalog.readRelations
  rw [hrefines.relationsOf_eq]
  exact hrefines.addStubs _

theorem resolve (hrefines : Refines context catalog) :
    Refines context.resolve catalog.resolve := by
  have hstubs : context.stubs = catalog.stubs := congrArg Catalog.stubs hrefines.catalog_eq
  unfold Context.resolve Catalog.resolve
  rw [hstubs]
  apply List.foldl_rel
  · obtain ⟨hstep, rfl⟩ := hrefines
    exact ⟨hstep.of_bindings_eq rfl rfl, rfl⟩
  · intro relation _ context catalog hrefines
    apply hrefines.modify
    intro entity
    unfold Entity.addRelation
    split <;> rfl

end Refines

/-- What is made of modules through the index is what is made of them by searching. -/
theorem refines_ofModules (builders : Builders) (modules : List Module) :
    Refines (ofModules builders modules) (Catalog.ofModules builders modules) :=
  (((Refines.empty.register builders modules).readTables builders modules).readRelations
    modules).resolve

end EntityModel.Context
