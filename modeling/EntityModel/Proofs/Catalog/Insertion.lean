import EntityModel.Proofs.Catalog.Dependence
import EntityModel.Proofs.Catalog.Inverse
import EntityModel.Proofs.Catalog.Redeclaration
import EntityModel.Proofs.Pairing.Locality
import Mathlib.Tactic.MkIffOfInductiveProp

/-!
# Files that share nothing

A file that shares no names with others may stand anywhere among them: their tables stand for the
same entities as without it, with the same columns, indices and relations, and in the same order.
-/

namespace EntityModel

/-! ## Lists with a part in the middle -/

section Middle

variable {α : Type} {front middle back : List α}

theorem find?_append_middle {found : α → Bool} (hmiddle : ∀ item ∈ middle, found item = false) :
    (front ++ (middle ++ back)).find? found = (front ++ back).find? found := by
  have hnone : middle.find? found = none :=
    List.find?_eq_none.mpr fun item hmem => Bool.eq_false_iff.mp (hmiddle item hmem)
  rw [List.find?_append, List.find?_append, List.find?_append, hnone, Option.none_or]

theorem lookup_append_middle {front middle back : List (String × α)} {key : String}
    (hmiddle : key ∉ middle.map Prod.fst) :
    (front ++ (middle ++ back)).lookup key = (front ++ back).lookup key := by
  have hnone : middle.lookup key = none := by
    rw [List.lookup_eq_none_iff]
    intro entry hmem
    exact bne_iff_ne.mpr fun heq => hmiddle (heq ▸ List.mem_map_of_mem hmem)
  rw [List.lookup_append, List.lookup_append, List.lookup_append, hnone, Option.none_or]

theorem filter_append_middle {keep : α → Bool} (hfront : ∀ item ∈ front, keep item = true)
    (hmiddle : ∀ item ∈ middle, keep item = false) (hback : ∀ item ∈ back, keep item = true) :
    (front ++ (middle ++ back)).filter keep = front ++ back := by
  have hnone : middle.filter keep = [] :=
    List.filter_eq_nil_iff.mpr fun item hmem => Bool.eq_false_iff.mp (hmiddle item hmem)
  rw [List.filter_append, List.filter_append, hnone, List.nil_append,
    List.filter_eq_self.mpr hfront, List.filter_eq_self.mpr hback]

/-- Items that are kept come first in the same order, whether others stand between them or not. -/
theorem filter_eraseDups [DecidableEq α] (keep : α → Bool) (items : List α) :
    items.eraseDups.filter keep = (items.filter keep).eraseDups := by
  induction items using List.reverseRecOn with
  | nil => rfl
  | append_singleton items item ih =>
      rw [List.eraseDups_append, List.filter_append, ih, List.filter_append,
        List.eraseDups_append]
      congr 1
      by_cases hkeep : keep item = true <;> by_cases hmem : item ∈ items <;>
        simp [List.removeAll, hkeep, hmem, List.eraseDups_cons]

end Middle

/-! ## What a file may share with others -/

namespace Builders

variable (builders : Builders)

/-- The table variables that files declare. -/
def tableBindings (modules : List Module) : List String :=
  (builders.tablesIn modules).map (·.binding)

/-- Whether a file shares no names with others. -/
@[mk_iff]
structure SharesNothing (modules : List Module) (added : Module) : Prop where
  /-- No two tables give the same name. -/
  wanted_nodup : ((builders.tablesIn (added :: modules)).map (·.wanted)).Nodup
  /-- The file declares none of the table variables of the others. -/
  tables_disjoint : ∀ binding ∈ builders.tableBindings [added],
    binding ∉ builders.tableBindings modules
  /-- No column of the others is built by the name of an enumeration of the file. -/
  enums_unused : ∀ binding ∈ builders.tableBindings modules,
    ∀ table ∈ (builders.tablesIn modules).find? (·.binding = binding),
      ∀ entry ∈ table.columnEntries, ∀ root ∈ entry.2.rootFrame?,
        root.name ∉ (builders.enumsIn [added]).map Prod.fst
  /-- The file declares no relations of tables of the others. -/
  owners_disjoint : ∀ declaration ∈ added.declarations,
    ∀ owner ∈ declaration.relationsOwner?, owner ∉ builders.tableBindings modules
  /-- No relation of the others leads to a table of the file, neither by variable nor by name. -/
  targets_disjoint : ∀ stub ∈ (Catalog.collected builders modules).stubs,
    stub.toBinding ∉ builders.tableBindings [added] ∧
      stub.toEntity ∉ (builders.tablesIn [added]).map (·.wanted)

instance (modules : List Module) (added : Module) :
    Decidable (builders.SharesNothing modules added) :=
  decidable_of_iff' _ (builders.sharesNothing_iff modules added)

variable {builders} {added : Module}

theorem tablesIn_append (builders : Builders) (modules others : List Module) :
    builders.tablesIn (modules ++ others) =
      builders.tablesIn modules ++ builders.tablesIn others := by
  simp [tablesIn, Module.declarationsOf]

theorem tablesIn_insert (builders : Builders) (front back : List Module) (added : Module) :
    builders.tablesIn (front ++ added :: back) =
      builders.tablesIn front ++ (builders.tablesIn [added] ++ builders.tablesIn back) := by
  rw [tablesIn_append, ← List.singleton_append, tablesIn_append]

theorem fileName_of_mem_tablesIn {table : TableDeclaration}
    (hmem : table ∈ builders.tablesIn [added]) : table.fileName = added.fileName := by
  obtain ⟨⟨fileName, declaration⟩, hdeclared, htable⟩ := List.mem_filterMap.mp hmem
  obtain ⟨_, _, rfl⟩ := Option.map_eq_some_iff.mp htable
  simp only [Module.declarationsOf, List.flatMap_singleton, List.mem_map] at hdeclared
  obtain ⟨_, _, heq⟩ := hdeclared
  exact (congrArg Prod.fst heq).symm

theorem tableBindings_append (builders : Builders) (modules others : List Module) :
    builders.tableBindings (modules ++ others) =
      builders.tableBindings modules ++ builders.tableBindings others := by
  rw [tableBindings, tablesIn_append, List.map_append]
  rfl

theorem tableBindings_insert (builders : Builders) (front back : List Module) (added : Module) :
    builders.tableBindings (front ++ added :: back) =
      builders.tableBindings front ++
        (builders.tableBindings [added] ++ builders.tableBindings back) := by
  rw [tableBindings_append, ← List.singleton_append, tableBindings_append]

theorem enumsIn_append (builders : Builders) (modules others : List Module) :
    builders.enumsIn (modules ++ others) = builders.enumsIn modules ++ builders.enumsIn others := by
  simp [enumsIn, Module.declarationsOf]

theorem enumsIn_insert (builders : Builders) (front back : List Module) (added : Module) :
    builders.enumsIn (front ++ added :: back) =
      builders.enumsIn front ++ (builders.enumsIn [added] ++ builders.enumsIn back) := by
  rw [enumsIn_append, ← List.singleton_append, enumsIn_append]

end Builders

/-! ## Entities beside those of a file that shares nothing -/

namespace Builders.SharesNothing

open Catalog

variable {builders : Builders} {front back : List Module} {added : Module}
  (hshares : builders.SharesNothing (front ++ back) added)

include hshares

theorem wanted_nodup_insert :
    ((builders.tablesIn (front ++ added :: back)).map (·.wanted)).Nodup := by
  have hperm : (builders.tablesIn (added :: (front ++ back))).Perm
      (builders.tablesIn (front ++ added :: back)) := by
    rw [← List.singleton_append, Builders.tablesIn_append, Builders.tablesIn_append builders front,
      Builders.tablesIn_insert]
    exact List.perm_append_comm_assoc _ _ _
  exact (hperm.map _).nodup hshares.wanted_nodup

theorem wanted_nodup_others : ((builders.tablesIn (front ++ back)).map (·.wanted)).Nodup := by
  have hnodup := hshares.wanted_nodup
  rw [← List.singleton_append, Builders.tablesIn_append, List.map_append] at hnodup
  exact hnodup.of_append_right

/-- A variable of the other files is registered as if the file were not there. -/
theorem entityFor?_register_insert {binding : String}
    (hbinding : binding ∉ builders.tableBindings [added]) :
    (empty.register builders (front ++ added :: back)).entityFor? binding =
      (empty.register builders (front ++ back)).entityFor? binding := by
  have hother : ∀ table ∈ (builders.tablesIn [added]).reverse,
      decide (table.binding = binding) = false := by
    intro table hmem
    apply decide_eq_false
    rintro rfl
    exact hbinding (List.mem_map_of_mem (List.mem_reverse.mp hmem))
  rw [entityFor?_register_of_nodup builders hshares.wanted_nodup_insert,
    entityFor?_register_of_nodup builders hshares.wanted_nodup_others,
    Builders.tablesIn_insert, Builders.tablesIn_append, List.reverse_append, List.reverse_append,
    List.reverse_append, List.append_assoc, find?_append_middle hother]

theorem map_binding_register_insert :
    ((empty.register builders (front ++ added :: back)).entities.map (·.binding)).filter
      (· ∈ builders.tableBindings (front ++ back)) =
      (empty.register builders (front ++ back)).entities.map (·.binding) := by
  have hfull : (empty.register builders (front ++ added :: back)).entities.map (·.binding) =
      (builders.tableBindings (front ++ added :: back)).eraseDups :=
    (registered_register builders _).bindings_eq
  have hothers : (empty.register builders (front ++ back)).entities.map (·.binding) =
      (builders.tableBindings (front ++ back)).eraseDups :=
    (registered_register builders _).bindings_eq
  have hmem : ∀ binding, binding ∈ builders.tableBindings (front ++ back) ↔
      binding ∈ builders.tableBindings front ∨ binding ∈ builders.tableBindings back := by
    simp [Builders.tableBindings_append]
  rw [hfull, hothers, filter_eraseDups, Builders.tableBindings_insert, filter_append_middle,
    ← Builders.tableBindings_append]
  · exact fun binding hfront => decide_eq_true ((hmem binding).mpr (Or.inl hfront))
  · exact fun binding hadded => decide_eq_false (hshares.tables_disjoint binding hadded)
  · exact fun binding hback => decide_eq_true ((hmem binding).mpr (Or.inr hback))

theorem entities_register_insert :
    (empty.register builders (front ++ added :: back)).entities.filter
      (fun entity => entity.binding ∈ builders.tableBindings (front ++ back)) =
      (empty.register builders (front ++ back)).entities := by
  have hfull := (registered_register builders (front ++ added :: back)).distinct
  have hothers := (registered_register builders (front ++ back)).distinct
  have hbindings := hshares.map_binding_register_insert
  rw [List.filter_map] at hbindings
  -- Entities are those that their variables stand for, and the variables are known.
  calc (empty.register builders (front ++ added :: back)).entities.filter
        (fun entity => entity.binding ∈ builders.tableBindings (front ++ back))
      = (((empty.register builders (front ++ added :: back)).entities.filter
          (fun entity => entity.binding ∈ builders.tableBindings (front ++ back))).map
          (·.binding)).filterMap
            (empty.register builders (front ++ added :: back)).entityFor? :=
        (hfull.filterMap_entityFor? fun _ hmem => List.mem_of_mem_filter hmem).symm
    _ = ((empty.register builders (front ++ back)).entities.map (·.binding)).filterMap
          (empty.register builders (front ++ added :: back)).entityFor? :=
        congrArg _ hbindings
    _ = ((empty.register builders (front ++ back)).entities.map (·.binding)).filterMap
          (empty.register builders (front ++ back)).entityFor? := by
        apply List.filterMap_congr
        intro binding hmem
        apply hshares.entityFor?_register_insert
        intro hadded
        apply hshares.tables_disjoint binding hadded
        rw [(registered_register builders _).bindings_eq, List.mem_eraseDups] at hmem
        exact hmem
    _ = (empty.register builders (front ++ back)).entities :=
        hothers.filterMap_entityFor? fun _ hmem => hmem

/-- The tables of the other files read the same columns and constraints. -/
theorem readFirst_insert {entity : Entity}
    (hbinding : entity.binding ∈ builders.tableBindings (front ++ back)) :
    entity.readFirst (OrderedMap.ofList (builders.enumsIn (front ++ added :: back)))
      (builders.tablesIn (front ++ added :: back)) =
      entity.readFirst (OrderedMap.ofList (builders.enumsIn (front ++ back)))
        (builders.tablesIn (front ++ back)) := by
  have hother : ∀ table ∈ builders.tablesIn [added],
      decide (table.binding = entity.binding) = false := by
    intro table hmem
    apply decide_eq_false
    intro heq
    exact hshares.tables_disjoint _ (List.mem_map_of_mem hmem) (heq ▸ hbinding)
  unfold Entity.readFirst
  rw [Builders.tablesIn_insert, find?_append_middle hother, ← Builders.tablesIn_append]
  cases hfirst : (builders.tablesIn (front ++ back)).find? (·.binding = entity.binding) with
  | none => rfl
  | some table =>
      apply Entity.readFrom_eq_of_columnEntries
      intro entry hentry root hroot
      have hunused := hshares.enums_unused _ hbinding table hfirst entry hentry root hroot
      have hkey : root.name ∉ (builders.enumsIn [added]).reverse.map Prod.fst := by
        simpa using hunused
      rw [OrderedMap.find?_ofList, OrderedMap.find?_ofList, Builders.enumsIn_insert,
        Builders.enumsIn_append, List.reverse_append, List.reverse_append, List.reverse_append,
        List.append_assoc, lookup_append_middle hkey]

theorem entities_collected_insert :
    (collected builders (front ++ added :: back)).entities.filter
      (fun entity => entity.binding ∈ builders.tableBindings (front ++ back)) =
      (collected builders (front ++ back)).entities := by
  rw [entities_collected_eq, entities_collected_eq, List.filter_map,
    ← hshares.entities_register_insert]
  simp only [Function.comp_def, Entity.binding_readFirst]
  apply List.map_congr_left
  intro entity hmem
  exact hshares.readFirst_insert (of_decide_eq_true (List.mem_filter.mp hmem).2)

theorem mem_collected_insert {entity : Entity}
    (hmem : entity ∈ (collected builders (front ++ back)).entities) :
    entity ∈ (collected builders (front ++ added :: back)).entities := by
  rw [← hshares.entities_collected_insert] at hmem
  exact List.mem_of_mem_filter hmem

/-- Each entity is one of the other files, or it is that of a table of the file. -/
theorem mem_collected_cases {entity : Entity}
    (hmem : entity ∈ (collected builders (front ++ added :: back)).entities) :
    entity ∈ (collected builders (front ++ back)).entities ∨
      entity.binding ∈ builders.tableBindings [added] ∧
        entity.name ∈ (builders.tablesIn [added]).map (·.wanted) ∧
        entity.fileName = added.fileName := by
  by_cases hbinding : entity.binding ∈ builders.tableBindings (front ++ back)
  · left
    rw [← hshares.entities_collected_insert]
    exact List.mem_filter.mpr ⟨hmem, decide_eq_true hbinding⟩
  · right
    rw [entities_collected_eq] at hmem
    obtain ⟨former, hformer, rfl⟩ := List.mem_map.mp hmem
    rw [Entity.binding_readFirst] at hbinding ⊢
    rw [Entity.name_readFirst, Entity.fileName_readFirst]
    have hfound := (registered_register builders _).distinct.entityFor?_eq_some_iff.mpr
      ⟨hformer, rfl⟩
    rw [entityFor?_register_of_nodup builders hshares.wanted_nodup_insert] at hfound
    obtain ⟨table, htable, rfl⟩ := Option.map_eq_some_iff.mp hfound
    have hdeclared : table ∈ builders.tablesIn (front ++ added :: back) :=
      List.mem_reverse.mp (List.mem_of_find?_eq_some htable)
    have hadded : table ∈ builders.tablesIn [added] := by
      rw [Builders.tablesIn_insert, List.mem_append, List.mem_append] at hdeclared
      rw [Builders.tableBindings_append, List.mem_append, not_or] at hbinding
      rcases hdeclared with hfront | hadded | hback
      · exact absurd (List.mem_map_of_mem hfront) hbinding.1
      · exact hadded
      · exact absurd (List.mem_map_of_mem hback) hbinding.2
    exact ⟨List.mem_map_of_mem hadded, List.mem_map_of_mem hadded,
      Builders.fileName_of_mem_tablesIn hadded⟩

theorem binding_mem_of_mem_collected {entity : Entity}
    (hmem : entity ∈ (collected builders (front ++ back)).entities) :
    entity.binding ∈ builders.tableBindings (front ++ back) := by
  rw [← hshares.entities_collected_insert] at hmem
  exact of_decide_eq_true (List.mem_filter.mp hmem).2

/-- A variable that the file does not declare stands for the same entity. -/
theorem entityFor?_collected_insert {binding : String}
    (hbinding : binding ∉ builders.tableBindings [added]) :
    (collected builders (front ++ added :: back)).entityFor? binding =
      (collected builders (front ++ back)).entityFor? binding := by
  have hfull := (awaiting_collected builders (front ++ added :: back)).distinct
  have hothers := (awaiting_collected builders (front ++ back)).distinct
  apply Option.ext
  intro entity
  rw [hfull.entityFor?_eq_some_iff, hothers.entityFor?_eq_some_iff]
  constructor
  · rintro ⟨hmem, rfl⟩
    refine ⟨?_, rfl⟩
    rcases hshares.mem_collected_cases hmem with hmem | ⟨hadded, _⟩
    · exact hmem
    · exact absurd hadded hbinding
  · rintro ⟨hmem, rfl⟩
    exact ⟨hshares.mem_collected_insert hmem, rfl⟩

/-! ## Relations beside those of a file that shares nothing -/

/-- The entities of the other files are told by their names as well as by their variables. -/
theorem name_mem_iff {entity : Entity}
    (hmem : entity ∈ (collected builders (front ++ added :: back)).entities) :
    entity.name ∈ (collected builders (front ++ back)).entities.map (·.name) ↔
      entity.binding ∈ builders.tableBindings (front ++ back) := by
  constructor
  · intro hname
    obtain ⟨other, hother, heq⟩ := List.mem_map.mp hname
    have hsame := (awaiting_collected builders (front ++ added :: back)).distinct.eq_of_name
      (hshares.mem_collected_insert hother) hmem heq
    exact hsame ▸ hshares.binding_mem_of_mem_collected hother
  · intro hbinding
    rcases hshares.mem_collected_cases hmem with hother | ⟨hadded, _⟩
    · exact List.mem_map_of_mem hother
    · exact absurd hbinding (hshares.tables_disjoint _ hadded)

/-- Where no table of the other files has its relations declared, none of them gains one. -/
theorem filter_relationsOf_eq_nil {declaration : Declaration}
    (howner : ∀ owner ∈ declaration.relationsOwner?,
      owner ∉ builders.tableBindings (front ++ back)) :
    ((collected builders (front ++ added :: back)).relationsOf declaration).filter
      (fun relation => relation.fromEntity ∈
        (collected builders (front ++ back)).entities.map (·.name)) = [] := by
  rw [List.filter_eq_nil_iff]
  intro relation hmem
  obtain ⟨entity, hentity, hdeclared, _, hname⟩ := exists_owner_of_mem_relationsOf hmem
  rw [← hname, decide_eq_true_iff, hshares.name_mem_iff hentity]
  exact howner _ hdeclared

/-- The declarations of the other files declare the same relations for their tables. -/
theorem filter_relationsOf_insert {declaration : Declaration}
    (hdeclaration : declaration ∈ (front ++ back).flatMap (·.declarations)) :
    ((collected builders (front ++ added :: back)).relationsOf declaration).filter
      (fun relation => relation.fromEntity ∈
        (collected builders (front ++ back)).entities.map (·.name)) =
      (collected builders (front ++ back)).relationsOf declaration := by
  by_cases howner : ∀ owner ∈ declaration.relationsOwner?,
      owner ∉ builders.tableBindings (front ++ back)
  · rw [hshares.filter_relationsOf_eq_nil howner]
    refine (List.eq_nil_iff_forall_not_mem.mpr fun relation hmem => ?_).symm
    obtain ⟨entity, hentity, hdeclared, _⟩ := exists_owner_of_mem_relationsOf hmem
    exact howner _ hdeclared (hshares.binding_mem_of_mem_collected hentity)
  · -- The owner and all targets are the same as without the file, so each entry reads the same.
    push Not at howner
    obtain ⟨owner, hdeclared, howner⟩ := howner
    have hsame : (collected builders (front ++ added :: back)).relationsOf declaration =
        (collected builders (front ++ back)).relationsOf declaration := by
      have hnew : owner ∉ builders.tableBindings [added] := fun hadded =>
        hshares.tables_disjoint owner hadded howner
      apply relationsOf_congr_of_targets
      · intro other hother
        obtain rfl : owner = other := Option.some.inj (hdeclared.symm.trans hother)
        exact hshares.entityFor?_collected_insert hnew
      intro relation hmem
      have hstub : relation ∈ (collected builders (front ++ back)).stubs := by
        rw [stubs_collected]
        exact List.mem_flatMap.mpr ⟨declaration, hdeclaration, hmem⟩
      exact hshares.entityFor?_collected_insert (hshares.targets_disjoint relation hstub).1
    rw [hsame, List.filter_eq_self]
    intro relation hmem
    obtain ⟨entity, hentity, _, _, hname⟩ := exists_owner_of_mem_relationsOf hmem
    exact decide_eq_true (hname ▸ List.mem_map_of_mem hentity)

theorem stubs_collected_insert :
    Relation.startingFrom
      (fun name => name ∈ (collected builders (front ++ back)).entities.map (·.name))
      (collected builders (front ++ added :: back)).stubs =
      (collected builders (front ++ back)).stubs := by
  rw [Relation.startingFrom, stubs_collected, stubs_collected, List.filter_flatMap]
  have hadded : added.declarations.flatMap (fun declaration =>
      ((collected builders (front ++ added :: back)).relationsOf declaration).filter
        fun relation => relation.fromEntity ∈
          (collected builders (front ++ back)).entities.map (·.name)) = [] := by
    rw [List.flatMap_eq_nil_iff]
    intro declaration hmem
    exact hshares.filter_relationsOf_eq_nil (hshares.owners_disjoint declaration hmem)
  rw [List.flatMap_append, List.flatMap_cons, List.flatMap_append, List.flatMap_append, hadded,
    List.nil_append, ← List.flatMap_append, ← List.flatMap_append]
  exact List.flatMap_congr fun declaration hmem => hshares.filter_relationsOf_insert hmem

/-- What leads back from a relation of another file is one of another file itself. -/
theorem isClosed_stubs_insert :
    Relation.IsClosed
      (fun name => name ∈ (collected builders (front ++ back)).entities.map (·.name))
      (collected builders (front ++ added :: back)).stubs := by
  intro relation hrelation reverse hback hkeep hreverse
  have hstub : relation ∈ (collected builders (front ++ back)).stubs := by
    rw [← hshares.stubs_collected_insert]
    exact List.mem_filter.mpr ⟨hrelation, hkeep⟩
  obtain ⟨entity, hentity, _, hname⟩ :=
    (awaiting_collected builders (front ++ added :: back)).owned reverse hback
  rw [← hname, decide_eq_true_iff]
  rcases hshares.mem_collected_cases hentity with hother | ⟨_, hwanted, _⟩
  · exact List.mem_map_of_mem hother
  · rw [Relation.isReverseOf, Bool.and_eq_true, decide_eq_true_iff] at hreverse
    rw [hname, hreverse.1] at hwanted
    exact absurd hwanted (hshares.targets_disjoint relation hstub).2

/-- The entities of the other files are given the same relations. -/
theorem foldl_attached_insert {entity : Entity}
    (hentity : entity ∈ (collected builders (front ++ back)).entities) :
    (Relation.pairAll (collected builders (front ++ added :: back)).stubs).foldl Entity.attached
        entity =
      (Relation.pairAll (collected builders (front ++ back)).stubs).foldl Entity.attached
        entity := by
  have hawaiting := awaiting_collected builders (front ++ added :: back)
  rw [← hshares.stubs_collected_insert,
    ← Relation.startingFrom_pairAll hshares.isClosed_stubs_insert, Relation.startingFrom]
  apply Entity.foldl_attached_eq_filter
  intro relation hmem hdropped hbinding
  -- What starts from the variable of the entity starts from its name, so it is not dropped.
  obtain ⟨place, hresult⟩ := List.mem_iff_getElem?.mp hmem
  obtain ⟨stub, _, _, _, hstub, rfl⟩ := Relation.exists_eq_of_getElem?_pairAll hresult
  obtain ⟨owner, howner, hstarts, hname⟩ := hawaiting.owned stub (List.mem_of_getElem? hstub)
  apply of_decide_eq_false hdropped
  rw [← hname, hshares.name_mem_iff howner, hstarts, hbinding]
  exact hshares.binding_mem_of_mem_collected hentity

end Builders.SharesNothing

namespace Catalog

variable {builders : Builders}

/-- A file that shares nothing with others may stand anywhere among them: the entities of their
tables are the same as without it, in the same order. -/
theorem entities_ofModules_insert {front back : List Module} {added : Module}
    (hshares : builders.SharesNothing (front ++ back) added) :
    (ofModules builders (front ++ added :: back)).entities.filter
      (fun entity => entity.binding ∈ builders.tableBindings (front ++ back)) =
      (ofModules builders (front ++ back)).entities := by
  have hbinding : ∀ entity, ((Relation.pairAll
      (collected builders (front ++ added :: back)).stubs).foldl Entity.attached entity).binding =
      entity.binding := by
    intro entity
    obtain ⟨after, hafter⟩ := Entity.exists_foldl_attached_eq entity
      (Relation.pairAll (collected builders (front ++ added :: back)).stubs)
    rw [hafter]
  rw [ofModules_eq_resolve, ofModules_eq_resolve, entities_resolve, entities_resolve,
    List.filter_map]
  simp only [Function.comp_def, hbinding]
  rw [hshares.entities_collected_insert]
  exact List.map_congr_left fun entity hmem => hshares.foldl_attached_insert hmem

/-- Each file but the added one declares the same entities. -/
theorem entitiesIn_ofModules_insert {front back : List Module} {added : Module}
    (hshares : builders.SharesNothing (front ++ back) added) {fileName : String}
    (hother : fileName ≠ added.fileName) :
    (ofModules builders (front ++ added :: back)).entitiesIn fileName =
      (ofModules builders (front ++ back)).entitiesIn fileName := by
  rw [entitiesIn, entitiesIn, ← entities_ofModules_insert hshares, List.filter_filter]
  apply List.filter_congr
  intro entity hmem
  rw [ofModules_eq_resolve, entities_resolve] at hmem
  obtain ⟨former, hformer, rfl⟩ := List.mem_map.mp hmem
  obtain ⟨after, hafter⟩ := Entity.exists_foldl_attached_eq former
    (Relation.pairAll (collected builders (front ++ added :: back)).stubs)
  rw [hafter]
  rcases hshares.mem_collected_cases hformer with hothers | ⟨_, _, hfile⟩
  · simp [hshares.binding_mem_of_mem_collected hothers]
  · simp [hfile, hother.symm]

end Catalog

end EntityModel
