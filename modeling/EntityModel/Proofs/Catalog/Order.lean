import EntityModel.Proofs.Catalog.Dependence
import Mathlib.Data.List.Forall2

/-!
# The order of declarations

Where nothing is declared twice, the order of files and of the declarations in each decides nothing
but the order of entities and of waiting relations. Each pass over the declarations reads only what
an earlier pass left of all of them, so an enumeration may stand after the columns that use it, and
a table after the relations that look for a key among its columns.
-/

namespace EntityModel

namespace Module

/-- Whether a file has the name of another and its declarations, in any order. -/
structure SameDeclarations (first second : Module) : Prop where
  fileName_eq : first.fileName = second.fileName
  declarations_perm : first.declarations.Perm second.declarations

/-- Whether files are others in any order, with the declarations of each in any order. -/
def Rearranged (modules others : List Module) : Prop :=
  ∃ moved, modules.Perm moved ∧ List.Forall₂ SameDeclarations moved others

theorem declarationsOf_perm_of_forall₂ {modules others : List Module}
    (hsame : List.Forall₂ SameDeclarations modules others) :
    (declarationsOf modules).Perm (declarationsOf others) := by
  induction hsame with
  | nil => exact List.Perm.nil
  | cons hfirst _ ih =>
      simp only [declarationsOf, List.flatMap_cons, hfirst.fileName_eq]
      exact (hfirst.declarations_perm.map _).append ih

theorem Rearranged.declarationsOf_perm {modules others : List Module}
    (hrearranged : Rearranged modules others) :
    (declarationsOf modules).Perm (declarationsOf others) := by
  obtain ⟨moved, hmoved, hsame⟩ := hrearranged
  exact (hmoved.flatMap_right _).trans (declarationsOf_perm_of_forall₂ hsame)

theorem Rearranged.declarations_perm {modules others : List Module}
    (hrearranged : Rearranged modules others) :
    (modules.flatMap (·.declarations)).Perm (others.flatMap (·.declarations)) := by
  rw [← map_declarationsOf, ← map_declarationsOf]
  exact hrearranged.declarationsOf_perm.map _

end Module

namespace Builders

variable {builders : Builders} {modules others : List Module}

theorem tablesIn_perm (builders : Builders) (hrearranged : Module.Rearranged modules others) :
    (builders.tablesIn modules).Perm (builders.tablesIn others) :=
  hrearranged.declarationsOf_perm.filterMap _

theorem enumsIn_perm (builders : Builders) (hrearranged : Module.Rearranged modules others) :
    (builders.enumsIn modules).Perm (builders.enumsIn others) :=
  hrearranged.declarationsOf_perm.filterMap _

theorem DeclareOnce.rearranged (hdeclared : builders.DeclareOnce modules)
    (hrearranged : Module.Rearranged modules others) : builders.DeclareOnce others where
  tables_nodup := ((builders.tablesIn_perm hrearranged).map _).nodup hdeclared.tables_nodup
  wanted_nodup := ((builders.tablesIn_perm hrearranged).map _).nodup hdeclared.wanted_nodup
  enums_nodup := ((builders.enumsIn_perm hrearranged).map _).nodup hdeclared.enums_nodup

end Builders

/-! ## Enumerations -/

/-- Where names are distinct, the order of entries does not decide what a name stands for. -/
theorem lookup_eq_of_perm {α : Type} {entries others : List (String × α)}
    (hperm : entries.Perm others) (hnodup : (entries.map Prod.fst).Nodup) (key : String) :
    entries.lookup key = others.lookup key := by
  apply Option.ext
  intro value
  rw [lookup_eq_some_iff_mem hnodup, lookup_eq_some_iff_mem ((hperm.map _).nodup hnodup),
    hperm.mem_iff]

theorem OrderedMap.find?_ofList_of_perm {α : Type} {entries others : List (String × α)}
    (hperm : entries.Perm others) (hnodup : (entries.map Prod.fst).Nodup) (key : String) :
    (ofList entries).find? key = (ofList others).find? key := by
  rw [find?_ofList, find?_ofList]
  apply lookup_eq_of_perm
  · exact (List.reverse_perm _).trans (hperm.trans (List.reverse_perm _).symm)
  · rw [List.map_reverse, List.nodup_reverse]
    exact hnodup

theorem TableDeclaration.entity_congr {enums enums' : Enumerations}
    (hsame : ∀ name, enums.find? name = enums'.find? name) (table : TableDeclaration) :
    table.entity enums = table.entity enums' :=
  Entity.readFrom_eq_of_columnEntries (fun _ _ root _ => hsame root.name) table.bare

namespace Catalog

/-- Whether two catalogs have the same entities and the same waiting relations, in any order. -/
structure SameUpToOrder (catalog other : Catalog) : Prop where
  entities_perm : catalog.entities.Perm other.entities
  stubs_perm : catalog.stubs.Perm other.stubs

/-- Variables of catalogs with the same entities stand for the same ones. -/
theorem Distinct.entityFor?_eq_of_perm {catalog other : Catalog} (hdistinct : catalog.Distinct)
    (hother : other.Distinct) (hperm : catalog.entities.Perm other.entities) (binding : String) :
    catalog.entityFor? binding = other.entityFor? binding := by
  apply Option.ext
  intro entity
  rw [hdistinct.entityFor?_eq_some_iff, hother.entityFor?_eq_some_iff, hperm.mem_iff]

variable {builders : Builders} {modules others : List Module}

theorem entities_collected_perm (hdeclared : builders.DeclareOnce modules)
    (hrearranged : Module.Rearranged modules others) :
    (collected builders modules).entities.Perm (collected builders others).entities := by
  have hsame := OrderedMap.find?_ofList_of_perm (builders.enumsIn_perm hrearranged)
    hdeclared.enums_nodup
  -- Each table has the same entity on both sides, as names stand for the same enumerations.
  rw [entities_collected builders hdeclared,
    entities_collected builders (hdeclared.rearranged hrearranged),
    funext (TableDeclaration.entity_congr hsame)]
  exact (builders.tablesIn_perm hrearranged).map _

/-- Where nothing is declared twice, files and declarations may be rearranged: each table variable
stands for the same entity, and the same relations wait. -/
theorem collected_rearranged (hdeclared : builders.DeclareOnce modules)
    (hrearranged : Module.Rearranged modules others) :
    (collected builders modules).SameUpToOrder (collected builders others) ∧
      ∀ table ∈ builders.tablesIn modules, ∃ entity,
        (collected builders modules).entityFor? table.binding = some entity ∧
        (collected builders others).entityFor? table.binding = some entity := by
  have hperm := entities_collected_perm hdeclared hrearranged
  have hfor := (awaiting_collected builders modules).distinct.entityFor?_eq_of_perm
    (awaiting_collected builders others).distinct hperm
  refine ⟨⟨hperm, ?_⟩, fun table hmem => ?_⟩
  · -- Each declaration declares the same relations, as variables stand for the same entities.
    have hrelations : (collected builders modules).relationsOf =
        (collected builders others).relationsOf := by
      funext declaration
      exact relationsOf_congr_of_targets (fun owner _ => hfor owner)
        fun relation _ => hfor relation.toBinding
    rw [stubs_collected, stubs_collected, hrelations]
    exact hrearranged.declarations_perm.flatMap_right _
  · have hentity : (collected builders modules).entityFor? table.binding =
        some (table.entity (OrderedMap.ofList (builders.enumsIn modules))) := by
      rw [(awaiting_collected builders modules).distinct.entityFor?_eq_some_iff,
        entities_collected builders hdeclared]
      exact ⟨List.mem_map_of_mem hmem, Entity.binding_readFrom _ _ _⟩
    exact ⟨_, hentity, hfor table.binding ▸ hentity⟩

/-- Users have a role, and profiles refer to users. The role may be declared after the users, and
the relations of profiles before both tables. -/
theorem usersAndProfiles_rearranged :
    let role : Declaration :=
      ⟨"role", .call (.ident "pgEnum") [.string "role", .array [.string "admin", .string "guest"]]⟩
    let users : Declaration := ⟨"users", .call (.ident "pgTable") [.string "users", .object [
      ("id", .call (.ident "uuid") [.string "id"]),
      ("role", .call (.ident "role") [.string "role"])]]⟩
    let profiles : Declaration := ⟨"profiles", .call (.ident "pgTable") [.string "user_profiles",
      .object [("userId", .call (.member (.call (.ident "uuid") [.string "user_id"]) "references")
        [.arrow [] (.member (.ident "users") "id")])]]⟩
    let relations : Declaration := ⟨"profilesRelations", .call (.ident "relations")
      [.ident "profiles", .arrow ["{ one }"] (.object [
        ("user", .call (.ident "one") [.ident "users", .object [
          ("fields", .array [.member (.ident "profiles") "userId"])]])])]⟩
    let modules : List Module :=
      [⟨"users.ts", [role, users]⟩, ⟨"profiles.ts", [profiles, relations]⟩]
    let others : List Module :=
      [⟨"profiles.ts", [relations, profiles]⟩, ⟨"users.ts", [users, role]⟩]
    Builders.usual.DeclareOnce modules ∧ Module.Rearranged modules others ∧
      (collected Builders.usual modules).SameUpToOrder (collected Builders.usual others) ∧
      ∀ table ∈ Builders.usual.tablesIn modules, ∃ entity,
        (collected Builders.usual modules).entityFor? table.binding = some entity ∧
        (collected Builders.usual others).entityFor? table.binding = some entity := by
  intro role users profiles relations modules others
  have hdeclared : Builders.usual.DeclareOnce modules :=
    ⟨by decide +kernel, by decide +kernel, by decide +kernel⟩
  have hrearranged : Module.Rearranged modules others := by
    refine ⟨_, List.Perm.swap _ _ _, List.Forall₂.cons ?_ (List.Forall₂.cons ?_ List.Forall₂.nil)⟩
    · exact ⟨rfl, List.Perm.swap _ _ _⟩
    · exact ⟨rfl, List.Perm.swap _ _ _⟩
  exact ⟨hdeclared, hrearranged, collected_rearranged hdeclared hrearranged⟩

end Catalog

end EntityModel
