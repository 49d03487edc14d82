import EntityModel.Proofs.Conversion.Emission
import EntityModel.Proofs.Number.Numeral
import EntityModel.Proofs.Schema.Identifier

/-!
# Names that schemas are bound to

A file binds the schema of each entity to the name of the entity with `Entity` behind it. No two
schemas of a file are bound to one name, but a name is an identifier only if what the entity is
called makes one (`bindsIdentifiers_iff`).
-/

namespace EntityModel

/-- What the schema of an entity is bound to. -/
def Entity.schemaBinding (entity : Entity) : List Char := entity.name.toList ++ "Entity".toList

namespace Schema

theorem entityText_eq_append (entity : Entity) : ∃ rest, (entityText entity).toList =
    "export const ".toList ++ entity.schemaBinding ++
      (" = new EntitySchema(\x7b\n".toList ++ rest) := by
  have hlines : ∃ others, entityLines entity =
      ("export const " ++ entity.name ++ "Entity = new EntitySchema(\x7b") :: others := ⟨_, rfl⟩
  obtain ⟨others, hlines⟩ := hlines
  exact ⟨(Text.unlines others).toList, by
    simp [entityText, hlines, Text.unlines, Entity.schemaBinding]⟩

end Schema

namespace Catalog

open Schema (Alphabet)

variable {catalog : Catalog}

/-- Whether every schema of a catalog is bound to an identifier, and those of one file to
different ones. -/
structure BindsIdentifiers (alphabet : Alphabet) (catalog : Catalog) : Prop where
  isIdentifier : ∀ entity ∈ catalog.entities, alphabet.IsIdentifier entity.schemaBinding
  nodup : ∀ fileName, ((catalog.entitiesIn fileName).map Entity.schemaBinding).Nodup

theorem Distinct.nodup_schemaBinding (hdistinct : catalog.Distinct) (fileName : String) :
    ((catalog.entitiesIn fileName).map Entity.schemaBinding).Nodup := by
  have hnames : ((catalog.entitiesIn fileName).map (·.name)).Nodup :=
    hdistinct.names_nodup.sublist (List.Sublist.map _ List.filter_sublist)
  have hmap : (catalog.entitiesIn fileName).map Entity.schemaBinding =
      ((catalog.entitiesIn fileName).map (·.name)).map
        fun name => name.toList ++ "Entity".toList := by
    rw [List.map_map]
    rfl
  rw [hmap]
  apply List.Nodup.map _ hnames
  exact fun first second heq => String.toList_inj.mp (List.append_cancel_right heq)

/-- Every entity has the name that the last declaration of its table gives. -/
theorem exists_isGiven_of_mem_ofModules {builders : Builders} {modules : List Module}
    {entity : Entity} (hmem : entity ∈ (ofModules builders modules).entities) :
    ∃ before last, builders.IsLastTable modules before last ∧ last.binding = entity.binding ∧
      (before.foldl (registerDeclaration builders) empty).IsGiven entity.binding last.wanted
        entity.name := by
  have hregistered := registered_register builders modules
  have hnames : (ofModules builders modules).entities.map
        (fun entity => (entity.binding, entity.name)) =
      (empty.register builders modules).entities.map
        fun entity => (entity.binding, entity.name) := by
    rw [ofModules_eq_resolve, map_entities_resolve _ _ fun _ _ => rfl, entities_collected_eq,
      List.map_map]
    simp [Function.comp_def]
  obtain ⟨bare, hbare, heq⟩ := List.mem_map.mp (hnames ▸ List.mem_map_of_mem hmem)
  obtain ⟨hbinding, hname⟩ := Prod.mk.inj heq
  have hdeclared : bare.binding ∈ (builders.tablesIn modules).map (·.binding) := by
    rw [← List.mem_eraseDups, Builders.tablesIn, ← hregistered.bindings_eq]
    exact List.mem_map_of_mem hbare
  obtain ⟨before, last, hlast, hsame⟩ := builders.exists_isLastTable hdeclared
  obtain ⟨name, hgiven, hfound⟩ := entityFor?_register builders hlast
  have hentity := hregistered.distinct.entityFor?_eq_some_iff.mpr ⟨hbare, hsame.symm⟩
  obtain rfl := Option.some.inj (hentity.symm.trans hfound)
  rw [← hbinding, ← hname]
  exact ⟨before, last, hlast, rfl, hgiven⟩

/-- A number behind a name that makes an identifier does no harm. -/
theorem IsGiven.startsEntity {alphabet : Alphabet} {binding wanted name : String}
    (hgiven : catalog.IsGiven binding wanted name) (hne : wanted ≠ "") {chars : List Char}
    (hchars : alphabet.Spells true wanted.toList chars) :
    alphabet.StartsEntity name.toList := by
  rcases hgiven with ⟨-, rfl⟩ | ⟨-, number, -, rfl, -⟩
  · exact Or.inl ⟨chars, hchars⟩
  · have hdigits : ∀ digit ∈ (Nat.repr number).toList, Text.isAsciiDigit digit = true := by
      intro digit hmem
      rw [Nat.repr, String.toList_ofList] at hmem
      exact Numeral.isAsciiDigit_of_mem_toDigits hmem
    rw [String.toList_append]
    exact Or.inl ⟨_, hchars.append_digits (by simpa using hne) hdigits⟩

/-- Every schema is written behind what it is bound to. The schemas of a project are bound to
identifiers exactly if the names of its entities make identifiers with `Entity` behind them; they do
where the names that the tables give are identifiers, whatever number tells an entity from another.
In any case each output binds its schemas to different names. -/
theorem bindsIdentifiers_iff (alphabet : Alphabet) (builders : Builders) (modules : List Module) :
    (∀ entity, ∃ rest, (Schema.entityText entity).toList =
      "export const ".toList ++ entity.schemaBinding ++
        (" = new EntitySchema(\x7b\n".toList ++ rest)) ∧
    ((ofModules builders modules).BindsIdentifiers alphabet ↔
      ∀ entity ∈ (ofModules builders modules).entities,
        alphabet.StartsEntity entity.name.toList) ∧
    (∀ entity ∈ (ofModules builders modules).entities, ∃ before last,
      builders.IsLastTable modules before last ∧ last.binding = entity.binding ∧
      (∀ chars, last.wanted ≠ "" → alphabet.Spells true last.wanted.toList chars →
        alphabet.StartsEntity entity.name.toList)) ∧
    (∀ extension files name text,
      (name, text) ∈ (Conversion.outputsOf (ofModules builders modules) extension files).entries →
        ∃ entities, text = Schema.fileText entities ∧
          entities.Sublist (ofModules builders modules).entities ∧
          (entities.map Entity.schemaBinding).Nodup) := by
  have hnodup := (awaiting_collected builders modules).distinct_resolve.nodup_schemaBinding
  refine ⟨Schema.entityText_eq_append, ⟨fun hbinds entity hmem => ?_, fun hstarts => ?_⟩,
    fun entity hmem => ?_, ?_⟩
  · exact Alphabet.isIdentifier_append_iff.mp (hbinds.isIdentifier entity hmem)
  · exact ⟨fun entity hmem => Alphabet.isIdentifier_append_iff.mpr (hstarts entity hmem), hnodup⟩
  · obtain ⟨before, last, hlast, hbinding, hgiven⟩ := exists_isGiven_of_mem_ofModules hmem
    exact ⟨before, last, hlast, hbinding, fun chars hne hchars => hgiven.startsEntity hne hchars⟩
  · intro extension files name text hmem
    obtain ⟨file, _, _, _, htext⟩ := Conversion.exists_file_of_mem_outputsOf hmem
    exact ⟨_, htext, List.filter_sublist, hnodup file.name⟩

/-- A table whose name starts with a digit. -/
theorem not_bindsIdentifiers_digit :
    let tokens : Module := ⟨"tokens.ts",
      [⟨"tokens", .call (.ident "pgTable") [.string "2fa_tokens", .object []]⟩]⟩
    ¬ ∃ alphabet, (ofModules Builders.usual [tokens]).BindsIdentifiers alphabet := by
  rintro tokens ⟨alphabet, hbinds⟩
  have hentities : (ofModules Builders.usual [tokens]).entities =
      [Entity.bare "2faTokens" "2fa_tokens" "tokens" "tokens.ts"] := rfl
  have hidentifier := hbinds.isIdentifier _ (hentities ▸ List.mem_singleton_self _)
  exact Alphabet.not_isIdentifier_of_digit rfl hidentifier

end Catalog

end EntityModel
