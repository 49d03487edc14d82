import EntityModel.Proofs.Catalog.Redeclaration
import EntityModel.Proofs.Column.WellFormed

/-!
# The columns of a project

All columns of a catalog are well formed: those of a definition are, keys over several columns keep
them so, and nothing else changes the columns of an entity.
-/

namespace EntityModel

namespace Entity

/-- Whether all columns of an entity are well formed. -/
def HasWellFormedColumns (entity : Entity) : Prop := Columns.AreWellFormed entity.columns

namespace HasWellFormedColumns

variable {entity : Entity}

theorem makePrimary (hformed : entity.HasWellFormedColumns) (properties : List String) :
    (entity.makePrimary properties).HasWellFormedColumns :=
  List.foldlRecOn properties _ (motive := Columns.AreWellFormed) hformed
    fun _ hformed property _ => hformed.makePrimary property

theorem withConstraint (hformed : entity.HasWellFormedColumns)
    (constraint : Option String × Expr) :
    (entity.withConstraint constraint).HasWellFormedColumns := by
  obtain ⟨key, value⟩ := constraint
  dsimp only [Entity.withConstraint]
  split
  · exact hformed
  · split_ifs
    · exact hformed.makePrimary _
    · exact hformed
    · exact hformed

theorem withExtras (hformed : entity.HasWellFormedColumns) (extras : Expr) :
    (entity.withExtras extras).HasWellFormedColumns :=
  List.foldlRecOn _ _ (motive := HasWellFormedColumns) hformed
    fun _ hformed constraint _ => hformed.withConstraint constraint

/-- What is read from a declaration is well formed, whatever the entity was before. -/
theorem readFrom (enums : Enumerations) (root : Frame) (entity : Entity) :
    (entity.readFrom enums root).HasWellFormedColumns := by
  unfold Entity.readFrom
  extract_lets columns filled
  have hfilled : filled.HasWellFormedColumns := by
    dsimp only [filled, HasWellFormedColumns, columns]
    split
    · exact Columns.AreWellFormed.ofExpr enums _
    · exact Columns.AreWellFormed.empty
  split
  · exact hfilled.withExtras _
  · exact hfilled

theorem readFirst (enums : Enumerations) (tables : List TableDeclaration)
    (hbare : entity.IsBare) : (entity.readFirst enums tables).HasWellFormedColumns := by
  unfold Entity.readFirst
  split
  · exact readFrom enums _ entity
  · rw [HasWellFormedColumns, hbare]
    exact Columns.AreWellFormed.empty

theorem foldl_attached (hformed : entity.HasWellFormedColumns) (relations : List Relation) :
    (relations.foldl attached entity).HasWellFormedColumns := by
  obtain ⟨_, hattached⟩ := exists_foldl_attached_eq entity relations
  rw [hattached]
  exact hformed

end HasWellFormedColumns

end Entity

namespace Catalog

/-- Whether all columns of a catalog are well formed, and a schema says of each column of a primary
key that it is never null. -/
def ColumnsWellFormed (catalog : Catalog) : Prop :=
  ∀ entity ∈ catalog.entities, ∀ property column, (property, column) ∈ entity.columns.entries →
    column.IsWellFormed property ∧
      (column.primary = true → "      nullable: false," ∈
        Schema.memberLines (Schema.objectKey property ++ ": ") (Schema.columnFields column))

/-- Every column of a project is well formed, however it is declared. -/
theorem columnsWellFormed_ofModules (builders : Builders) (modules : List Module) :
    (ofModules builders modules).ColumnsWellFormed := by
  intro entity hentity property column hcolumn
  rw [entities_ofModules] at hentity
  obtain ⟨former, hformer, rfl⟩ := List.mem_map.mp hentity
  have hbare := (registered_register builders modules).bare former hformer
  have hread := Entity.HasWellFormedColumns.readFirst
    (OrderedMap.ofList (builders.enumsIn modules)) (builders.tablesIn modules) hbare
  have hformed := hread.foldl_attached _ property column hcolumn
  refine ⟨hformed, fun hprimary => ?_⟩
  have hnullable : ("nullable", "false") ∈ Schema.columnFields column := by
    rw [Schema.mem_columnFields_nullable_iff, hformed.nullable_of_primary hprimary]
    rfl
  exact List.mem_append_left _ (List.mem_cons_of_mem _ (List.mem_map_of_mem hnullable))

end Catalog

end EntityModel
