import EntityModel.Proofs.Catalog.JoinColumn
import EntityModel.Proofs.Column.Declared

/-!
# What the call of a relation declares

A relation is read if its owner is known and its call names a table variable. What it leads to, its
join column, its actions and its ownership then follow from the call and from the columns of both
sides (`IsDeclaredBy`), and nothing of it is left open.
-/

namespace EntityModel

namespace Relation

variable {α : Type} {owner : Entity} {target : Option Entity} {root : Frame}

/-- Whether a column is that of the key property of a relation. A listed property has the column of
the owner, or else that of the target; one that is found has that of the target. -/
inductive IsKeyColumn (own : Columns) (target : Option Columns) (fields : Option (List Expr))
    (property : String) : Column → Prop
  | own {column : Column} (hlisted : ¬ Unlisted fields) (hown : own.find? property = some column) :
      IsKeyColumn own target fields property column
  | target {columns : Columns} {column : Column} (hlisted : ¬ Unlisted fields)
      (hown : own.find? property = none) (htarget : target = some columns)
      (hcolumn : columns.find? property = some column) :
      IsKeyColumn own target fields property column
  | found {columns : Columns} {column : Column} (hfound : Unlisted fields)
      (htarget : target = some columns) (hcolumn : columns.find? property = some column) :
      IsKeyColumn own target fields property column

/-- Whether a column holds the key of a relation, by the call that declares it. -/
def HoldsKey (owner : Entity) (target : Option Entity) (root : Frame) (column : Column) : Prop :=
  ∃ property,
    IsKeyProperty owner.binding (target.map (·.columns)) (fields? (root.arg? 1)) property ∧
      IsKeyColumn owner.columns (target.map (·.columns)) (fields? (root.arg? 1)) property column

/-- Whether a relation has an action: it is given by an option of the call, or else the column that
holds the key has it. -/
inductive IsAction (given : Option α) (holdsKey : Column → Prop) (ofColumn : Column → Option α)
    (action : α) : Prop
  | given (hgiven : given = some action)
  | inherited {column : Column} (hgiven : given = none) (hcolumn : holdsKey column)
      (haction : ofColumn column = some action)

/-- Whether a relation is the one that a call declares under a name of its owner. The call leads to
a table variable, whose entity may be unknown. -/
structure IsDeclaredBy (owner : Entity) (localName : String) (root : Frame) (toBinding : String)
    (target : Option Entity) (relation : Relation) : Prop where
  fromEntity_eq : relation.fromEntity = owner.name
  fromBinding_eq : relation.fromBinding = owner.binding
  localName_eq : relation.localName = localName
  toBinding_eq : relation.toBinding = toBinding
  toEntity_known : ∀ entity, target = some entity → relation.toEntity = entity.name
  toEntity_unknown : target = none → relation.toEntity = Naming.pascalCase toBinding
  builder_eq : relation.builder = RelationBuilder.ofName root.name
  explicitFields_iff : relation.explicitFields = true ↔
    ∃ field rest, Column.optionGiven? "fields" Expr.items? root = some (field :: rest)
  cardinality_eq : relation.cardinality =
    declaredCardinality relation.builder relation.explicitFields
  inverseSide_eq : relation.inverseSide = none
  /-- The join column is that of the key property, by its name on either side. -/
  joinColumn_iff : ∀ name, relation.joinColumn = some name ↔ ∃ property,
    IsKeyProperty owner.binding (target.map (·.columns)) (fields? (root.arg? 1)) property ∧
      IsKeyName owner.columns (target.map (·.columns)) property name
  joinColumn_eq_none_iff : relation.joinColumn = none ↔ ∀ property,
    ¬ IsKeyProperty owner.binding (target.map (·.columns)) (fields? (root.arg? 1)) property
  /-- Nothing is found in an unknown target. -/
  joinColumn_unknown : target = none → Unlisted (fields? (root.arg? 1)) →
    relation.joinColumn = none
  isOwner_iff : relation.isOwner = true ↔
    relation.cardinality.isSingular = true ∧ relation.joinColumn ≠ none
  onDelete_iff : ∀ action, relation.onDelete = some action ↔
    IsAction (Column.optionGiven? "onDelete" Expr.string? root) (HoldsKey owner target root)
      (·.onDelete) action
  onUpdate_iff : ∀ action, relation.onUpdate = some action ↔
    IsAction (Column.optionGiven? "onUpdate" Expr.string? root) (HoldsKey owner target root)
      (·.onUpdate) action
  cascade_iff : ∀ holds, relation.cascade = some holds ↔
    IsAction (Column.optionGiven? "cascade" Expr.boolean? root) (HoldsKey owner target root)
      (·.cascade) holds
  label_eq : relation.label = Column.optionGiven? "relationName" Expr.string? root

/-- A call declares one relation. -/
theorem IsDeclaredBy.unique {localName toBinding : String} {relation relation' : Relation}
    (hdeclared : IsDeclaredBy owner localName root toBinding target relation)
    (hdeclared' : IsDeclaredBy owner localName root toBinding target relation') :
    relation = relation' := by
  have htoEntity : relation.toEntity = relation'.toEntity := by
    cases htarget : target with
    | none =>
        rw [hdeclared.toEntity_unknown htarget, hdeclared'.toEntity_unknown htarget]
    | some entity =>
        rw [hdeclared.toEntity_known entity htarget, hdeclared'.toEntity_known entity htarget]
  have hbuilder := hdeclared.builder_eq.trans hdeclared'.builder_eq.symm
  have hexplicit := Bool.eq_iff_iff.mpr
    (hdeclared.explicitFields_iff.trans hdeclared'.explicitFields_iff.symm)
  have hcardinality : relation.cardinality = relation'.cardinality := by
    rw [hdeclared.cardinality_eq, hdeclared'.cardinality_eq, hbuilder, hexplicit]
  have hjoin := Option.ext fun name =>
    (hdeclared.joinColumn_iff name).trans (hdeclared'.joinColumn_iff name).symm
  have howner : relation.isOwner = relation'.isOwner := by
    rw [Bool.eq_iff_iff, hdeclared.isOwner_iff, hdeclared'.isOwner_iff, hcardinality, hjoin]
  have honDelete := Option.ext fun action =>
    (hdeclared.onDelete_iff action).trans (hdeclared'.onDelete_iff action).symm
  have honUpdate := Option.ext fun action =>
    (hdeclared.onUpdate_iff action).trans (hdeclared'.onUpdate_iff action).symm
  have hcascade := Option.ext fun holds =>
    (hdeclared.cascade_iff holds).trans (hdeclared'.cascade_iff holds).symm
  have hfromEntity := hdeclared.fromEntity_eq.trans hdeclared'.fromEntity_eq.symm
  have hfromBinding := hdeclared.fromBinding_eq.trans hdeclared'.fromBinding_eq.symm
  have hlocalName := hdeclared.localName_eq.trans hdeclared'.localName_eq.symm
  have htoBinding := hdeclared.toBinding_eq.trans hdeclared'.toBinding_eq.symm
  have hinverse := hdeclared.inverseSide_eq.trans hdeclared'.inverseSide_eq.symm
  have hlabel := hdeclared.label_eq.trans hdeclared'.label_eq.symm
  cases relation
  cases relation'
  simp only [mk.injEq]
  exact ⟨hfromEntity, hfromBinding, hlocalName, htoEntity, htoBinding, hcardinality, hinverse,
    hjoin, howner, honDelete, honUpdate, hcascade, hbuilder, hexplicit, hlabel⟩

end Relation

end EntityModel
