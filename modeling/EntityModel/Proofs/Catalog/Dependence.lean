import EntityModel.Proofs.Catalog.Declarations

/-!
# What readings depend on

A column depends on one enumeration at most, that of the name of its builder. A relation depends on
the entities of its owner and of its target.
-/

namespace EntityModel

/-- The table variable that a declaration declares relations of, if it declares any. -/
def Declaration.relationsOwner? (declaration : Declaration) : Option String :=
  (declaration.init.rootFrame?.filter (·.name = "relations")).bind fun root =>
    (root.arg? 0).bind Expr.name?

/-- The expressions that declare the columns of a table, each with its property. -/
def TableDeclaration.columnEntries (table : TableDeclaration) : List (String × Expr) :=
  ((table.root.arg? 1).bind fun definition =>
    (Columns.definitionBody definition).entries?).getD []

/-! ## Columns and enumerations -/

/-- A column uses an enumeration only by the name of the call that builds it. -/
theorem Column.ofExpr_eq_of_rootFrame? {enums enums' : Enumerations} {expr : Expr}
    (hsame : ∀ root ∈ expr.rootFrame?, enums.find? root.name = enums'.find? root.name)
    (property : String) :
    Column.ofExpr enums property expr = Column.ofExpr enums' property expr := by
  unfold Expr.rootFrame? at hsame
  unfold Column.ofExpr
  dsimp only
  cases hroot : expr.frames.getLast? with
  | none => rfl
  | some root =>
      have hfind := hsame root hroot
      simp only [Column.ofBuilder, hfind]

theorem Entity.readFrom_eq_of_columnEntries {enums enums' : Enumerations}
    {table : TableDeclaration} (hsame : ∀ entry ∈ table.columnEntries,
      ∀ root ∈ entry.2.rootFrame?, enums.find? root.name = enums'.find? root.name)
    (entity : Entity) : entity.readFrom enums table.root = entity.readFrom enums' table.root := by
  unfold readFrom
  cases hdefinition : table.root.arg? 1 with
  | none => rfl
  | some definition =>
      have hcolumns : Columns.ofExpr enums definition = Columns.ofExpr enums' definition := by
        unfold Columns.ofExpr
        cases hentries : (Columns.definitionBody definition).entries? with
        | none => rfl
        | some entries =>
            dsimp only
            congr 1
            apply List.map_congr_left
            intro entry hmem
            rw [Column.ofExpr_eq_of_rootFrame? (hsame entry _)]
            simpa [TableDeclaration.columnEntries, hdefinition, hentries] using hmem
      dsimp only
      rw [hcolumns]

/-! ## What relations depend on -/

/-- A relation depends on the entities of its owner and of its target alone. -/
theorem Relation.ofExpr?_congr_of_target {catalog other : Catalog} {owner localName : String}
    {expr : Expr} (howner : other.entityFor? owner = catalog.entityFor? owner)
    (htarget : ∀ relation, Relation.ofExpr? catalog owner localName expr = some relation →
      other.entityFor? relation.toBinding = catalog.entityFor? relation.toBinding) :
    Relation.ofExpr? other owner localName expr =
      Relation.ofExpr? catalog owner localName expr := by
  unfold Relation.ofExpr? Relation.ofTables?
  simp only [bind, pure]
  rw [howner]
  refine Option.bind_congr fun entity hentity => Option.bind_congr fun root hroot =>
    Option.bind_congr fun toBinding htoBinding => ?_
  obtain ⟨relation, hread, rfl⟩ : ∃ relation,
      Relation.ofExpr? catalog owner localName expr = some relation ∧
        relation.toBinding = toBinding := by
    simp only [Relation.ofExpr?, Relation.ofTables?, bind, pure, hentity, hroot, htoBinding,
      Option.bind_some]
    exact ⟨_, rfl, rfl⟩
  rw [htarget relation hread]

theorem Declaration.relationsOwner?_eq_some {declaration : Declaration} {root : Frame}
    {owner : String} (hroot : declaration.init.rootFrame? = some root)
    (hname : root.name = "relations")
    (howner : (root.arg? 0).bind Expr.name? = some owner) :
    declaration.relationsOwner? = some owner := by
  simp only [Declaration.relationsOwner?, hroot, Option.filter_some, hname, decide_true, if_true,
    Option.bind_some, howner]

namespace Catalog

theorem relationsOf_congr_of_targets {catalog other : Catalog} {declaration : Declaration}
    (howner : ∀ owner ∈ declaration.relationsOwner?,
      other.entityFor? owner = catalog.entityFor? owner)
    (htarget : ∀ relation ∈ catalog.relationsOf declaration,
      other.entityFor? relation.toBinding = catalog.entityFor? relation.toBinding) :
    other.relationsOf declaration = catalog.relationsOf declaration := by
  unfold relationsOf
  simp only [bind, pure]
  congr 1
  -- Step by step both read the same; only the owner and the targets are looked up in the catalog.
  refine Option.bind_congr fun root hroot => Option.bind_congr fun _ hguard =>
    Option.bind_congr fun owner hbinding => ?_
  have hname : root.name = "relations" := by
    by_contra hother
    rw [guard, if_neg hother] at hguard
    cases hguard
  have hsame := howner owner (Declaration.relationsOwner?_eq_some hroot hname hbinding)
  rw [hsame]
  refine Option.bind_congr fun _ _ => Option.bind_congr fun (params, body) hbody =>
    Option.bind_congr fun entries hentries => ?_
  congr 1
  apply List.filterMap_congr
  rintro ⟨localName, value⟩ hentry
  apply Relation.ofExpr?_congr_of_target hsame
  intro relation hread
  exact htarget relation (mem_relationsOf_iff.mpr ⟨owner, localName, value,
    ⟨root, params, body, entries, hroot, hname, hbinding, hbody, hentries, hentry⟩, hread⟩)

/-- A relation that a declaration declares starts from the entity that it is declared for. -/
theorem exists_owner_of_mem_relationsOf {catalog : Catalog} {declaration : Declaration}
    {relation : Relation} (hmem : relation ∈ catalog.relationsOf declaration) :
    ∃ entity ∈ catalog.entities, declaration.relationsOwner? = some entity.binding ∧
      entity.binding = relation.fromBinding ∧ entity.name = relation.fromEntity := by
  obtain ⟨binding, localName, value, ⟨root, _, _, _, hroot, hname, hbinding, _⟩, hread⟩ :=
    mem_relationsOf_iff.mp hmem
  simp only [Relation.ofExpr?, Relation.ofTables?, bind, pure, Option.bind_eq_some_iff,
    Option.some.injEq] at hread
  obtain ⟨owner, howner, _, _, _, _, rfl⟩ := hread
  obtain ⟨hentity, rfl⟩ := entityFor?_eq_some howner
  exact ⟨owner, hentity, Declaration.relationsOwner?_eq_some hroot hname hbinding, rfl, rfl⟩

end Catalog

end EntityModel
