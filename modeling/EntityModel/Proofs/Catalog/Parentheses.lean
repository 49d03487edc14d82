import EntityModel.Catalog.Relations
import EntityModel.Proofs.Expr.Parentheses

/-!
# Parentheses never change a catalog

Columns, constraints, tables and relations are read alike from declarations and from the same ones
without any parentheses, and so is the whole catalog of a project (`ofModules_strip`).
-/

namespace EntityModel

open EntityModel.Expr

namespace Expr

theorem enumMember?_strip (expr : Expr) : expr.strip.enumMember? = expr.enumMember? := by
  simp only [enumMember?, reads_strip]

/-- What is read of the items of a list is read alike of the stripped items. -/
theorem filterMap_strip {α : Type} {read : Expr → Option α}
    (hread : ∀ expr, read expr.strip = read expr) (items : List Expr) :
    (items.map strip).filterMap read = items.filterMap read := by
  rw [List.filterMap_map, show read ∘ strip = read from funext hread]

theorem size?_strip (expr : Expr) : expr.strip.size? = expr.size? := by
  rw [size?, (reads_strip expr).2.1, size?]

/-- An expression that may be missing is read like the stripped one. -/
theorem bind_strip (expr : Option Expr) : (expr.map strip).bind string? = expr.bind string? ∧
    (expr.map strip).bind size? = expr.bind size? ∧
    (expr.map strip).bind boolean? = expr.bind boolean? ∧
    (expr.map strip).bind name? = expr.bind name? ∧
    (expr.map strip).bind property? = expr.bind property? ∧
    (expr.map strip).bind root? = expr.bind root? ∧
    (expr.map strip).bind items? = (expr.bind items?).map (List.map strip) ∧
    (expr.map strip).bind function? = (expr.bind function?).map (Prod.map id strip) ∧
    ∀ key, (expr.map strip).bind (·.get? key) = (expr.bind (·.get? key)).map strip := by
  cases expr <;> simp [size?_strip]

end Expr

theorem DefaultValue.ofArgument_strip (argument : Option Expr) :
    ofArgument (argument.map strip) = ofArgument argument := by
  cases argument with
  | none => rfl
  | some argument =>
      simp only [Option.map_some, ofArgument, unparen_strip]
      induction argument using unparen.induct with
      | case1 inner ih => simpa [strip] using ih
      | case2 argument hbare => cases argument <;> simp_all [strip, unparen]

/-! ## Columns -/

namespace Column

theorem withOptions_strip (column : Column) (options : Expr) :
    column.withOptions options.strip = column.withOptions options := by
  unfold withOptions
  simp -zeta only [get?_strip, bind_strip]
  cases (options.get? "enum").bind items? with
  | none => rfl
  | some items =>
      rw [Option.map_some]
      dsimp -zeta only
      rw [filterMap_strip enumMember?_strip]

theorem options?_strip (builder : Frame) :
    options? builder.strip = (options? builder).map strip := by
  have hgiven : [(builder.arg? 0).map strip, (builder.arg? 1).map strip].filterMap id =
      ([builder.arg? 0, builder.arg? 1].filterMap id).map strip := by
    cases builder.arg? 0 <;> cases builder.arg? 1 <;> rfl
  simp only [options?, Frame.arg?_strip, hgiven, List.find?_map, Function.comp_def, takes_strip,
    Option.isSome_map]

theorem ofBuilder_strip (enums : Enumerations) (property : String) (builder : Frame) :
    ofBuilder enums property builder.strip = ofBuilder enums property builder := by
  unfold ofBuilder
  rw [options?_strip, Frame.arg?_strip, Frame.name_strip, (bind_strip _).1]
  cases options? builder with
  | none => rfl
  | some options => exact withOptions_strip _ _

theorem withReference_strip (column : Column) (reference : Frame) :
    column.withReference reference.strip = column.withReference reference := by
  simp only [withReference, Frame.arg?_strip, bind_strip]
  cases reference.arg? 0 with
  | none => rfl
  | some argument =>
      -- A function stands for the value that it returns.
      simp only [Option.map_some, takes_strip]
      cases argument.function? with
      | none => simp only [Option.map_none, Option.bind_some, root?_strip]
      | some function => simp only [Option.map_some, Option.bind_some, Prod.map, root?_strip]

theorem modifiedBy_strip (property : String) (column : Column) (modifier : Frame) :
    column.modifiedBy property modifier.strip = column.modifiedBy property modifier := by
  simp only [modifiedBy, Frame.name_strip, Frame.arg?_strip, DefaultValue.ofArgument_strip,
    withReference_strip]

theorem ofExpr_strip (enums : Enumerations) (property : String) (expr : Expr) :
    ofExpr enums property expr.strip = ofExpr enums property expr := by
  simp only [ofExpr, frames_strip, List.getLast?_map]
  cases expr.frames.getLast? with
  | none => rfl
  | some builder =>
      simp only [Option.map_some, ofBuilder_strip, ← List.map_dropLast, ← List.map_reverse,
        List.foldl_map, modifiedBy_strip]

end Column

namespace Columns

theorem definitionBody_strip (definition : Expr) :
    definitionBody definition.strip = (definitionBody definition).strip := by
  unfold definitionBody
  rw [definition.takes_strip.2.2, unparen_strip]
  cases definition.function? with
  | none => rw [strip_unparen]; rfl
  | some function => rfl

theorem ofExpr_strip (enums : Enumerations) (definition : Expr) :
    ofExpr enums definition.strip = ofExpr enums definition := by
  unfold ofExpr
  rw [definitionBody_strip, (takes_strip _).2.1]
  cases (definitionBody definition).entries? with
  | none => rfl
  | some entries =>
      simp only [Option.map_some, List.map_map, Function.comp_def, Prod.map, id,
        Column.ofExpr_strip]

end Columns

/-! ## Constraints -/

theorem Expr.indexColumn?_strip (argument : Expr) :
    argument.strip.indexColumn? = argument.indexColumn? := by
  simp only [indexColumn?, receiver_strip, reads_strip]
  -- A receiver that is neither a property nor a text keeps its form, as it is not in parentheses.
  have hbare := argument.receiver_ne_paren
  generalize argument.receiver = receiver at hbare ⊢
  cases receiver.property?.or receiver.string? with
  | some name => rfl
  | none => cases receiver <;> simp_all [strip]

theorem Expr.constraints_strip (extras : Expr) :
    extras.strip.constraints = extras.constraints.map (Prod.map id strip) := by
  simp only [constraints, Columns.definitionBody_strip, takes_strip]
  cases (Columns.definitionBody extras).entries? with
  | some entries => simp [Function.comp_def]
  | none => cases (Columns.definitionBody extras).items? <;> simp [Function.comp_def]

theorem Frame.keyProperties_strip (root : Frame) :
    root.strip.keyProperties = root.keyProperties := by
  have hproperties := filterMap_strip fun expr : Expr => expr.reads_strip.2.2.2.2
  simp only [keyProperties, Frame.arg?_strip, bind_strip]
  cases (root.arg? 0).bind (·.get? "columns") with
  | none => exact hproperties root.args
  | some list =>
      simp only [Option.map_some, takes_strip]
      cases list.items? with
      | none => rfl
      | some items => exact hproperties items

theorem Index.ofFrames_strip (tableName : String) (key : Option String) (frames : List Frame)
    (root : Frame) :
    ofFrames tableName key (frames.map Frame.strip) root.strip =
      ofFrames tableName key frames root := by
  have hcolumns : (((frames.map Frame.strip).reverse.filter (·.name = "on")).flatMap
      (·.args)).filterMap indexColumn? =
        ((frames.reverse.filter (·.name = "on")).flatMap (·.args)).filterMap indexColumn? := by
    rw [← List.map_reverse, List.filter_map, List.flatMap_map, List.filterMap_flatMap,
      List.filterMap_flatMap]
    simp only [Frame.args_strip, filterMap_strip indexColumn?_strip]
    rfl
  unfold ofFrames
  rw [hcolumns, Frame.arg?_strip, (bind_strip _).1]
  rfl

namespace Entity

theorem withConstraint_strip (entity : Entity) (constraint : Option String × Expr) :
    entity.withConstraint (Prod.map id strip constraint) = entity.withConstraint constraint := by
  obtain ⟨key, value⟩ := constraint
  simp only [withConstraint, Prod.map, id, frames_strip, List.getLast?_map]
  cases value.frames.getLast? with
  | none => rfl
  | some root =>
      simp only [Option.map_some, Frame.keyProperties_strip, Index.ofFrames_strip]
      rfl

theorem withExtras_strip (entity : Entity) (extras : Expr) :
    entity.withExtras extras.strip = entity.withExtras extras := by
  rw [withExtras, constraints_strip, List.foldl_map]
  simp only [withConstraint_strip]
  rfl

end Entity

/-! ## Relations -/

namespace Relation

theorem fields?_strip (options : Option Expr) :
    fields? (options.map strip) = (fields? options).map (List.map strip) := by
  simp only [fields?, bind_strip]
  cases (options.bind (·.get? "fields")).bind items? with
  | none => rfl
  | some fields => cases fields <;> rfl

theorem keyColumn?_strip (owner : Entity) (target : Option Entity) (fields : Option (List Expr)) :
    keyColumn? owner target (fields.map (List.map strip)) = keyColumn? owner target fields := by
  have hfirst : (fields.map (List.map strip)).bind List.head? =
      (fields.bind List.head?).map strip := by
    cases fields with
    | none => rfl
    | some fields => cases fields <;> rfl
  simp only [keyColumn?, hfirst, bind_strip]

theorem ofExpr?_strip (catalog : Catalog) (binding localName : String) (expr : Expr) :
    ofExpr? catalog binding localName expr.strip = ofExpr? catalog binding localName expr := by
  unfold ofExpr? ofTables?
  rw [rootFrame?_strip]
  cases expr.rootFrame? with
  | none => rfl
  | some root =>
      simp only [Option.map_some, bind, Option.bind_some, Frame.arg?_strip, Frame.name_strip,
        bind_strip, fields?_strip, keyColumn?_strip, Option.isSome_map]

end Relation

/-! ## Declarations -/

def Declaration.strip (declaration : Declaration) : Declaration :=
  ⟨declaration.name, declaration.init.strip⟩

/-- A module with the parentheses in its declarations removed. -/
def Module.strip (module : Module) : Module :=
  ⟨module.fileName, module.declarations.map Declaration.strip⟩

theorem Module.declarationsOf_strip (modules : List Module) :
    declarationsOf (modules.map Module.strip) =
      (declarationsOf modules).map (Prod.map id Declaration.strip) := by
  simp [declarationsOf, Module.strip, List.flatMap_map, List.map_flatMap, Function.comp_def]

theorem Module.declarations_strip (modules : List Module) :
    (modules.map Module.strip).flatMap (·.declarations) =
      (modules.flatMap (·.declarations)).map Declaration.strip := by
  simp [Module.strip, List.flatMap_map, List.map_flatMap]

namespace Catalog

variable (catalog : Catalog)

theorem registerDeclaration_strip (builders : Builders) (declaration : String × Declaration) :
    catalog.registerDeclaration builders (Prod.map id Declaration.strip declaration) =
      catalog.registerDeclaration builders declaration := by
  obtain ⟨fileName, declaration⟩ := declaration
  simp only [registerDeclaration, Prod.map, id, Declaration.strip, rootFrame?_strip]
  cases declaration.init.rootFrame? with
  | none => rfl
  | some root =>
      simp only [Option.map_some, Frame.arg?_strip, entityName, bind_strip]
      cases (root.arg? 1).bind items? with
      | none => rfl
      | some members =>
          simp only [Option.map_some, Option.getD_some, filterMap_strip enumMember?_strip]
          rfl

theorem readTable_strip (binding : String) (root : Frame) :
    catalog.readTable binding root.strip = catalog.readTable binding root := by
  simp only [readTable, Frame.arg?_strip]
  cases root.arg? 1 <;> cases root.arg? 2 <;>
    simp only [Option.map_none, Option.map_some, Columns.ofExpr_strip, Entity.withExtras_strip]

theorem tableDeclaration_strip (builders : Builders) (declaration : Declaration) :
    catalog.tableDeclaration builders declaration.strip =
      catalog.tableDeclaration builders declaration := by
  simp only [tableDeclaration, Declaration.strip, rootFrame?_strip]
  cases declaration.init.rootFrame? with
  | none => rfl
  | some root =>
      simp only [Option.map_some, readTable_strip]
      rfl

theorem relationsOf_strip (declaration : Declaration) :
    catalog.relationsOf declaration.strip = catalog.relationsOf declaration := by
  unfold relationsOf guard
  simp only [Declaration.strip, rootFrame?_strip]
  cases declaration.init.rootFrame? with
  | none => rfl
  | some root =>
      simp only [Option.map_some, bind, Option.bind_some, Frame.arg?_strip, Frame.name_strip,
        bind_strip]
      cases (root.arg? 1).bind function? with
      | none => rfl
      | some function =>
          simp only [Option.map_some, Option.bind_some, Prod.map, takes_strip]
          cases function.2.entries? with
          | none => rfl
          | some entries =>
              simp only [Option.map_some, Option.bind_some, List.filterMap_map, Function.comp_def,
                Prod.map, id, Relation.ofExpr?_strip]
              rfl

/-- Parentheses never change the catalog of a project. -/
theorem ofModules_strip (builders : Builders) (modules : List Module) :
    ofModules builders (modules.map Module.strip) = ofModules builders modules := by
  have hregister : empty.register builders (modules.map Module.strip) =
      empty.register builders modules := by
    simp only [register, Module.declarationsOf_strip, List.foldl_map, registerDeclaration_strip]
  have hreadTables : ∀ catalog : Catalog, catalog.readTables builders (modules.map Module.strip) =
      catalog.readTables builders modules := by
    intro catalog
    simp only [readTables, Module.declarations_strip, List.foldl_map, tableDeclaration_strip]
  have hreadRelations : ∀ catalog : Catalog, catalog.readRelations (modules.map Module.strip) =
      catalog.readRelations modules := by
    intro catalog
    rw [readRelations, Module.declarations_strip, List.flatMap_map]
    simp only [relationsOf_strip]
    rfl
  rw [ofModules, hregister, hreadTables, hreadRelations, ofModules]

end Catalog

end EntityModel
