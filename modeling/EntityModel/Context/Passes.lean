import EntityModel.Catalog.Relations
import EntityModel.Context.Basic

/-!
# The passes of a conversion

A conversion goes over the declarations of all files three times, for tables and enumerations, for
columns, and for relations; then it resolves the relations.
-/

namespace EntityModel.Context

/-- Registers what a declaration declares, if it is a table or an enumeration. -/
def registerDeclaration (builders : Builders) (context : Context) :
    String × Declaration → Context
  | (fileName, declaration) =>
    match declaration.init.rootFrame? with
    | none => context
    | some root =>
      if builders.tables.contains root.name then
        let first := root.arg? 0
        context.registerTable declaration.name (entityName declaration.name first)
          ((first.bind Expr.string?).getD declaration.name) fileName
      else if builders.enums.contains root.name then
        let members := ((root.arg? 1).bind Expr.items?).getD []
        context.registerEnum declaration.name (members.filterMap Expr.enumMember?)
      else context

def register (builders : Builders) (modules : List Module) (context : Context) : Context :=
  (Module.declarationsOf modules).foldl (registerDeclaration builders) context

/-- Reads the columns and constraints of a table from the call that declares it. -/
def readTable (context : Context) (binding : String) (root : Frame) : Context :=
  let columns :=
    match root.arg? 1 with
    | some definition => Columns.ofExpr context.enums definition
    | none => OrderedMap.empty
  context.modify binding fun entity =>
    let filled := { entity with columns := columns }
    match root.arg? 2 with
    | some extras => filled.withExtras extras
    | none => filled

/-- Reads what a declaration says about its table, if it is the first of its variable. -/
def tableDeclaration (builders : Builders) (context : Context) (declaration : Declaration) :
    Context :=
  match declaration.init.rootFrame? with
  | none => context
  | some root =>
    if builders.tables.contains root.name then
      match context.markPopulated declaration.name with
      | (true, marked) => marked.readTable declaration.name root
      | (false, _) => context
    else context

def readTables (builders : Builders) (modules : List Module) (context : Context) : Context :=
  (modules.flatMap (·.declarations)).foldl (tableDeclaration builders) context

/-- The relations that a declaration declares: those of the object that its callback returns. -/
def relationsOf (context : Context) (declaration : Declaration) : List Relation :=
  (do
    let root ← declaration.init.rootFrame?
    guard (root.name = "relations")
    let owner ← (root.arg? 0).bind Expr.name?
    let _ ← context.entityFor? owner
    let (_, body) ← (root.arg? 1).bind Expr.function?
    let entries ← body.entries?
    return entries.filterMap fun (localName, value) =>
      Relation.ofTables? context.entityFor? owner localName value).getD []

def readRelations (modules : List Module) (context : Context) : Context :=
  context.addStubs ((modules.flatMap (·.declarations)).flatMap context.relationsOf)

/-- Gives a relation to the entity that it starts from. -/
def attach (context : Context) (relation : Relation) : Context :=
  context.modify relation.fromBinding (·.addRelation relation)

/-- Pairs the waiting relations and gives them to their entities. -/
def resolve (context : Context) : Context :=
  (Relation.pairAll context.stubs).foldl attach { context with stubs := [] }

def ofModules (builders : Builders) (modules : List Module) : Context :=
  (((empty.register builders modules).readTables builders modules).readRelations modules).resolve

end EntityModel.Context
