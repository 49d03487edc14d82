import EntityModel.Catalog.Basic

/-!
# The context of a conversion

A conversion works on the entities of a catalog through an index: the position of each of them by
its table variable. Entities are only ever added at the end, so positions stay.
-/

namespace EntityModel

/-- What is known of the declarations of a project so far. -/
structure Context where
  /-- The entities, in the order in which their tables were first declared. -/
  entities : List Entity
  /-- The position of the entity of each table variable. -/
  positions : OrderedMap Nat
  enums : Enumerations
  /-- The table variables whose columns were read. -/
  populated : List String
  /-- The relations that wait to be paired. -/
  stubs : List Relation

namespace Context

def empty : Context := ⟨[], OrderedMap.empty, OrderedMap.empty, [], []⟩

/-- The context without its index. -/
def catalog (context : Context) : Catalog :=
  ⟨context.entities, context.enums, context.populated, context.stubs⟩

@[simp]
theorem entities_catalog (context : Context) : context.catalog.entities = context.entities := rfl

/-- The entity of a table variable: the one at its position. -/
def entityFor? (context : Context) (binding : String) : Option Entity :=
  (context.positions.find? binding).bind fun position => context.entities[position]?

def entityNamed? (context : Context) (name : String) : Option Entity :=
  context.entities.find? (·.name = name)

/-- Changes the entity at the position of a table variable, if there is one. -/
def modify (context : Context) (binding : String) (change : Entity → Entity) : Context :=
  match context.positions.find? binding with
  | some position => { context with entities := context.entities.modify position change }
  | none => context

/-- Whether an entity has a name, other than the one at a position that is passed over. -/
def isTaken (context : Context) (skipped : Option Nat) (name : String) : Bool :=
  context.entities.zipIdx.any fun (entity, position) =>
    some position ≠ skipped && entity.name = name

/-- A name that no entity has, other than the one at a position that is passed over: the wanted
one, or else the wanted one with the least number from two on that makes it free. As there are more
candidates than entities, one of them is free. -/
def freeName (context : Context) (skipped : Option Nat) (wanted : String) : String :=
  if context.isTaken skipped wanted then
    let candidates := (List.range' 2 (context.entities.length + 1)).map fun number =>
      wanted ++ Nat.repr number
    (candidates.find? fun candidate => !context.isTaken skipped candidate).getD wanted
  else wanted

/-- Notes the declaration of a table. A variable that is declared again keeps its position and its
columns, and takes the names and the file of the last declaration. -/
def registerTable (context : Context) (binding wanted tableName fileName : String) : Context :=
  let existing := context.positions.find? binding
  let name := context.freeName existing wanted
  match existing with
  | some position =>
    { context with
      entities := context.entities.modify position fun entity =>
        { entity with name := name, tableName := tableName, fileName := fileName } }
  | none =>
    { context with
      entities := context.entities ++ [Entity.bare name tableName binding fileName]
      positions := context.positions.insert binding context.entities.length }

def registerEnum (context : Context) (binding : String) (values : List String) : Context :=
  { context with enums := context.enums.insert binding values }

/-- Notes that the columns of a table variable are read; the answer is whether they were not read
before. -/
def markPopulated (context : Context) (binding : String) : Bool × Context :=
  if context.populated.contains binding then (false, context)
  else (true, { context with populated := binding :: context.populated })

def addStubs (context : Context) (stubs : List Relation) : Context :=
  { context with stubs := context.stubs ++ stubs }

end Context

end EntityModel
