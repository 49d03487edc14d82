import EntityModel.Column.Reading
import EntityModel.Entity

/-!
# The catalog of entities

All that is known of the declarations of a project: its entities in the order in which their
tables were first declared, its enumerations, and the relations that wait for their other sides.
No two entities share a name or a table variable. Entities are searched here; a conversion finds
them through the index of its context, which comes to the same.
-/

namespace EntityModel

/-- What is known of the declarations of a project. -/
structure Catalog where
  entities : List Entity
  enums : Enumerations
  /-- The table variables whose columns were read. -/
  populated : List String
  /-- The relations that wait to be paired. -/
  stubs : List Relation

namespace Catalog

def empty : Catalog := ⟨[], OrderedMap.empty, [], []⟩

def entityFor? (catalog : Catalog) (binding : String) : Option Entity :=
  catalog.entities.find? (·.binding = binding)

/-- The entities whose tables a file declares. -/
def entitiesIn (catalog : Catalog) (fileName : String) : List Entity :=
  catalog.entities.filter (·.fileName = fileName)

/-- Changes the entity of a table variable, if there is one. -/
def modify (catalog : Catalog) (binding : String) (change : Entity → Entity) : Catalog :=
  { catalog with
    entities := catalog.entities.map fun entity =>
      if entity.binding = binding then change entity else entity }

/-- Whether an entity of another variable has a name. -/
def isTaken (catalog : Catalog) (binding name : String) : Bool :=
  catalog.entities.any fun entity => entity.binding ≠ binding && entity.name = name

/-- A name that no entity of another variable has: the wanted one, or else the wanted one with the
least number from two on that makes it free. As there are more candidates than entities, one of
them is free. -/
def freeName (catalog : Catalog) (binding wanted : String) : String :=
  if catalog.isTaken binding wanted then
    let candidates := (List.range' 2 (catalog.entities.length + 1)).map fun number =>
      wanted ++ Nat.repr number
    (candidates.find? fun candidate => !catalog.isTaken binding candidate).getD wanted
  else wanted

/-- Notes the declaration of a table. A variable that is declared again keeps its place and its
columns, and takes the names and the file of the last declaration. -/
def registerTable (catalog : Catalog) (binding wanted tableName fileName : String) : Catalog :=
  let name := catalog.freeName binding wanted
  if (catalog.entityFor? binding).isSome then
    catalog.modify binding fun entity =>
      { entity with name := name, tableName := tableName, fileName := fileName }
  else
    { catalog with
      entities := catalog.entities ++ [Entity.bare name tableName binding fileName] }

def registerEnum (catalog : Catalog) (binding : String) (values : List String) : Catalog :=
  { catalog with enums := catalog.enums.insert binding values }

/-- Notes that the columns of a table variable are read; the answer is whether they were not read
before. -/
def markPopulated (catalog : Catalog) (binding : String) : Bool × Catalog :=
  if catalog.populated.contains binding then (false, catalog)
  else (true, { catalog with populated := binding :: catalog.populated })

def addStubs (catalog : Catalog) (stubs : List Relation) : Catalog :=
  { catalog with stubs := catalog.stubs ++ stubs }

end Catalog

end EntityModel
