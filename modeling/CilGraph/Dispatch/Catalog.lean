import CilGraph.Linkage
import CilGraph.MangledName
import CilGraph.Record

namespace CilGraph
namespace Dispatch

/-!
# Field catalogue

For each type the records of its instance fields and of its static fields.  The
records carry the name of the declared type and the fields of the type that is
used in its place.  A type is entered together with its base types.
-/

/-- The two records of a type. -/
structure FieldRecords where
  instanceFields : TypeRecord
  staticFields : TypeRecord
deriving DecidableEq, Repr

/-- One of the two records. -/
def FieldRecords.select (records : FieldRecords) (isStatic : Bool) : TypeRecord :=
  if isStatic then records.staticFields else records.instanceFields

/-- The records of types, the latest entry first. -/
structure Catalog where
  entries : List (Token × FieldRecords) := []
deriving DecidableEq, Repr

namespace Catalog

def get? (catalog : Catalog) (type : Token) : Option FieldRecords :=
  catalog.entries.lookup type

def contains (catalog : Catalog) (type : Token) : Bool :=
  (catalog.get? type).isSome

/-- The type name and the name of a field. -/
def describeField (program : Program) (field : FieldDef) : Result (String × String) := do
  let type ← program.typeName field.fieldType
  .ok (type, field.name)

/-- The fields of one kind, in declaration order. -/
def describeFields (program : Program) (isStatic : Bool) (fields : List FieldDef) :
    Result (List (String × String)) :=
  (fields.filter (fun field => field.isStatic == isStatic)).mapM (describeField program)

/-- The records of a type. -/
def recordsOf (linkage : Linkage) (type : TypeDef) : Result FieldRecords := do
  let program := linkage.program
  let resolved ← program.typeDef (linkage.resolveType type.token)
  let fields ← program.declaredFields resolved
  let instanceFields ← describeFields program false fields
  let staticFields ← describeFields program true fields
  .ok ⟨⟨type.recordName false, false, instanceFields⟩, ⟨type.recordName true, true, staticFields⟩⟩

/-- Enter the types of a lineage up to the first one that is there. -/
def addEach (linkage : Linkage) (catalog : Catalog) : List TypeDef -> Result Catalog
  | [] => .ok catalog
  | type :: ancestors =>
    if catalog.contains type.token then .ok catalog
    else do
      let records ← recordsOf linkage type
      addEach linkage ⟨(type.token, records) :: catalog.entries⟩ ancestors

/-- Enter a type and its base types. -/
def add (linkage : Linkage) (type : Token) (catalog : Catalog) : Result Catalog := do
  if catalog.contains type then .ok catalog
  else
    let lineage ← linkage.program.lineage type
    addEach linkage catalog lineage

end Catalog
end Dispatch
end CilGraph
