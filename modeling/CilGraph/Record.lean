import CilGraph.Node
import CilGraph.Ordered

namespace CilGraph

/-!
# Records

What a compilation leaves behind: the fields of every type that was touched,
the lowered methods, and the external symbols.  Records are kept in the
order in which they were made, and each name is recorded once.  The sets of
names and the map of symbols are lists in ascending order, so two collections
of records are equal exactly when they hold the same.
-/

/-- The instance fields or the static fields of a type. -/
structure TypeRecord where
  name : String
  isStatic : Bool
  /-- The type name and the name of each field, in declaration order. -/
  fields : List (String × String)
deriving DecidableEq, Repr

/-- A lowered method or constructor. -/
structure MethodRecord where
  name : String
  isStatic : Bool
  isConstructor : Bool
  initLocals : Bool
  maxStack : UInt32
  strings : List String
  nodes : List Node
deriving DecidableEq, Repr

/-- Everything that a compilation recorded. -/
structure Records where
  types : List TypeRecord := []
  methods : List MethodRecord := []
  typeNames : List String := []
  methodNames : List String := []
  /-- The external symbol of each native method, by mangled name. -/
  natives : List (String × String) := []
deriving DecidableEq, Repr

namespace Records

/-- Add a type record unless its name is taken.  Tells whether it was added. -/
def addType (records : Records) (record : TypeRecord) : Bool × Records :=
  if records.typeNames.contains record.name then (false, records)
  else (true, { records with
    types := records.types ++ [record]
    typeNames := Ordered.insertName record.name records.typeNames })

/-- Add a method record unless its name is taken.  Tells whether it was added. -/
def addMethod (records : Records) (record : MethodRecord) : Bool × Records :=
  if records.methodNames.contains record.name then (false, records)
  else (true, { records with
    methods := records.methods ++ [record]
    methodNames := Ordered.insertName record.name records.methodNames })

/-- Bind a name to a symbol, in place of an earlier binding. -/
def bindNative (records : Records) (name symbol : String) : Records :=
  { records with natives := Ordered.insertEntry name symbol records.natives }

/-- The symbol of a native method. -/
def native? (records : Records) (name : String) : Option String :=
  records.natives.lookup name

/-- The first type record of a name. -/
def typeRecord? (records : Records) (name : String) : Option TypeRecord :=
  records.types.find? (fun record => record.name == name)

/-- The first method record of a name. -/
def method? (records : Records) (name : String) : Option MethodRecord :=
  records.methods.find? (fun record => record.name == name)

end Records
end CilGraph
