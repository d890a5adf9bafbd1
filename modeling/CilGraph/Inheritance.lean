import CilGraph.Program

namespace CilGraph
namespace Program

/-!
# Inheritance

Questions about a type together with its base types and interfaces.

A virtual method that does not start a slot of its own takes over the slot of
the nearest virtual method with its signature among the base types.  Following
this to the end leads to the method that first declared the slot, which is the
root declaration.  The methods that are visible on a type are collected from
the most derived type upwards, and a method hides every later one with its
signature.  The interfaces of a type are those that it, its base types and
their interfaces name, each once and in the order of discovery.
-/

/-- The nearest virtual method with the signature of `method` on a proper base
type of its declaring type. -/
def overridden? (program : Program) (method : MethodDef) : Result (Option MethodDef) := do
  let lineage ← program.lineage method.declaring
  lineage.tail.findSomeM? (fun level => do
    let declared ← program.declaredMethods level
    .ok (declared.find? (fun candidate =>
      candidate.isVirtual && candidate.sameSignature method)))

/-- Follow overrides upwards for at most `fuel` steps. -/
def rootDeclarationWith (program : Program) : Nat -> MethodDef -> Result MethodDef
  | 0, method => .ok method
  | fuel + 1, method =>
    if !method.isVirtual || method.startsSlot then .ok method
    else do
      match ← program.overridden? method with
      | some next => program.rootDeclarationWith fuel next
      | none => .ok method

/-- The method that first declared the slot of a method.  Each override stands
on a proper base type of the one before, so there are no more of them than
types. -/
def rootDeclaration (program : Program) (method : MethodDef) : Result MethodDef :=
  program.rootDeclarationWith program.types.length method

/-- Add the methods whose signature is not there yet. -/
def addVisible (visible methods : List MethodDef) : List MethodDef :=
  methods.foldl (fun visible method =>
    if visible.any (fun seen => seen.sameSignature method) then visible
    else visible ++ [method]) visible

/-- The instance methods that a level of a lineage contributes.  Private methods
are seen on their own level only. -/
def contributed (program : Program) (own : Bool) (level : TypeDef) : Result (List MethodDef) := do
  let declared ← program.declaredMethods level
  .ok (declared.filter (fun method => !method.isStatic && (own || !method.isPrivate)))

/-- The instance methods that are visible on a type. -/
def instanceMethods (program : Program) (token : Token) : Result (List MethodDef) := do
  match ← program.lineage token with
  | [] => .ok []
  | own :: ancestors =>
    let declared ← program.contributed true own
    let inherited ← ancestors.mapM (program.contributed false)
    .ok (inherited.foldl addVisible (addVisible [] declared))

/-- The number of times that a type of the program names an interface. -/
def interfaceCount (program : Program) : Nat :=
  (program.types.flatMap TypeDef.interfaces).length

/-- Collect interfaces depth first.  Every interface is expanded once, so the
interfaces to visit are at most those pending and those that types name. -/
def collectInterfacesWith (program : Program) :
    Nat -> List Token -> List Token -> Result (List Token)
  | 0, _, found => .ok found
  | _ + 1, [], found => .ok found
  | fuel + 1, interface :: pending, found =>
    if found.contains interface then program.collectInterfacesWith fuel pending found
    else do
      let type ← program.typeDef interface
      program.collectInterfacesWith fuel (type.interfaces ++ pending) (found ++ [interface])

/-- Add the interfaces of one level of a lineage. -/
def collectInterfaces (program : Program) (found : List Token) (level : TypeDef) :
    Result (List Token) :=
  program.collectInterfacesWith (level.interfaces.length + program.interfaceCount + 1)
    level.interfaces found

/-- Every interface of a type, its own before those of its base types. -/
def interfaces (program : Program) (token : Token) : Result (List Token) := do
  let lineage ← program.lineage token
  lineage.foldlM program.collectInterfaces []

/-- The method of a type that implements a method of an interface. -/
def implementation (type interface : TypeDef) (candidates : List MethodDef) (slot : MethodDef) :
    Result (MethodDef × MethodDef) :=
  match candidates.find? (fun candidate => candidate.sameSignature slot) with
  | some target => .ok (slot, target)
  | none =>
    .error (.unresolvedOverride type.fullName (interface.fullName ++ "." ++ slot.name))

/-- Pair each instance method of an interface with the method of a type that
implements it.  Implementations are matched by signature. -/
def interfaceMap (program : Program) (type : TypeDef) (interface : Token) :
    Result (List (MethodDef × MethodDef)) := do
  let interface ← program.typeDef interface
  let candidates ← program.instanceMethods type.token
  let declared ← program.declaredMethods interface
  (declared.filter (fun slot => !slot.isStatic)).mapM (implementation type interface candidates)

end Program
end CilGraph
