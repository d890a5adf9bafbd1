import CilGraph.Dispatch.Registry
import CilGraph.Lowering

namespace CilGraph
namespace Compilation

/-!
# Sessions

A session follows a program from what has been asked for to everything that it
needs.  Callables wait in a queue until they are lowered, and lowering
one discovers others.  Types are taken in with their layout, their base type,
their interfaces and the types of their fields; of a type that is only used
through static members the static fields are taken in and nothing else.

Every name belongs to the definition that claimed it first.  A second
definition with the same mangled name ends the session with an error, because
its record would silently replace the first.
-/

/-- The state of a session. -/
structure Session where
  records : Records := {}
  registry : Dispatch.Registry := {}
  /-- Callables that are still to be lowered, the next first. -/
  pending : List Callable := []
  /-- The callable behind each mangled name. -/
  callables : List (String × Token) := []
  /-- The type behind each mangled name. -/
  typeOwners : List (String × Token) := []
  /-- Types that were taken in whole. -/
  wholeTypes : List Token := []
  /-- Types of which the static part was taken in. -/
  staticTypes : List Token := []
  /-- Types whose slots have been followed. -/
  dispatched : List Token := []

namespace Session

/-- A step of a session. -/
abbrev Step (Value : Type) : Type :=
  StateT Session (Except Error) Value

instance : MonadLift Result Step where
  monadLift := fun result session => result.map (fun value => (value, session))

/-- Act on the registry of a session. -/
def onRegistry {Value : Type} (action : Dispatch.Registry.Action Value) : Step Value :=
  fun session =>
    match action session.registry with
    | (.ok value, registry) => .ok (value, { session with registry := registry })
    | (.error error, _) => .error error

/-! ## Types -/

/-- Claim a mangled name in a list of owners, or report that it belongs to
another definition. -/
def claim (name : String) (token : Token) (owners : List (String × Token)) :
    Result (List (String × Token)) :=
  match owners.lookup name with
  | none => .ok ((name, token) :: owners)
  | some owner =>
    if owner = token then .ok owners else .error (.duplicateDefinition name)

/-- Claim the name of a type. -/
def claimType (linkage : Linkage) (type : Token) : Step Unit := do
  let name ← linkage.program.typeName type
  let session ← get
  let owners ← claim name type session.typeOwners
  set { session with typeOwners := owners }

/-- Record the static or the instance fields of a type. -/
def recordFields (type : Token) (isStatic : Bool) : Step Unit := do
  let session ← get
  match session.registry.catalog.get? type with
  | none => throw (.unknownToken type)
  | some fields =>
    let (_, records) := session.records.addType (fields.select isStatic)
    set { session with records := records }

/-- The types that the layout of a type leads to: its base type, its interfaces
and the types of its fields. -/
def neighbours (linkage : Linkage) (type : Token) : Result (List Token) := do
  let declared ← linkage.program.typeDef type
  let resolved ← linkage.program.typeDef (linkage.resolveType type)
  let fields ← linkage.program.declaredFields resolved
  .ok (declared.base.toList ++ resolved.interfaces ++ fields.map FieldDef.fieldType)

/-- Take in one type that was not known. -/
def takeIn (linkage : Linkage) (type : Token) : Step (List Token) := do
  modify (fun session => { session with wholeTypes := type :: session.wholeTypes })
  claimType linkage type
  onRegistry (Dispatch.Registry.add linkage type)
  recordFields type true
  recordFields type false
  neighbours linkage type

/-- Take in types and all that they lead to, depth first.  Every type is taken
in once, so the types to look at are bounded by the neighbours of all types. -/
def discoverWith (linkage : Linkage) : Nat -> List Token -> Step Unit
  | 0, _ => return ()
  | _ + 1, [] => return ()
  | fuel + 1, token :: rest => do
    let type ← linkage.program.innermost token
    if (← get).wholeTypes.contains type then discoverWith linkage fuel rest
    else
      let next ← takeIn linkage type
      discoverWith linkage fuel (next ++ rest)

/-- A bound for the number of types to look at.  A type has one base type at
most, and no more interfaces and fields than all types name together. -/
def discoveryBound (program : Program) : Nat :=
  program.types.length *
    (2 + program.interfaceCount + (program.types.flatMap TypeDef.fields).length) + 2

/-- Take in a type and all that it leads to. -/
def discoverType (linkage : Linkage) (token : Token) : Step Unit :=
  discoverWith linkage (discoveryBound linkage.program) [token]

/-- Take in the static part of a type: the record of its static fields and the
types of these fields. -/
def discoverStatics (linkage : Linkage) (token : Token) : Step Unit := do
  let type ← linkage.program.innermost token
  let session ← get
  if session.wholeTypes.contains type || session.staticTypes.contains type then return ()
  else
    set { session with staticTypes := type :: session.staticTypes }
    claimType linkage type
    onRegistry (Dispatch.Registry.addFields linkage type)
    recordFields type true
    let resolved ← linkage.program.typeDef (linkage.resolveType type)
    let fields ← linkage.program.declaredFields resolved
    for field in fields.filter FieldDef.isStatic do
      discoverType linkage field.fieldType

/-! ## Callables -/

/-- Take in the types in the signature of a callable and its declaring type. -/
def discoverSignature (linkage : Linkage) (callable : Callable) : Step Unit := do
  if callable.isStatic then discoverStatics linkage callable.declaring
  else discoverType linkage callable.declaring
  for param in callable.params do
    discoverType linkage param.type
  for type in callable.returns.toList do
    discoverType linkage type

/-- Ask for a callable of the program.  It is queued the first time, unless it
is abstract and so has nothing to lower. -/
def request (linkage : Linkage) (callable : Callable) : Step Unit := do
  let name ← linkage.program.mangle callable
  let session ← get
  let owners ← claim name callable.token session.callables
  if (session.callables.lookup name).isSome then return ()
  else
    set { session with callables := owners }
    discoverSignature linkage callable
    if callable.isAbstract then return ()
    else modify (fun session => { session with pending := session.pending ++ [callable] })

/-- Record an external symbol.  The first symbol of a name stays. -/
def registerNative (name symbol : String) : Step Unit :=
  modify (fun session =>
    if (session.records.native? name).isSome then session
    else { session with records := session.records.bindNative name symbol })

/-- Follow a discovery. -/
def follow (linkage : Linkage) : Discovery -> Step Unit
  | .callable callable => request linkage callable
  | .type token => discoverType linkage token
  | .native name symbol => registerNative name symbol

/-- Ask for a callable, or record the external symbol that implements it. -/
def refer (linkage : Linkage) (callable : Callable) : Step Unit := do
  let resolved ← linkage.resolveCallable callable
  match ← linkage.nativeSymbol? resolved with
  | some symbol =>
    let name ← linkage.program.mangle resolved
    registerNative name symbol
  | none => request linkage resolved

/-- Lower a callable and follow what its body discovers.  A discovery that
cannot be followed is reported before a fault further on in the body. -/
def lower (linkage : Linkage) (callable : Callable) : Step Unit := do
  let name ← linkage.program.mangle callable
  match callable.body with
  | none => throw (.missingBody name)
  | some body =>
    let attempt := Lowering.lower ⟨linkage, name⟩ body.code
    for discovery in attempt.discoveries do
      follow linkage discovery
    let lowered ← attempt.result
    modify (fun session =>
      { session with
        records := (session.records.addMethod
          ⟨name, callable.isStatic, callable.isConstructor, body.initLocals, body.maxStack,
            lowered.strings, lowered.nodes⟩).2 })

/-- Lower queued callables until none is left.  Each callable of the program
is queued once at most. -/
def drainWith (linkage : Linkage) : Nat -> Step Unit
  | 0 => return ()
  | fuel + 1 => do
    let session ← get
    match session.pending with
    | [] => return ()
    | callable :: rest =>
      set { session with pending := rest }
      lower linkage callable
      drainWith linkage fuel

/-- Lower everything that is queued. -/
def drain (linkage : Linkage) : Step Unit :=
  drainWith linkage (linkage.program.callables.length + 1)

/-! ## Dispatch -/

/-- Follow a slot.  A slot that has neither a body nor an external symbol is
implemented elsewhere and is passed over. -/
def referToSlot (linkage : Linkage) (slot : MethodDef) : Step Unit := do
  let resolved ← linkage.resolveCallable (.method slot)
  if resolved.body.isNone then
    match ← linkage.nativeSymbol? resolved with
    | none => return ()
    | some _ => refer linkage (.method slot)
  else refer linkage (.method slot)

/-- Follow the slots of a type. -/
def dispatchType (linkage : Linkage) (type : Token) : Step Unit := do
  modify (fun session => { session with dispatched := type :: session.dispatched })
  let table ← onRegistry (Dispatch.Registry.table linkage type)
  for slot in table.slots.filter (fun slot => !slot.isAbstract) do
    referToSlot linkage slot

/-- Follow the slots of all registered types, also of those that are registered
on the way.  Every round follows a type that was not followed before. -/
def dispatchWith (linkage : Linkage) : Nat -> Step Unit
  | 0 => return ()
  | fuel + 1 => do
    let session ← get
    match session.registry.types.filter (fun type => !session.dispatched.contains type) with
    | [] => return ()
    | fresh =>
      for type in fresh do
        dispatchType linkage type
      dispatchWith linkage fuel

/-- Follow all slots.  Tells whether that queued a callable. -/
def dispatch (linkage : Linkage) : Step Bool := do
  dispatchWith linkage (linkage.program.types.length + 1)
  return !(← get).pending.isEmpty

/-- Lower and, if asked to, follow slots until nothing is left to do.  Every
round but the last lowers a callable. -/
def closeWith (linkage : Linkage) (followSlots : Bool) : Nat -> Step Unit
  | 0 => return ()
  | fuel + 1 => do
    drain linkage
    if followSlots then
      if ← dispatch linkage then closeWith linkage followSlots fuel
      else return ()
    else return ()

/-- Bring a session to its end from a list of callables. -/
def close (linkage : Linkage) (followSlots : Bool) (entries : List Callable) : Step Unit := do
  for entry in entries do
    refer linkage entry
  closeWith linkage followSlots (linkage.program.callables.length + 1)

end Session
end Compilation
end CilGraph
