import CilGraph.Linkage.Settings
import CilGraph.Program

namespace CilGraph

/-!
# Linkage

Settings applied to a program.  All names are looked up at once, so a linkage
holds tokens only and cannot meet an unknown name later.

A type is replaced in one step: the replacement of a replacement is not looked
up.  A callable of a replaced type stands for the member of the replacement
that has its name and parameter types, where parameter types are compared after
replacement.
-/

/-- An external symbol for a method, or for one of its overloads. -/
structure NativeEntry where
  declaring : Token
  method : String
  params : Option (List Token)
  symbol : String
deriving DecidableEq, Repr

/-- A program with its replacements and external symbols. -/
structure Linkage where
  program : Program
  substitutions : List (Token × Token)
  natives : List NativeEntry
deriving DecidableEq, Repr

namespace Linkage

/-- The type that a setting names. -/
def findType (program : Program) (name : String) : Result TypeDef :=
  match program.findType? name with
  | some type => .ok type
  | none => .error (.ofLinkage (.unknownType name))

/-- Add a replacement.  A type has one at most. -/
def addSubstitution (program : Program) (known : List (Token × Token))
    (substitution : Substitution) : Result (List (Token × Token)) := do
  let target ← findType program substitution.target
  let replacement ← findType program substitution.replacement
  if (known.lookup target.token).isSome then
    .error (.ofLinkage (.repeatedSubstitution substitution.target))
  else .ok (known ++ [(target.token, replacement.token)])

/-- Look up the names of a binding.  The type must declare a method of that
name. -/
def readBinding (program : Program) (binding : NativeBinding) : Result NativeEntry := do
  let type ← findType program binding.type
  let declared ← program.declaredMethods type
  if declared.any (fun method => method.name == binding.method) then
    let params ← binding.params.mapM (fun names =>
      names.mapM (fun name => (findType program name).map TypeDef.token))
    .ok ⟨type.token, binding.method, params, binding.symbol⟩
  else
    .error (.ofLinkage (.unknownNativeMethod binding.symbol binding.type binding.method))

/-- Apply settings to a program. -/
def ofSettings (program : Program) (settings : Settings) : Result Linkage := do
  let substitutions ← settings.substitutions.foldlM (addSubstitution program) []
  let natives ← settings.natives.mapM (readBinding program)
  .ok ⟨program, substitutions, natives⟩

/-- The type that is used in place of a type. -/
def resolveType (linkage : Linkage) (token : Token) : Token :=
  (linkage.substitutions.lookup token).getD token

/-- Whether two lists of types are the same after replacement. -/
def sameTypes (linkage : Linkage) (first second : List Token) : Bool :=
  first.map linkage.resolveType == second.map linkage.resolveType

/-- Whether two lists of parameters have the same types after replacement. -/
def sameParams (linkage : Linkage) (first second : List Param) : Bool :=
  linkage.sameTypes (first.map Param.type) (second.map Param.type)

/-- The member of a type that takes the place of a callable. -/
def counterpart? (linkage : Linkage) (type : TypeDef) : Callable -> Result (Option Callable)
  | .method method => do
    let declared ← linkage.program.declaredMethods type
    .ok ((declared.find? (fun candidate =>
      candidate.name == method.name && linkage.sameParams candidate.params method.params)).map
        Callable.method)
  | .constructor constructor => do
    let declared ← linkage.program.declaredConstructors type
    .ok ((declared.find? (fun candidate =>
      candidate.isStatic == constructor.isStatic &&
        linkage.sameParams candidate.params constructor.params)).map Callable.constructor)

/-- The callable that is used in place of a callable. -/
def resolveCallable (linkage : Linkage) (callable : Callable) : Result Callable := do
  let target := linkage.resolveType callable.declaring
  if target = callable.declaring then .ok callable
  else
    let type ← linkage.program.typeDef target
    match ← linkage.counterpart? type callable with
    | some found => .ok found
    | none =>
      let declaring := match linkage.program.typeName callable.declaring with
        | .ok name => name
        | .error _ => callable.declaring.toText
      .error (.ofLinkage (.missingMember type.fullName declaring callable.name))

/-- Whether an external symbol is meant for a method. -/
def binds (linkage : Linkage) (method : MethodDef) (entry : NativeEntry) : Bool :=
  entry.declaring == method.declaring && entry.method == method.name &&
    match entry.params with
    | none => true
    | some params => linkage.sameTypes params (method.params.map Param.type)

/-- The external symbol of a callable.  Constructors have none, and of several
bindings for a method the first counts. -/
def nativeSymbol? (linkage : Linkage) (callable : Callable) : Result (Option String) := do
  match ← linkage.resolveCallable callable with
  | .constructor _ => .ok none
  | .method method =>
    .ok ((linkage.natives.find? (linkage.binds method)).map NativeEntry.symbol)

end Linkage
end CilGraph
