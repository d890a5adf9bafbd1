import CilGraph.Program

namespace CilGraph

/-!
# Mangled names

A mangled name identifies what has been compiled: a record of a type, a method
or a native binding.  The name of a type is its full name, with `_static` after
it for the record of static fields.  The name of a callable is put together
from its result type, its parameter types, its declaring type and its own name,
with a mark for static members and one for constructors.  A callable without a
result shows the type `System.Void`.
-/

/-- The name of the record of a type. -/
def TypeDef.recordName (type : TypeDef) (isStatic : Bool) : String :=
  if isStatic then type.fullName ++ "_static" else type.fullName

namespace Program

/-- The name that stands for the absence of a result. -/
def voidName : String := "System.Void"

/-- The name of the result of a callable. -/
def resultName (program : Program) (callable : Callable) : Result String :=
  match callable.returns with
  | some type => program.typeName type
  | none => .ok voidName

/-- The mangled name of a callable. -/
def mangle (program : Program) (callable : Callable) : Result String := do
  let result ← program.resultName callable
  let params ← callable.params.mapM (fun param => program.typeName param.type)
  let declaring ← program.typeName callable.declaring
  let inputs := String.join (params.map (fun name => name ++ "__"))
  let staticMark := if callable.isStatic then "_static" else ""
  let constructorMark := if callable.isConstructor then "_constr" else ""
  .ok (result ++ "___" ++ inputs ++ "_" ++ declaring ++ "." ++ callable.name ++ staticMark ++
    constructorMark)

end Program
end CilGraph
