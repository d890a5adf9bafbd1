import CilGraph.Attribute
import CilGraph.Token

namespace CilGraph

/-!
# Definitions

The types, fields, methods and constructors of a program.  Definitions refer
to each other by token only, so each is a plain value, and a program is a
collection of them in which the tokens are looked up.
-/

/-- A type. -/
structure TypeDef where
  token : Token
  /-- The namespace, which may be empty. -/
  space : String
  name : String
  attributes : TypeAttributes
  /-- The base type.  The root of a hierarchy and interfaces have none. -/
  base : Option Token
  /-- The element type of an array type. -/
  element : Option Token
  /-- The interfaces that the type names itself, in declaration order. -/
  interfaces : List Token
  fields : List Token
  methods : List Token
  constructors : List Token
deriving DecidableEq, Repr

/-- Join a namespace and a name.  A type without a namespace has its bare name. -/
def qualify (space name : String) : String :=
  if space.isEmpty then name else space ++ "." ++ name

namespace TypeDef

/-- The name together with its namespace. -/
def fullName (type : TypeDef) : String :=
  qualify type.space type.name

def isInterface (type : TypeDef) : Bool :=
  type.attributes.contains TypeAttributes.interface

def isArray (type : TypeDef) : Bool :=
  type.element.isSome

end TypeDef

/-- A field. -/
structure FieldDef where
  token : Token
  name : String
  declaring : Token
  fieldType : Token
  isStatic : Bool
deriving DecidableEq, Repr

/-- A parameter. -/
structure Param where
  type : Token
  attributes : ParamAttributes
deriving DecidableEq, Repr

/-- The code of a method and what its frame needs. -/
structure Body where
  maxStack : UInt32
  initLocals : Bool
  code : List UInt8
deriving DecidableEq, Repr

/-- A method. -/
structure MethodDef where
  token : Token
  name : String
  declaring : Token
  attributes : MethodAttributes
  /-- The type of the result.  A method without one returns nothing. -/
  returns : Option Token
  params : List Param
  /-- Abstract methods and methods implemented elsewhere have no body. -/
  body : Option Body
deriving DecidableEq, Repr

namespace MethodDef

def isStatic (method : MethodDef) : Bool := method.attributes.isStatic
def isVirtual (method : MethodDef) : Bool := method.attributes.isVirtual
def isAbstract (method : MethodDef) : Bool := method.attributes.isAbstract
def isFinal (method : MethodDef) : Bool := method.attributes.isFinal
def isPrivate (method : MethodDef) : Bool := method.attributes.isPrivate
def startsSlot (method : MethodDef) : Bool := method.attributes.startsSlot

/-- Two methods have the same signature when name, result and parameters agree.
Attributes of parameters count; attributes of the methods do not. -/
def sameSignature (first second : MethodDef) : Bool :=
  first.name == second.name && first.returns == second.returns && first.params == second.params

end MethodDef

/-- A constructor of instances, or the initializer of a type if it is static. -/
structure ConstructorDef where
  token : Token
  declaring : Token
  isStatic : Bool
  params : List Param
  body : Option Body
deriving DecidableEq, Repr

/-- The fixed name of a constructor. -/
def ConstructorDef.name (constructor : ConstructorDef) : String :=
  if constructor.isStatic then ".cctor" else ".ctor"

/-- What an instruction can call. -/
inductive Callable where
  | method (definition : MethodDef)
  | constructor (definition : ConstructorDef)
deriving DecidableEq, Repr

namespace Callable

def token : Callable -> Token
  | method m => m.token
  | constructor c => c.token

def name : Callable -> String
  | method m => m.name
  | constructor c => c.name

def declaring : Callable -> Token
  | method m => m.declaring
  | constructor c => c.declaring

/-- A static member takes no receiver. -/
def isStatic : Callable -> Bool
  | method m => m.isStatic
  | constructor c => c.isStatic

def isConstructor : Callable -> Bool
  | method _ => false
  | constructor _ => true

/-- A constructor is never abstract. -/
def isAbstract : Callable -> Bool
  | method m => m.isAbstract
  | constructor _ => false

/-- Constructors return nothing. -/
def returns : Callable -> Option Token
  | method m => m.returns
  | constructor _ => none

def params : Callable -> List Param
  | method m => m.params
  | constructor c => c.params

def body : Callable -> Option Body
  | method m => m.body
  | constructor c => c.body

/-- The number of operands that a call takes: the parameters, and the receiver
unless the member is static. -/
def stackInputs (callable : Callable) : Nat :=
  callable.params.length + if callable.isStatic then 0 else 1

end Callable
end CilGraph
