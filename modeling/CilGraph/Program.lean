import CilGraph.Definition
import CilGraph.Error

namespace CilGraph

/-!
# Programs

A program is a collection of definitions, each found by its token.  Every table
is in the order of its tokens.  Types are also found by their full name, in an
index of its own: a program may show a type under another label than the one by
which it is found, see `relabel`.

The chain of base types of a type is its lineage.  A program that was put
together from checked definitions has no cycle of base types, so a lineage has
at most as many members as there are types, and that number bounds every walk
along it.
-/

/-- The definitions of a program. -/
structure Program where
  types : List TypeDef
  /-- The index by full name. -/
  names : List (String × Token)
  fields : List FieldDef
  callables : List Callable
  strings : List (Token × String)
deriving DecidableEq, Repr

namespace Program

/-- The type with a given token. -/
def typeDef? (program : Program) (token : Token) : Option TypeDef :=
  program.types.find? (fun type => type.token == token)

/-- The type with a given token; it is an error if there is none. -/
def typeDef (program : Program) (token : Token) : Result TypeDef :=
  match program.typeDef? token with
  | some type => .ok type
  | none => .error (.unknownToken token)

/-- The field with a given token. -/
def field (program : Program) (token : Token) : Result FieldDef :=
  match program.fields.find? (fun field => field.token == token) with
  | some field => .ok field
  | none => .error (.unknownToken token)

/-- The method or constructor with a given token. -/
def callable (program : Program) (token : Token) : Result Callable :=
  match program.callables.find? (fun callable => callable.token == token) with
  | some callable => .ok callable
  | none => .error (.unknownToken token)

/-- The string literal with a given token. -/
def userString (program : Program) (token : Token) : Result String :=
  match program.strings.lookup token with
  | some text => .ok text
  | none => .error (.unknownToken token)

/-- The type that is found under a full name. -/
def findType? (program : Program) (fullName : String) : Option TypeDef :=
  (program.names.lookup fullName).bind program.typeDef?

/-- The method with a given token; a constructor is refused. -/
def method (program : Program) (token : Token) : Result MethodDef := do
  match ← program.callable token with
  | .method method => .ok method
  | .constructor _ => .error (.wrongCallable token .method)

/-- The constructor with a given token; a method is refused. -/
def constructor (program : Program) (token : Token) : Result ConstructorDef := do
  match ← program.callable token with
  | .constructor constructor => .ok constructor
  | .method _ => .error (.wrongCallable token .constructor)

/-- The full name of the type with a given token. -/
def typeName (program : Program) (token : Token) : Result String :=
  (program.typeDef token).map TypeDef.fullName

/-- The methods that a type declares, in declaration order. -/
def declaredMethods (program : Program) (type : TypeDef) : Result (List MethodDef) :=
  type.methods.mapM program.method

/-- The fields that a type declares, in declaration order. -/
def declaredFields (program : Program) (type : TypeDef) : Result (List FieldDef) :=
  type.fields.mapM program.field

/-- The constructors that a type declares, in declaration order. -/
def declaredConstructors (program : Program) (type : TypeDef) : Result (List ConstructorDef) :=
  type.constructors.mapM program.constructor

/-- Show a type under another namespace and name.  The index is left alone, so
the type is still found under its old name only, and two types can come to be
shown alike. -/
def relabel (program : Program) (token : Token) (space name : String) : Program :=
  { program with
    types := program.types.map (fun type =>
      if type.token = token then { type with space := space, name := name } else type) }

/-- The first `fuel` members of the lineage of a type. -/
def lineageWith (program : Program) : Nat -> Token -> Result (List TypeDef)
  | 0, _ => .ok []
  | fuel + 1, token => do
    let type ← program.typeDef token
    match type.base with
    | none => .ok [type]
    | some base =>
      let ancestors ← program.lineageWith fuel base
      .ok (type :: ancestors)

/-- A type and its base types, the most derived first.  A token that names no
type is refused, also in a program without types. -/
def lineage (program : Program) (token : Token) : Result (List TypeDef) :=
  program.lineageWith (program.types.length + 1) token

/-- Follow element types for fewer than `fuel` steps. -/
def innermostWith (program : Program) : Nat -> Token -> Result Token
  | 0, token => .error (.unknownToken token)
  | fuel + 1, token => do
    let type ← program.typeDef token
    match type.element with
    | none => .ok token
    | some element => program.innermostWith fuel element

/-- The type of the innermost elements of an array type; any other type is its
own.  An array has no layout apart from its elements.  A chain of elements
without a cycle visits each type once, and one with a cycle has no innermost
type. -/
def innermost (program : Program) (token : Token) : Result Token :=
  program.innermostWith (program.types.length + 1) token

end Program
end CilGraph
