import CilGraph.Ordered
import CilGraph.Program

namespace CilGraph

/-!
# Drafts

A draft is a program in the making.  It grows by steps, each of which adds a
definition or says something about a type that was added before.  A step that
adds a definition may bring its own token or take the next free row of its
table.  A member is entered in its declaring type when it is added; a step that
speaks of a type which is not there yet has no effect on it.

No step fails.  Everything is checked once, when the draft is completed: tokens
and type names are unique, every reference is to a known type, and no type is
among its own base types.
-/

/-- The highest row that is in use, for each table. -/
structure RowCounts where
  typeDef : UInt32 := 0
  field : UInt32 := 0
  methodDef : UInt32 := 0
  userString : UInt32 := 0
deriving DecidableEq, Repr

namespace RowCounts

def get (counts : RowCounts) : TokenKind -> UInt32
  | .typeDef => counts.typeDef
  | .field => counts.field
  | .methodDef => counts.methodDef
  | .userString => counts.userString

def set (counts : RowCounts) (row : UInt32) : TokenKind -> RowCounts
  | .typeDef => { counts with typeDef := row }
  | .field => { counts with field := row }
  | .methodDef => { counts with methodDef := row }
  | .userString => { counts with userString := row }

/-- Keep the row of a token from being handed out again. -/
def reserve (counts : RowCounts) (token : Token) : RowCounts :=
  match token.kind? with
  | some kind => counts.set (max (counts.get kind) token.row) kind
  | none => counts

end RowCounts

/-- One step of a draft.  Where a token is optional, its absence asks for the
next free one. -/
inductive DraftStep where
  | type (token : Option Token) (space name : String) (attributes : TypeAttributes)
      (base : Option Token)
  | arrayType (token : Option Token) (element : Token) (base : Option Token)
  | elementType (array element : Token)
  | interface (type interface : Token)
  | field (token : Option Token) (declaring : Token) (name : String) (fieldType : Token)
      (isStatic : Bool)
  | method (token : Option Token) (declaring : Token) (name : String)
      (attributes : MethodAttributes) (returns : Option Token) (params : List Param)
      (body : Option Body)
  | constructor (token : Option Token) (declaring : Token) (isStatic : Bool)
      (params : List Param) (body : Option Body)
  | string (token : Option Token) (text : String)
deriving DecidableEq, Repr

/-- A program in the making, with its definitions in the order of their steps. -/
structure Draft where
  types : List TypeDef := []
  fields : List FieldDef := []
  methods : List MethodDef := []
  constructors : List ConstructorDef := []
  strings : List (Token × String) := []
  rows : RowCounts := {}
deriving DecidableEq, Repr

namespace Draft

/-- The token that a new definition gets, and the draft with its row in use. -/
def claimToken (draft : Draft) (kind : TokenKind) (given : Option Token) : Token × Draft :=
  match given with
  | some token => (token, { draft with rows := draft.rows.reserve token })
  | none =>
    let row := draft.rows.get kind + 1
    let token := Token.ofParts kind row
    (token, { draft with rows := (draft.rows.set row kind).reserve token })

/-- Change the first type with a given token. -/
def modifyFirst (token : Token) (change : TypeDef -> TypeDef) : List TypeDef -> List TypeDef
  | [] => []
  | type :: rest =>
    if type.token = token then change type :: rest else type :: modifyFirst token change rest

/-- Change a type of the draft, if it is there. -/
def modifyType (draft : Draft) (token : Token) (change : TypeDef -> TypeDef) : Draft :=
  { draft with types := modifyFirst token change draft.types }

/-- Add a type without members. -/
def addType (draft : Draft) (token : Token) (space name : String) (attributes : TypeAttributes)
    (base : Option Token) : Draft :=
  { draft with
    types := draft.types ++
      [⟨token, space, name, attributes, base, none, [], [], [], []⟩] }

/-- Make a type an array of another. -/
def setElement (draft : Draft) (array element : Token) : Draft :=
  draft.modifyType array (fun type => { type with element := some element })

/-- The namespace and name of the array of a type.  An element that is not
there yet lends its token. -/
def arrayLabel (draft : Draft) (element : Token) : String × String :=
  match draft.types.find? (fun type => type.token == element) with
  | some type => (type.space, type.name ++ "[]")
  | none => ("", s!"{element}[]")

/-- Take a step.  The token of the definition that was added is returned. -/
def step (draft : Draft) : DraftStep -> Option Token × Draft
  | .type given space name attributes base =>
    let (token, draft) := draft.claimToken .typeDef given
    (some token, draft.addType token space name attributes base)
  | .arrayType given element base =>
    let (token, draft) := draft.claimToken .typeDef given
    let (space, name) := draft.arrayLabel element
    (some token,
      (draft.addType token space name TypeAttributes.exported base).setElement token element)
  | .elementType array element => (none, draft.setElement array element)
  | .interface type interface =>
    (none, draft.modifyType type
      (fun type => { type with interfaces := type.interfaces ++ [interface] }))
  | .field given declaring name fieldType isStatic =>
    let (token, draft) := draft.claimToken .field given
    let field : FieldDef := ⟨token, name, declaring, fieldType, isStatic⟩
    (some token, { draft with fields := draft.fields ++ [field] }.modifyType declaring
      (fun type => { type with fields := type.fields ++ [token] }))
  | .method given declaring name attributes returns params body =>
    let (token, draft) := draft.claimToken .methodDef given
    let method : MethodDef := ⟨token, name, declaring, attributes, returns, params, body⟩
    (some token, { draft with methods := draft.methods ++ [method] }.modifyType declaring
      (fun type => { type with methods := type.methods ++ [token] }))
  | .constructor given declaring isStatic params body =>
    let (token, draft) := draft.claimToken .methodDef given
    let constructor : ConstructorDef := ⟨token, declaring, isStatic, params, body⟩
    (some token,
      { draft with constructors := draft.constructors ++ [constructor] }.modifyType declaring
      (fun type => { type with constructors := type.constructors ++ [token] }))
  | .string given text =>
    let (token, draft) := draft.claimToken .userString given
    (some token, { draft with strings := draft.strings ++ [(token, text)] })

/-- The tokens that steps return, and the draft after them. -/
def trace (draft : Draft) : List DraftStep -> List (Option Token) × Draft
  | [] => ([], draft)
  | first :: rest =>
    let (token, draft) := draft.step first
    let (tokens, draft) := draft.trace rest
    (token :: tokens, draft)

/-- The draft that steps lead to. -/
def ofSteps (steps : List DraftStep) : Draft :=
  (Draft.trace {} steps).2

/-! ## Completion -/

/-- The index of type names.  A name or a token that occurs twice is refused,
at the first type that repeats one. -/
def indexTypes : List (String × Token) -> List TypeDef -> Result (List (String × Token))
  | index, [] => .ok index
  | index, type :: rest =>
    if index.any (fun entry => entry.1 == type.fullName) then
      .error (.ofProgram (.repeatedName type.fullName))
    else if index.any (fun entry => entry.2 == type.token) then
      .error (.ofProgram (.repeatedTypeToken type.fullName))
    else indexTypes (index ++ [(type.fullName, type.token)]) rest

/-- Check that no token occurs twice, given the tokens in use before. -/
def checkTokens : List Token -> List Token -> Result Unit
  | _, [] => .ok ()
  | used, token :: rest =>
    if used.contains token then .error (.ofProgram (.repeatedToken token))
    else checkTokens (token :: used) rest

/-- The tokens of all members and literals, in the order of the check. -/
def memberTokens (draft : Draft) : List Token :=
  draft.fields.map FieldDef.token ++ draft.methods.map MethodDef.token ++
    draft.constructors.map ConstructorDef.token ++ draft.strings.map Prod.fst

end Draft

namespace Program

/-- Check that a token names a type. -/
def checkReference (program : Program) (role : ReferenceRole) (owner : String) (token : Token) :
    Result Unit :=
  if (program.typeDef? token).isSome then .ok ()
  else .error (.ofProgram (.unknownReference role owner token))

/-- Whether a chain of base types ends within a number of steps. -/
def chainEnds (program : Program) : Nat -> Option Token -> Bool
  | _, none => true
  | 0, some _ => false
  | steps + 1, some token =>
    program.chainEnds steps ((program.typeDef? token).bind TypeDef.base)

/-- Check the references of a type and that it is not among its base types.
A chain without a cycle visits each type once at most, and perhaps ends at a
token that names none. -/
def checkType (program : Program) (type : TypeDef) : Result Unit := do
  for token in type.base.toList ++ type.element.toList ++ type.interfaces do
    program.checkReference .typeReference type.fullName token
  if program.chainEnds (program.types.length + 1) (some type.token) then .ok ()
  else .error (.ofProgram (.cyclicInheritance type.fullName))

/-- Check the references of a field. -/
def checkField (program : Program) (field : FieldDef) : Result Unit := do
  program.checkReference .declaringType field.name field.declaring
  program.checkReference .fieldType field.name field.fieldType

/-- Check the references of a method or constructor. -/
def checkCallable (program : Program) (callable : Callable) : Result Unit := do
  program.checkReference .declaringType callable.name callable.declaring
  for param in callable.params do
    program.checkReference .parameter callable.name param.type
  match callable.returns with
  | some type => program.checkReference .returnType callable.name type
  | none => .ok ()

/-- Check all references of a program. -/
def check (program : Program) : Result Unit := do
  program.types.forM program.checkType
  program.fields.forM program.checkField
  program.callables.forM program.checkCallable

end Program

namespace Draft

/-- The definitions of the draft in token order. -/
def arrange (draft : Draft) (names : List (String × Token)) : Program where
  types := Ordered.sortBy (fun first second => first.token.precedes second.token) draft.types
  names := names
  fields := Ordered.sortBy (fun first second => first.token.precedes second.token) draft.fields
  callables := Ordered.sortBy (fun first second => first.token.precedes second.token)
    (draft.methods.map Callable.method ++ draft.constructors.map Callable.constructor)
  strings := Ordered.sortBy (fun first second => first.1.precedes second.1) draft.strings

/-- Complete a draft, or report the first fault. -/
def build (draft : Draft) : Result Program := do
  let names ← indexTypes [] draft.types
  checkTokens (draft.types.map TypeDef.token) draft.memberTokens
  let program := draft.arrange names
  program.check
  .ok program

end Draft
end CilGraph
