import CilGraph.Description
import CilGraph.Program.Code
import CilGraph.Program.Draft

namespace CilGraph
namespace ProgramDescription

/-!
# Program descriptions

A program can be written down as a document.  Its root is `program`, with one
`type` element for each type and one `string` element for each literal.  Every
definition brings its token, since bodies refer to it.  A place that refers to
a type holds either its full name or its token.

A description is turned into the steps of a draft.  Names are collected before
any step, so a type may be named before the place where it stands.  An array
type has no name of its own unless one is given: it takes the name of its
element with brackets after it.
-/

open Markup

/-- The names and tokens that a description declares.  In each list the latest
entry comes first and counts. -/
structure Names where
  /-- Types by full name. -/
  byName : List (String × Token) := []
  /-- The namespace and name of each type that is no array. -/
  plain : List (Token × (String × String)) := []
  /-- The namespace and name of each array type. -/
  arrays : List (Token × (String × String)) := []

/-- Read a token. -/
def readToken (text : String) : Result Token :=
  match Token.parse? text with
  | some token => .ok token
  | none => .error (.ofDescription (.invalidToken (Text.trim text)))

/-- The token of an element, which every definition has. -/
def tokenOf (element : Element) : Result Token := do
  readToken (← element.required "token")

/-- Whether a type reference is a token and not a name. -/
def looksLikeToken (text : String) : Bool :=
  match text.toList with
  | '0' :: 'x' :: _ => true
  | c :: _ => '0' ≤ c && c ≤ '9'
  | [] => false

/-- The type that a reference means. -/
def Names.resolve (names : Names) (text : String) : Result Token :=
  if looksLikeToken text then readToken text
  else
    match names.byName.lookup text with
    | some token => .ok token
    | none => .error (.ofDescription (.unknownType text))

/-- The namespace of an element, which may be left out. -/
def spaceOf (element : Element) : String :=
  (element.attribute? "namespace").getD ""

/-- Collect the name of a type that is no array. -/
def Names.addPlain (names : Names) (element : Element) : Result Names := do
  let token ← tokenOf element
  let space := spaceOf element
  let name ← element.required "name"
  .ok { names with
    byName := (qualify space name, token) :: names.byName
    plain := (token, (space, name)) :: names.plain }

/-- The namespace and name of an array type with a given element. -/
def Names.arrayLabel (names : Names) (element : Element) (item : Token) :
    Result (String × String) :=
  match element.attribute? "name", names.plain.lookup item with
  | some name, _ => .ok (spaceOf element, name)
  | none, some (space, name) => .ok (space, name ++ "[]")
  | none, none => .error (.ofDescription (.unknownElementType item))

/-- Collect the name of an array type whose element is referred to by `item`. -/
def Names.addArray (names : Names) (element : Element) (item : String) : Result Names := do
  let token ← tokenOf element
  let item ← names.resolve item
  let (space, name) ← names.arrayLabel element item
  .ok { names with
    byName := (qualify space name, token) :: names.byName
    arrays := (token, (space, name)) :: names.arrays }

/-- Collect all names: first those of the types that are no arrays, then those
of the array types, each in document order. -/
def Names.collect (types : List Element) : Result Names := do
  let names ← types.foldlM (fun names element =>
    match element.attribute? "element" with
    | none => names.addPlain element
    | some _ => .ok names) {}
  types.foldlM (fun names element =>
    match element.attribute? "element" with
    | none => .ok names
    | some item => names.addArray element item) names

/-- Turn a refused attribute text into an error. -/
def attributes {Value : Type} (outcome : Except AttributeFault Value) : Result Value :=
  outcome.mapError (fun fault => .ofDescription (.attribute fault))

/-- The parameters of a method or constructor. -/
def readParams (names : Names) (element : Element) : Result (List Param) :=
  (element.childrenNamed "param").mapM (fun param => do
    let marks ← attributes (ParamAttributes.ofText ((param.attribute? "flags").getD ""))
    let type ← names.resolve (← param.required "type")
    .ok ⟨type, marks⟩)

/-- The stack depth that a body declares when the description gives none. -/
def defaultMaxStack : UInt32 := 8

/-- The stack depth that a body declares. -/
def readMaxStack (element : Element) : Result UInt32 :=
  match element.attribute? "maxstack" with
  | none => .ok defaultMaxStack
  | some text =>
    (Text.readWord 10 text.toList).mapError (fun _ => .ofDescription (.invalidMaxStack text))

/-- The body of a method or constructor: its first `code` element. -/
def readBody (element : Element) : Result (Option Body) := do
  match (element.childrenNamed "code").head? with
  | none => .ok none
  | some code =>
    let maxStack ← readMaxStack element
    let initLocals ← element.flag "initlocals"
    let bytes ← Code.ofHex code.text
    .ok (some ⟨maxStack, initLocals, bytes⟩)

/-- A result type.  Two words and an absent attribute mean none. -/
def readReturns (names : Names) (element : Element) : Result (Option Token) :=
  match element.attribute? "returns" with
  | none => .ok none
  | some "void" => .ok none
  | some "System.Void" => .ok none
  | some type => (names.resolve type).map some

/-- Whether a constructor is static, by a truth value or by a keyword.  The
keywords are read only if the truth value does not decide. -/
def readIsStatic (element : Element) : Result Bool := do
  if ← element.flag "static" then .ok true
  else
    match element.attribute? "flags" with
    | none => .ok false
    | some text =>
      let word ← attributes (MethodAttributes.wordOfText text)
      .ok (MethodAttributes.ofWord word).isStatic

/-- The step of one child of a `type` element. -/
def memberStep (names : Names) (type : Element) (declaring : Token) (element : Element) :
    Result DraftStep := do
  match element.name with
  | "implements" =>
    let interface ← names.resolve (← element.required "type")
    .ok (.interface declaring interface)
  | "field" =>
    let token ← tokenOf element
    let name ← element.required "name"
    let fieldType ← names.resolve (← element.required "type")
    let isStatic ← element.flag "static"
    .ok (.field (some token) declaring name fieldType isStatic)
  | "method" =>
    let word ← attributes
      (MethodAttributes.wordOfText ((element.attribute? "flags").getD "public"))
    let returns ← readReturns names element
    let token ← tokenOf element
    let name ← element.required "name"
    let params ← readParams names element
    let body ← readBody element
    .ok (.method (some token) declaring name (MethodAttributes.ofWord word) returns params body)
  | "constructor" =>
    let isStatic ← readIsStatic element
    let token ← tokenOf element
    let params ← readParams names element
    let body ← readBody element
    .ok (.constructor (some token) declaring isStatic params body)
  | other =>
    .error (.ofDescription (.unexpectedMember other ((type.attribute? "name").getD "")))

/-- The steps that define a type itself. -/
def headSteps (names : Names) (element : Element) (token : Token) (base : Option Token) :
    Result (List DraftStep) := do
  match element.attribute? "element", names.arrays.lookup token with
  | some item, some (space, name) =>
    let item ← names.resolve item
    .ok [.type (some token) space name TypeAttributes.exported base, .elementType token item]
  | _, _ =>
    let marks ← attributes (TypeAttributes.ofText ((element.attribute? "flags").getD "public"))
    let name ← element.required "name"
    .ok [.type (some token) (spaceOf element) name marks base]

/-- The steps of a `type` element. -/
def typeSteps (names : Names) (element : Element) : Result (List DraftStep) := do
  let token ← tokenOf element
  let base ← (element.attribute? "base").mapM names.resolve
  let head ← headSteps names element token base
  let members ← element.children.mapM (memberStep names element token)
  .ok (head ++ members)

/-- The step of a `string` element. -/
def stringStep (element : Element) : Result DraftStep := do
  let token ← tokenOf element
  .ok (.string (some token) element.text)

/-- The steps of a whole description. -/
def steps (root : Element) : Result (List DraftStep) := do
  let types := root.childrenNamed "type"
  let names ← Names.collect types
  let typeSteps ← types.mapM (typeSteps names)
  let stringSteps ← (root.childrenNamed "string").mapM stringStep
  .ok (typeSteps.flatten ++ stringSteps)

end ProgramDescription

/-- Read a program from its description by a given lexer. -/
def Program.ofDescriptionWith (lexer : Markup.Lexer) (document : String) : Result Program := do
  let root ← Markup.Element.parseRoot lexer "program" document
  let steps ← ProgramDescription.steps root
  (Draft.ofSteps steps).build

/-- Read a program from its description. -/
def Program.ofDescription (document : String) : Result Program :=
  Program.ofDescriptionWith .standard document

end CilGraph
