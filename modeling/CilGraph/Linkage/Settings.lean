import CilGraph.Description

namespace CilGraph

/-!
# Linkage settings

Settings say which types are replaced by others and which methods are
implemented outside the program.  They name types by full name, so they can be
written before there is a program to apply them to.

In a document the root is `resolver`, and each child is one setting.  A binding
lists the types of its parameters as children.  Without children it holds for
every overload, unless it says that it means the overload without parameters.
-/

/-- Replace a type wherever it is used. -/
structure Substitution where
  target : String
  replacement : String
deriving DecidableEq, Repr

/-- Implement a method by an external symbol. -/
structure NativeBinding where
  type : String
  method : String
  /-- The parameter types of the overload that is meant; all overloads if absent. -/
  params : Option (List String)
  symbol : String
deriving DecidableEq, Repr

/-- One setting. -/
inductive Setting where
  | substitute (substitution : Substitution)
  | native (binding : NativeBinding)
deriving DecidableEq, Repr

/-- All settings, each kind in order. -/
structure Settings where
  substitutions : List Substitution := []
  natives : List NativeBinding := []
deriving DecidableEq, Repr

namespace Settings

/-- Add a setting after those of its kind. -/
def add (settings : Settings) : Setting -> Settings
  | .substitute substitution =>
    { settings with substitutions := settings.substitutions ++ [substitution] }
  | .native binding => { settings with natives := settings.natives ++ [binding] }

/-- Collect settings of both kinds. -/
def ofList (list : List Setting) : Settings :=
  list.foldl add {}

end Settings

namespace Setting

open Markup

/-- The parameter types of a binding. -/
def readParams (element : Element) (names : List String) : Result (Option (List String)) := do
  if names.isEmpty then
    if ← element.flag "noparams" then .ok (some []) else .ok none
  else .ok (some names)

/-- Read a setting. -/
def ofElement (element : Element) : Result Setting := do
  match element.name with
  | "substitute" =>
    let target ← element.required "target"
    let replacement ← element.required "with"
    .ok (.substitute ⟨target, replacement⟩)
  | "native" =>
    let names ← (element.childrenNamed "param").mapM (fun param => param.required "type")
    let type ← element.required "type"
    let method ← element.required "method"
    let symbol ← element.required "symbol"
    let params ← readParams element names
    .ok (.native ⟨type, method, params, symbol⟩)
  | other => .error (.ofDescription (.unexpectedSetting other))

end Setting

namespace Settings

/-- The settings of a root element. -/
def ofRoot (root : Markup.Element) : Result Settings :=
  (root.children.mapM Setting.ofElement).map ofList

/-- Read settings from a document by a given lexer. -/
def ofDocumentWith (lexer : Markup.Lexer) (document : String) : Result Settings := do
  let root ← Markup.Element.parseRoot lexer "resolver" document
  ofRoot root

/-- Read settings from a document. -/
def ofDocument (document : String) : Result Settings :=
  ofDocumentWith .standard document

end Settings
end CilGraph
