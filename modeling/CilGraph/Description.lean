import CilGraph.Error

namespace CilGraph
namespace Markup

/-!
# Reading descriptions

Access to elements in a document that has to follow a format.  What is missing
or does not fit is an error that names the element.
-/

namespace Element

/-- Read a document whose root element must have a given name. -/
def parseRoot (lexer : Lexer) (name : String) (document : String) : Result Element := do
  let root ← (Element.parse lexer document).mapError Error.ofMarkup
  if root.name = name then .ok root
  else .error (.ofDescription (.wrongRoot name root.name))

/-- The value of an attribute that has to be there. -/
def required (element : Element) (key : String) : Result String :=
  match element.attribute? key with
  | some value => .ok value
  | none => .error (.ofDescription (.missingAttribute element.name key))

/-- A truth value.  An attribute that is absent is false. -/
def flag (element : Element) (key : String) : Result Bool :=
  match element.attribute? key with
  | none => .ok false
  | some "true" => .ok true
  | some "1" => .ok true
  | some "false" => .ok false
  | some "0" => .ok false
  | some value => .error (.ofDescription (.notBoolean element.name key value))

end Element
end Markup
end CilGraph
