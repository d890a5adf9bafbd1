import CilGraph.Markup.Lexer
import CilGraph.Text.Blank

namespace CilGraph
namespace Markup

/-!
# Elements

The events of a document form a tree of elements.  Each run of text inside an
element is decoded, trimmed and joined to the text of that element, whereas
character data is joined as it stands.  Text outside every element is decoded
too, so that a bad reference there is reported, and is then dropped.

The first element that closes outside all others is the root.  Elements that
are still open at the end of the document are dropped, so a document whose
outermost element never closes has no root.
-/

/-- Why a document is not read as an element. -/
inductive Fault where
  | document (fault : DocumentFault)
  | tag (fault : TagFault)
  | escape (fault : EscapeFault)
  | noRoot
deriving DecidableEq, Repr

/-- An element with its attributes in document order, its child elements and
the text directly inside it. -/
structure Element where
  name : String
  attributes : List (String × String)
  children : List Element
  text : String
deriving Repr

namespace Element

/-- The element of a tag, without content yet. -/
def ofTag (lexer : Lexer) (content : List Char) : Except Fault Element := do
  let attributes ← (lexer.attributes content).mapError Fault.tag
  .ok ⟨lexer.name content, attributes, [], ""⟩

/-- Add a child element after the others. -/
def push (parent child : Element) : Element :=
  { parent with children := parent.children ++ [child] }

/-- Add to the text of an element. -/
def pushText (parent : Element) (more : String) : Element :=
  { parent with text := parent.text ++ more }

/-- The value of an attribute. -/
def attribute? (element : Element) (key : String) : Option String :=
  element.attributes.lookup key

/-- The child elements of a given name. -/
def childrenNamed (element : Element) (name : String) : List Element :=
  element.children.filter (fun child => child.name == name)

end Element

/-- A tree in the making: the elements that are open, the innermost first, and
the root once it is closed. -/
structure Growth where
  opened : List Element
  root : Option Element

namespace Growth

/-- Nothing has been read. -/
def start : Growth := ⟨[], none⟩

/-- Place a finished element inside the innermost open one, or at the root if
none is open.  A second element at the root is dropped. -/
def attach (growth : Growth) (element : Element) : Growth :=
  match growth.opened with
  | parent :: outer => { growth with opened := parent.push element :: outer }
  | [] => { growth with root := growth.root.orElse (fun _ => some element) }

/-- Add text to the innermost open element. -/
def pushText (growth : Growth) (more : String) : Growth :=
  match growth.opened with
  | parent :: outer => { growth with opened := parent.pushText more :: outer }
  | [] => growth

/-- Take in one event.  The name of an end tag is not looked at, as events nest. -/
def step (lexer : Lexer) (growth : Growth) : Event -> Except Fault Growth
  | .opening content => do
    let element ← Element.ofTag lexer content
    .ok { growth with opened := element :: growth.opened }
  | .selfClosing content => do
    let element ← Element.ofTag lexer content
    .ok (growth.attach element)
  | .closing _ =>
    match growth.opened with
    | [] => .ok growth
    | element :: outer => .ok ({ growth with opened := outer }.attach element)
  | .text raw => do
    let decoded ← (lexer.unescape raw).mapError Fault.escape
    .ok (growth.pushText (String.ofList (Text.trimChars decoded)))
  | .characterData raw => .ok (growth.pushText (String.ofList raw))
  | .ignored => .ok growth

end Growth

namespace Element

/-- Make the tree of some events and return its root. -/
def ofReading (lexer : Lexer) (reading : Reading) : Except Fault Element := do
  let growth ← reading.events.foldlM (Growth.step lexer) Growth.start
  match reading.fault with
  | some fault => .error (.document fault)
  | none =>
    match growth.root with
    | some root => .ok root
    | none => .error .noRoot

/-- Read a document and return its root element. -/
def parse (lexer : Lexer) (document : String) : Except Fault Element :=
  ofReading lexer (lexer.events document)

end Element

end Markup
end CilGraph
