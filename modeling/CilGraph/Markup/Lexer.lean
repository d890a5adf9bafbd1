import CilGraph.Markup.Event

namespace CilGraph
namespace Markup

/-!
# Lexers

What is asked of a reader of markup: to divide a document into events, to take a tag
apart, and to decode the references of a text.  How elements are made of this does not
depend on the way in which it is done.
-/

/-- A reader of markup. -/
structure Lexer where
  /-- The events of a document, and the fault at which reading stopped. -/
  events : String -> Reading
  /-- The name of a tag. -/
  name : List Char -> String
  /-- The attributes of a tag, whose values are decoded. -/
  attributes : List Char -> Except TagFault (List (String × String))
  /-- A text with its references decoded. -/
  unescape : List Char -> Except EscapeFault (List Char)
  /-- An empty text stays empty. -/
  unescape_nil : unescape [] = .ok []

/-- The lexer of all documents that are read. -/
def Lexer.standard : Lexer where
  events document := readDocument document.toList
  name := tagName
  attributes := tagAttributes
  unescape := Markup.unescape
  unescape_nil := rfl

end Markup
end CilGraph
