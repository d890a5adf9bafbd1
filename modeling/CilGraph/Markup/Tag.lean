import CilGraph.Markup.Escape

namespace CilGraph
namespace Markup

/-!
# Tags

The content of a start tag is a name, which runs to the first blank, and a list
of attributes.  An attribute is a key, an equals sign and a quoted value, with
blanks allowed around each part and none required between two attributes.

Each value is decoded before the next attribute is looked at.  A report gives
the byte offset from the character after the opening angle bracket, so every
character of the content is first paired with its offset.
-/

/-- The blanks of markup, which are fewer than those of text. -/
def isMarkupBlank (c : Char) : Bool :=
  c == ' ' || c == '\t' || c == '\r' || c == '\n'

/-- Why a list of attributes cannot be read. -/
inductive TagFault where
  | missingEquals (position : Nat)
  | repeatedKey (position previous : Nat)
  | missingValue (position : Nat)
  | unquotedValue (position : Nat)
  | unclosedValue (position : Nat) (quote : Char)
  | escape (fault : EscapeFault)
deriving DecidableEq, Repr

/-- The sentence that explains a fault. -/
def TagFault.message : TagFault -> String
  | .missingEquals position =>
    s!"position {position}: attribute key must be directly followed by `=` or space"
  | .repeatedKey position previous =>
    s!"position {position}: duplicated attribute, previous declaration at position {previous}"
  | .missingValue position =>
    s!"position {position}: `=` must be followed by an attribute value"
  | .unquotedValue position =>
    s!"position {position}: attribute value must be enclosed in `\"` or `'`"
  | .unclosedValue position quote =>
    s!"position {position}: missing closing quote `{quote}` in attribute value"
  | .escape fault => fault.message

/-- A character and its byte offset. -/
abbrev Placed := Nat × Char

/-- Pair each character with its byte offset, counted from `offset`. -/
def place : Nat -> List Char -> List Placed
  | _, [] => []
  | offset, c :: rest => (offset, c) :: place (offset + c.utf8Size) rest

/-- Forget the offsets. -/
def plain (text : List Placed) : List Char :=
  text.map Prod.snd

/-- Skip blanks. -/
def skipBlanks (text : List Placed) : List Placed :=
  text.dropWhile (fun placed => isMarkupBlank placed.2)

/-- Whether a character ends a key. -/
def endsKey (placed : Placed) : Bool :=
  placed.2 == '=' || isMarkupBlank placed.2

/-- Divide a nonempty text after its key.  The first character belongs to the
key whatever it is.  What follows the equals sign is the rest. -/
def readKey (total : Nat) (first : Placed) (text : List Placed) :
    Except TagFault (List Char × List Placed) :=
  let key := first.2 :: plain (text.takeWhile (fun placed => !endsKey placed))
  match skipBlanks (text.dropWhile (fun placed => !endsKey placed)) with
  | [] => .error (.missingEquals total)
  | (position, c) :: rest =>
    if c = '=' then .ok (key, rest) else .error (.missingEquals position)

/-- Divide a text after the quoted value at its beginning. -/
def readValue (total : Nat) (text : List Placed) :
    Except TagFault (List Char × List Placed) :=
  match skipBlanks text with
  | [] => .error (.missingValue total)
  | (position, quote) :: rest =>
    if quote = '"' ∨ quote = '\'' then
      match rest.dropWhile (fun placed => placed.2 != quote) with
      | [] => .error (.unclosedValue total quote)
      | _ :: after => .ok (plain (rest.takeWhile (fun placed => placed.2 != quote)), after)
    else .error (.unquotedValue position)

/-- Read attributes until the content ends.  `seen` holds the keys before and
their places.  Every attribute takes a character, so the length of the content
is fuel enough. -/
def readAttributesWith (total : Nat) :
    Nat -> List (List Char × Nat) -> List Placed -> Except TagFault (List (String × String))
  | 0, _, _ => .ok []
  | fuel + 1, seen, text =>
    match skipBlanks text with
    | [] => .ok []
    | first :: rest => do
      let (key, afterKey) ← readKey total first rest
      match seen.lookup key with
      | some previous => .error (.repeatedKey first.1 previous)
      | none =>
        let (raw, afterValue) ← readValue total afterKey
        let value ← (unescape raw).mapError TagFault.escape
        let others ← readAttributesWith total fuel ((key, first.1) :: seen) afterValue
        .ok ((String.ofList key, String.ofList value) :: others)

/-- The name at the beginning of a tag's content. -/
def tagName (content : List Char) : String :=
  String.ofList (content.takeWhile (fun c => !isMarkupBlank c))

/-- The attributes of a tag's content. -/
def tagAttributes (content : List Char) : Except TagFault (List (String × String)) :=
  let placed := place 0 content
  readAttributesWith (byteLength content) (content.length + 1) []
    (placed.dropWhile (fun placed => !isMarkupBlank placed.2))

end Markup
end CilGraph
