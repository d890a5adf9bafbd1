import CilGraph.Text.Numeral

namespace CilGraph
namespace Markup

/-!
# Escaped text

Character data and attribute values name some characters indirectly: five by
an entity, any other by its code point in a character reference.  Decoding goes
from the left and reports the first reference that it cannot decode.  Places in
a report are byte offsets in the UTF-8 form of the text that is decoded, since
that is the unit in which a document is stored.

`escape` is the other direction.  It writes the five characters that have an
entity by that entity and leaves every other character alone.
-/

/-- Why a character reference names no character. -/
inductive ReferenceFault where
  | signed
  | numeral (fault : Text.NumeralFault)
  | nullCharacter
  | notCharacter (code : Nat)
deriving DecidableEq, Repr

/-- The sentence that explains a fault. -/
def ReferenceFault.message : ReferenceFault -> String
  | .signed => "unexpected number sign"
  | .numeral fault => fault.message
  | .nullCharacter => "0x0 character is not permitted in XML"
  | .notCharacter code => s!"`{code}` is not a valid codepoint"

/-- Why an escaped text cannot be decoded. -/
inductive EscapeFault where
  | unterminated (start stop : Nat)
  | unknownEntity (start stop : Nat) (name : String)
  | reference (fault : ReferenceFault)
deriving DecidableEq, Repr

/-- The sentence that explains a fault. -/
def EscapeFault.message : EscapeFault -> String
  | .unterminated start stop =>
    s!"Error while escaping character at range {start}..{stop}: Cannot find ';' after '&'"
  | .unknownEntity start stop name => s!"at {start}..{stop}: unrecognized entity `{name}`"
  | .reference fault => s!"invalid character reference: {fault.message}"

/-- The number of bytes of a text in UTF-8. -/
def byteLength (text : List Char) : Nat :=
  (String.ofList text).utf8ByteSize

/-- The character that an entity names. -/
def entity? (name : List Char) : Option Char :=
  if name = ['l', 't'] then some '<'
  else if name = ['g', 't'] then some '>'
  else if name = ['a', 'm', 'p'] then some '&'
  else if name = ['a', 'p', 'o', 's'] then some '\''
  else if name = ['q', 'u', 'o', 't'] then some '"'
  else none

/-- Read the number of a character reference.  Neither sign is admitted, not
even the plus sign that numerals have elsewhere. -/
def readReference (radix : Nat) (digits : List Char) : Except ReferenceFault Char :=
  match digits with
  | '+' :: _ => .error .signed
  | '-' :: _ => .error .signed
  | _ =>
    match Text.readNumeral radix UInt32.size digits with
    | .error fault => .error (.numeral fault)
    | .ok code =>
      if code = 0 then .error .nullCharacter
      else if code.isValidChar then .ok (Char.ofNat code)
      else .error (.notCharacter code)

/-- The character that stands between an ampersand and its semicolon, where
`start` and `stop` are the places of the name. -/
def resolve (start stop : Nat) (name : List Char) : Except EscapeFault Char :=
  match name with
  | '#' :: 'x' :: digits => (readReference 16 digits).mapError .reference
  | '#' :: digits => (readReference 10 digits).mapError .reference
  | _ =>
    match entity? name with
    | some c => .ok c
    | none => .error (.unknownEntity start stop (String.ofList name))

/-- Decode from a byte offset on.  While a reference is open, `pending` holds
the place of its ampersand and the characters since, the latest first. -/
def unescapeFrom (total : Nat) :
    Nat -> Option (Nat × List Char) -> List Char -> Except EscapeFault (List Char)
  | _, none, [] => .ok []
  | _, some (start, _), [] => .error (.unterminated start total)
  | offset, none, c :: rest =>
    if c = '&' then unescapeFrom total (offset + 1) (some (offset, [])) rest
    else (unescapeFrom total (offset + c.utf8Size) none rest).map (c :: ·)
  | offset, some (start, body), c :: rest =>
    if c = ';' then
      match resolve (start + 1) offset body.reverse with
      | .error fault => .error fault
      | .ok decoded => (unescapeFrom total (offset + 1) none rest).map (decoded :: ·)
    else if c = '&' then .error (.unterminated start total)
    else unescapeFrom total (offset + c.utf8Size) (some (start, c :: body)) rest

/-- Decode every reference of a text. -/
def unescape (text : List Char) : Except EscapeFault (List Char) :=
  unescapeFrom (byteLength text) 0 none text

/-- How one character is written in character data and in attribute values. -/
def escapeChar : Char -> List Char
  | '<' => ['&', 'l', 't', ';']
  | '>' => ['&', 'g', 't', ';']
  | '&' => ['&', 'a', 'm', 'p', ';']
  | '\'' => ['&', 'a', 'p', 'o', 's', ';']
  | '"' => ['&', 'q', 'u', 'o', 't', ';']
  | c => [c]

/-- Write a text so that decoding gives it back. -/
def escape (text : List Char) : List Char :=
  text.flatMap escapeChar

end Markup
end CilGraph
