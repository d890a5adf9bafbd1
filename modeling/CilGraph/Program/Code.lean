import CilGraph.Error

namespace CilGraph

/-!
# Code in hexadecimal

A method body is written as pairs of hexadecimal digits with ASCII blanks
anywhere between the digits.  The blanks are removed first, also those inside a
pair, and the remaining bytes of the text are then taken two at a time.  Each
pair is a numeral of its own and so admits a plus sign before a single digit.
-/

namespace Code

/-- The blanks that may stand between digits, as bytes. -/
def isAsciiBlank (byte : UInt8) : Bool :=
  byte == 0x20 || byte == 0x09 || byte == 0x0A || byte == 0x0C || byte == 0x0D

/-- The text of two bytes.  Bytes that are not text are shown as nothing. -/
def pairText (first second : UInt8) : String :=
  (String.fromUTF8? ⟨#[first, second]⟩).getD ""

/-- The byte that a pair of digits stands for. -/
def readPair (first second : UInt8) : Result UInt8 :=
  let pair := pairText first second
  match Text.readNumeral 16 256 pair.toList with
  | .ok value => .ok (UInt8.ofNat value)
  | .error _ => .error (.ofDescription (.invalidHexByte pair))

/-- Read pairs of digits. -/
def readPairs : List UInt8 -> Result (List UInt8)
  | first :: second :: rest => do
    let byte ← readPair first second
    let bytes ← readPairs rest
    .ok (byte :: bytes)
  | _ => .ok []

/-- Read a body.  An odd number of digits is noticed before any pair is read. -/
def ofHex (text : String) : Result (List UInt8) :=
  let digits := text.toUTF8.data.toList.filter (fun byte => !isAsciiBlank byte)
  if digits.length % 2 = 0 then readPairs digits
  else .error (.ofDescription .oddHexDigits)

end Code
end CilGraph
