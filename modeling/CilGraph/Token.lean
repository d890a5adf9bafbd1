import CilGraph.Text.Blank
import CilGraph.Text.Numeral

namespace CilGraph

/-!
# Metadata tokens

A token is the 32-bit handle by which instructions and definitions name a
piece of metadata.  The high byte is the table of the named thing and the low
24 bits are its row.  Only four tables have a meaning here; a token of another
table is still a token and can be printed, compared and looked up in vain.
-/

/-- The tables whose rows a program defines. -/
inductive TokenKind where
  | typeDef
  | field
  | methodDef
  | userString
deriving DecidableEq, Repr

namespace TokenKind

/-- The table number in the high byte of a token. -/
def table : TokenKind -> UInt8
  | typeDef => 0x02
  | field => 0x04
  | methodDef => 0x06
  | userString => 0x70

/-- The kind with a given table number. -/
def ofTable? (table : UInt8) : Option TokenKind :=
  if table = 0x02 then some typeDef
  else if table = 0x04 then some field
  else if table = 0x06 then some methodDef
  else if table = 0x70 then some userString
  else none

theorem ofTable?_table (kind : TokenKind) : ofTable? kind.table = some kind := by
  cases kind <;> rfl

/-- The name of a kind. -/
def name : TokenKind -> String
  | typeDef => "TypeDef"
  | field => "Field"
  | methodDef => "MethodDef"
  | userString => "UserString"

end TokenKind

/-- A metadata token. -/
structure Token where
  value : UInt32
deriving DecidableEq, Hashable, Inhabited, Repr

namespace Token

/-- The token of a row; bits of the row beyond the low 24 are dropped. -/
def ofParts (kind : TokenKind) (row : UInt32) : Token :=
  ⟨(kind.table.toUInt32 <<< 24) ||| (row &&& 0x00FFFFFF)⟩

/-- The high byte. -/
def table (token : Token) : UInt8 :=
  (token.value >>> 24).toUInt8

/-- The low 24 bits. -/
def row (token : Token) : UInt32 :=
  token.value &&& 0x00FFFFFF

/-- The kind of thing a token names, if its table has a meaning here. -/
def kind? (token : Token) : Option TokenKind :=
  TokenKind.ofTable? token.table

/-- The zero token names nothing. -/
def isNull (token : Token) : Bool :=
  token.value == 0

/-- Tokens are ordered by their value, hence by table and then by row. -/
def precedes (first second : Token) : Bool :=
  first.value < second.value

/-- The eight hexadecimal digits by which messages show a token. -/
def toText (token : Token) : String :=
  "0x" ++ Text.hexLower 8 token.value.toNat

instance : ToString Token := ⟨toText⟩

/-- The token with its table and row spelled out. -/
def describe (token : Token) : String :=
  let row := token.row.toNat
  match token.kind? with
  | some kind => s!"Token({token}, {kind.name}, row: {row})"
  | none =>
    let table := Text.hexLower 2 token.table.toNat
    s!"Token({token}, table: 0x{table}, row: {row})"

/-- Read a token written in decimal, or in hexadecimal after `0x` or `0X`.
Blanks around the numeral are ignored. -/
def parse? (text : String) : Option Token :=
  let digits := Text.trimChars text.toList
  let word := match digits with
    | '0' :: 'x' :: hex => Text.readWord 16 hex
    | '0' :: 'X' :: hex => Text.readWord 16 hex
    | decimal => Text.readWord 10 decimal
  word.toOption.map Token.mk

end Token
end CilGraph
