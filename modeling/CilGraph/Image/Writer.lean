import CilGraph.Bytes.LittleEndian
import CilGraph.Record

namespace CilGraph
namespace Image

/-!
# Writing images

An image is the binary form of records: a magic number, three counts, the type
records, the method records and the native symbols.  Numbers are little-endian.
A text is its length in bytes and then its UTF-8 form, where the length is
written in groups of seven bits, the lowest first, with the top bit set in all
groups but the last.  A node without a text is written with an empty one.
-/

/-- The number with which every image begins. -/
def magic : UInt32 := 0xDEADBEEF

/-- A 32-bit number. -/
def word (value : UInt32) : List UInt8 :=
  LittleEndian.split 4 value.toNat

/-- A 64-bit number. -/
def longWord (value : UInt64) : List UInt8 :=
  LittleEndian.split 8 value.toNat

/-- A number of items. -/
def count (value : Nat) : List UInt8 :=
  LittleEndian.split 4 value

/-- A truth value in one byte. -/
def flag (value : Bool) : List UInt8 :=
  [if value then 1 else 0]

/-- A length in groups of seven bits, at most `more` of them before the last. -/
def lengthGroups : Nat -> Nat -> List UInt8
  | 0, value => [UInt8.ofNat value]
  | more + 1, value =>
    if value < 128 then [UInt8.ofNat value]
    else UInt8.ofNat (value % 128 + 128) :: lengthGroups more (value / 128)

/-- The length of a text.  Five groups hold 32 bits. -/
def length (value : Nat) : List UInt8 :=
  lengthGroups 4 (value % UInt32.size)

/-- The UTF-8 form of a text. -/
def utf8 (text : String) : List UInt8 :=
  text.toUTF8.data.toList

/-- A text after its length. -/
def text (value : String) : List UInt8 :=
  let bytes := utf8 value
  length bytes.length ++ bytes

/-- Items after their number. -/
def list {Item : Type} (write : Item -> List UInt8) (items : List Item) : List UInt8 :=
  count items.length ++ items.flatMap write

/-- A pair of texts. -/
def textPair (pair : String × String) : List UInt8 :=
  text pair.1 ++ text pair.2

/-- A node of a method. -/
def node (node : Node) : List UInt8 :=
  word node.id ++ word node.offset ++ word node.operation.tag ++ text (node.text.getD "") ++
    list word node.inputs ++ list longWord node.constants

/-- A type record. -/
def typeRecord (record : TypeRecord) : List UInt8 :=
  text record.name ++ flag record.isStatic ++ list textPair record.fields

/-- A method record. -/
def methodRecord (record : MethodRecord) : List UInt8 :=
  text record.name ++ flag record.isStatic ++ flag record.isConstructor ++
    flag record.initLocals ++ word record.maxStack ++ list text record.strings ++
    list node record.nodes

/-- The image of records. -/
def write (records : Records) : List UInt8 :=
  word magic ++ count records.types.length ++ count records.methods.length ++
    count records.natives.length ++ records.types.flatMap typeRecord ++
    records.methods.flatMap methodRecord ++ records.natives.flatMap textPair

end Image
end CilGraph
