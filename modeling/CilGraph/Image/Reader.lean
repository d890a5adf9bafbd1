import CilGraph.Error
import CilGraph.Image.Writer

namespace CilGraph
namespace Image

/-!
# Reading images

A reader takes bytes from the front of what is left of an image and knows how
many lie before.  Counts in an image are not trusted: an item is read only from
bytes that are there, so a count that is too large ends in an error and not in
a large allocation.  What follows the last record is ignored.

Repeated names are kept as they stand, whereas of several symbols for one name
the last counts.
-/

/-- What is left of an image. -/
structure Place where
  offset : Nat
  rest : List UInt8
deriving DecidableEq, Repr

/-- A reader of one value. -/
abbrev Reader (Value : Type) : Type :=
  StateT Place (Except ImageFault) Value

namespace Reader

/-- Refuse the image. -/
def refuse {Value : Type} (fault : ImageFault) : Reader Value :=
  fun _ => .error fault

/-- The number in the next `width` bytes. -/
def number (width : Nat) : Reader Nat := fun place =>
  let bytes := place.rest.take width
  if bytes.length = width then
    .ok (LittleEndian.combine bytes, ⟨place.offset + width, place.rest.drop width⟩)
  else .error (.truncated width place.offset place.rest.length)

/-- A byte. -/
def byte : Reader UInt8 := do
  return UInt8.ofNat (← number 1)

/-- A 32-bit number. -/
def word : Reader UInt32 := do
  return UInt32.ofNat (← number 4)

/-- A 64-bit number. -/
def longWord : Reader UInt64 := do
  return UInt64.ofNat (← number 8)

/-- A truth value. -/
def flag : Reader Bool := do
  let place ← get
  let value ← byte
  if value = 0 then return false
  else if value = 1 then return true
  else refuse (.invalidBoolean value place.offset)

/-- The remaining groups of a length, at most `left` of them.  The bits of a
fifth group that do not fit into the word are lost. -/
def lengthGroups : Nat -> UInt32 -> UInt32 -> Reader UInt32
  | 0, _, _ => do
    let place ← get
    refuse (.lengthOverflow place.offset)
  | left + 1, shift, value => do
    let group ← byte
    let value := value ||| ((group &&& 0x7F).toUInt32 <<< shift)
    if group &&& 0x80 = 0 then return value
    else lengthGroups left (shift + 7) value

/-- The length of a text, in at most five groups. -/
def length : Reader UInt32 :=
  lengthGroups 5 0 0

/-- A text. -/
def text : Reader String := do
  let size := (← length).toNat
  let place ← get
  let bytes := place.rest.take size
  if bytes.length < size then refuse (.truncatedText size place.offset)
  else
    match String.fromUTF8? ⟨bytes.toArray⟩ with
    | none => refuse (.invalidText place.offset)
    | some value =>
      set (⟨place.offset + size, place.rest.drop size⟩ : Place)
      return value

/-- A number of values. -/
def many {Value : Type} (read : Reader Value) : Nat -> Reader (List Value)
  | 0 => return []
  | count + 1 => do
    let first ← read
    let others ← many read count
    return first :: others

/-- Values after their number. -/
def list {Value : Type} (read : Reader Value) : Reader (List Value) := do
  let count ← word
  many read count.toNat

/-- A pair of texts. -/
def textPair : Reader (String × String) := do
  let first ← text
  let second ← text
  return (first, second)

/-- The operation of a node. -/
def operation (id : UInt32) : Reader Operation := do
  let tag ← word
  match Operation.ofTag? tag with
  | some operation => return operation
  | none => refuse (.unknownOperation tag id)

/-- A node of a method. -/
def node : Reader Node := do
  let id ← word
  let offset ← word
  let operation ← operation id
  let text ← text
  let inputs ← list word
  let constants ← list longWord
  return ⟨id, offset, operation, inputs, constants, Node.textOf text⟩

/-- A type record. -/
def typeRecord : Reader TypeRecord := do
  let name ← text
  let isStatic ← flag
  let fields ← list textPair
  return ⟨name, isStatic, fields⟩

/-- A method record. -/
def methodRecord : Reader MethodRecord := do
  let name ← text
  let isStatic ← flag
  let isConstructor ← flag
  let initLocals ← flag
  let maxStack ← word
  let strings ← list text
  let nodes ← list node
  return ⟨name, isStatic, isConstructor, initLocals, maxStack, strings, nodes⟩

/-- The magic number. -/
def magicWord : Reader Unit := do
  let found ← word
  if found = magic then return () else refuse (.wrongMagic found magic)

/-- All records of an image. -/
def records : Reader Records := do
  magicWord
  let typeCount ← word
  let methodCount ← word
  let nativeCount ← word
  let types ← many typeRecord typeCount.toNat
  let methods ← many methodRecord methodCount.toNat
  let natives ← many textPair nativeCount.toNat
  return {
    types := types
    methods := methods
    typeNames := Ordered.nameSet (types.map TypeRecord.name)
    methodNames := Ordered.nameSet (methods.map MethodRecord.name)
    natives := natives.foldl (fun known entry => Ordered.insertEntry entry.1 entry.2 known) [] }

end Reader

/-- Read an image. -/
def read (bytes : List UInt8) : Result Records :=
  match Reader.records ⟨0, bytes⟩ with
  | .ok (records, _) => .ok records
  | .error fault => .error (.malformedImage fault)

end Image
end CilGraph
