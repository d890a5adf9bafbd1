import CilGraph.Bytes.LittleEndian
import CilGraph.Error
import CilGraph.Opcode.Table

namespace CilGraph

/-!
# Cursors

A cursor stands at an instruction of a body.  It knows how many bytes lie
before it and holds the bytes from there on, and every question about the
instruction is answered from those.  Reading an operand and stepping over the
instruction check bounds on their own: an operand can be read from a truncated
branch table as long as it lies within the bytes there are.

An error of a cursor gives the offset of the instruction, the number of bytes
that the instruction needs up to what was asked for, and how many there are.
-/

/-- A place in a body of code. -/
structure Cursor where
  offset : Nat
  rest : List UInt8
deriving DecidableEq, Repr

namespace Cursor

/-- The beginning of a body. -/
def start (code : List UInt8) : Cursor :=
  ⟨0, code⟩

/-- Whether the cursor has passed the last instruction. -/
def isExhausted (cursor : Cursor) : Bool :=
  cursor.rest.isEmpty

/-- The length of the whole body. -/
def codeLength (cursor : Cursor) : Nat :=
  cursor.offset + cursor.rest.length

/-- The error that the instruction needs more bytes than there are. -/
def truncated (cursor : Cursor) (needed : Nat) : Error :=
  .truncatedStream cursor.offset needed cursor.rest.length

/-- The instruction with an encoding, or the error that there is none. -/
def lookup (cursor : Cursor) (value : UInt16) (shown : String) : Result Opcode :=
  match Opcode.ofValue? value with
  | some opcode => .ok opcode
  | none => .error (.unsupportedOpcode "" cursor.offset shown)

/-- The instruction at the cursor. -/
def opcode (cursor : Cursor) : Result Opcode :=
  match cursor.rest with
  | [] => .error (cursor.truncated 1)
  | first :: others =>
    if first = Opcode.escapeByte then
      match others with
      | [] => .error (cursor.truncated 2)
      | second :: _ =>
        cursor.lookup (0xFE00 + second.toUInt16) ("0xFE" ++ Text.hexUpper 2 second.toNat)
    else cursor.lookup first.toUInt16 ("0x" ++ Text.hexUpper 2 first.toNat)

/-- The number in the `width` bytes at a distance from the cursor. -/
def read (cursor : Cursor) (distance width : Nat) : Result Nat :=
  let bytes := (cursor.rest.drop distance).take width
  if bytes.length = width then .ok (LittleEndian.combine bytes)
  else .error (cursor.truncated (distance + width))

/-- The number of operands of the instruction.  A branch table counts its
length as an operand before its entries. -/
def operandCount (cursor : Cursor) : Result Nat := do
  let opcode ← cursor.opcode
  match opcode.operand with
  | .none => .ok 0
  | .branchTable =>
    let entries ← cursor.read opcode.size 4
    .ok (1 + entries)
  | _ => .ok 1

/-- The width of an operand, or zero if there is none of that index. -/
def operandSize (cursor : Cursor) (index : Nat) : Result Nat := do
  let opcode ← cursor.opcode
  let count ← cursor.operandCount
  .ok (if index < count then opcode.operand.size else 0)

/-- The value of an operand without regard to a sign, or zero if there is none
of that index. -/
def operandValue (cursor : Cursor) (index : Nat) : Result UInt64 := do
  let opcode ← cursor.opcode
  let count ← cursor.operandCount
  if index < count then
    let value ← cursor.read (opcode.size + index * opcode.operand.size) opcode.operand.size
    .ok (UInt64.ofNat value)
  else .ok 0

/-- The number of bytes of the instruction with its operands, whether or not
they are all there. -/
def instructionSize (cursor : Cursor) : Result Nat := do
  let opcode ← cursor.opcode
  let count ← cursor.operandCount
  .ok (opcode.size + count * opcode.operand.size)

/-- Step over the instruction, and tell whether another one follows.  The cursor is moved
once nothing can fail any more. -/
def stepOver : Stateful Cursor Bool := do
  let cursor ← get
  let size ← cursor.instructionSize
  let stop := cursor.offset + size
  if cursor.codeLength < stop then
    throw (cursor.truncated size)
  set (⟨stop, cursor.rest.drop size⟩ : Cursor)
  let moved ← get
  return !moved.isExhausted

/-- The answer of a step, and where the cursor stands afterwards. -/
def proceed (cursor : Cursor) : Result Bool × Cursor :=
  stepOver cursor

/-- The cursor at the next instruction. -/
def advance (cursor : Cursor) : Result Cursor :=
  match cursor.proceed with
  | (.ok _, next) => .ok next
  | (.error error, _) => .error error

end Cursor

/-- Read the low `width` bytes of a word as a signed number.  A width other
than one, two or four keeps the word. -/
def signExtend (value : UInt64) (width : Nat) : Int64 :=
  if width = 1 then value.toUInt8.toInt8.toInt64
  else if width = 2 then value.toUInt16.toInt16.toInt64
  else if width = 4 then value.toUInt32.toInt32.toInt64
  else value.toInt64

/-- The place that a branch leads to.  A displacement counts from the first byte
after the instruction. -/
def branchTarget (offset opcodeSize width : Nat) (displacement : UInt64) : Int64 :=
  signExtend displacement width + (UInt64.ofNat (offset + opcodeSize + width)).toInt64

end CilGraph
