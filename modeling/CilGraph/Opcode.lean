import CilGraph.Effect

namespace CilGraph

/-!
# Instructions of the intermediate language

An instruction is encoded in one byte, or in two if the first is `0xFE`.  An
inline operand may follow, whose kind decides its width.  A branch table is
the one operand of variable length: a count and as many entries, all of the
same width.
-/

/-- The kind of the inline operand of an instruction. -/
inductive OperandKind where
  | none
  | shortIndex
  | index
  | shortInteger
  | integer
  | longInteger
  | shortFloat
  | float
  | shortBranch
  | branch
  | branchTable
  | method
  | field
  | type
  | string
  | token
  | signature
deriving DecidableEq, Repr

namespace OperandKind

/-- The width of an operand in bytes; for a branch table that of one entry. -/
def size : OperandKind -> Nat
  | none => 0
  | shortIndex => 1
  | shortInteger => 1
  | shortBranch => 1
  | index => 2
  | longInteger => 8
  | float => 8
  | _ => 4

/-- Whether an operand is a single branch displacement. -/
def isBranch : OperandKind -> Bool
  | shortBranch => true
  | branch => true
  | _ => false

/-- The customary name of an operand kind. -/
def name : OperandKind -> String
  | none => "InlineNone"
  | shortIndex => "ShortInlineVar"
  | index => "InlineVar"
  | shortInteger => "ShortInlineI"
  | integer => "InlineI"
  | longInteger => "InlineI8"
  | shortFloat => "ShortInlineR"
  | float => "InlineR"
  | shortBranch => "ShortInlineBrTarget"
  | branch => "InlineBrTarget"
  | branchTable => "InlineSwitch"
  | method => "InlineMethod"
  | field => "InlineField"
  | type => "InlineType"
  | string => "InlineString"
  | token => "InlineTok"
  | signature => "InlineSig"

end OperandKind

/-- An instruction of the language. -/
structure Opcode where
  /-- The byte of its encoding, or `0xFE00` plus the second byte. -/
  value : UInt16
  mnemonic : String
  operand : OperandKind
  /-- What it does when a body is lowered.  Some instructions have no rule. -/
  effect : Option Effect
deriving DecidableEq, Repr

/-- The number of bytes of an encoding without its operand. -/
def Opcode.size (opcode : Opcode) : Nat :=
  if opcode.value > 0xFF then 2 else 1

/-- The first byte of every encoding in two bytes. -/
def Opcode.escapeByte : UInt8 := 0xFE

/-- The bytes of an encoding without its operand. -/
def Opcode.bytes (opcode : Opcode) : List UInt8 :=
  if opcode.value > 0xFF then [escapeByte, opcode.value.toUInt8] else [opcode.value.toUInt8]

end CilGraph
