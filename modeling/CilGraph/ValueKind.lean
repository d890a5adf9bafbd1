namespace CilGraph

/-!
# Value kinds

Loads, stores and conversions come in forms for each representation of a
number.  The kind is the constant by which a node tells the forms apart.
-/

/-- The representation of a value. -/
inductive ValueKind where
  | i
  | i1
  | i2
  | i4
  | i8
  | u
  | u1
  | u2
  | u4
  | u8
  | r4
  | r8
  /-- A float made from an unsigned integer. -/
  | rUn
  | object
deriving DecidableEq, Repr

namespace ValueKind

/-- The number of a kind among the constants of a node. -/
def constant : ValueKind -> UInt64
  | i => 0
  | i1 => 1
  | i2 => 2
  | i4 => 3
  | i8 => 4
  | u => 5
  | u1 => 6
  | u2 => 7
  | u4 => 8
  | u8 => 9
  | r4 => 10
  | r8 => 11
  | rUn => 12
  | object => 13

/-- The name of a kind. -/
def name : ValueKind -> String
  | i => "I"
  | i1 => "I1"
  | i2 => "I2"
  | i4 => "I4"
  | i8 => "I8"
  | u => "U"
  | u1 => "U1"
  | u2 => "U2"
  | u4 => "U4"
  | u8 => "U8"
  | r4 => "R4"
  | r8 => "R8"
  | rUn => "RUn"
  | object => "Object"

/-- The kind that a suffix of a mnemonic names, given whether the source of a
conversion is unsigned. -/
def ofSuffix? (suffix : String) (unsignedSource : Bool) : Option ValueKind :=
  match suffix with
  | "i" => some i
  | "i1" => some i1
  | "i2" => some i2
  | "i4" => some i4
  | "i8" => some i8
  | "u" => some u
  | "u1" => some u1
  | "u2" => some u2
  | "u4" => some u4
  | "u8" => some u8
  | "r4" => some r4
  | "r8" => some r8
  | "r" => if unsignedSource then some rUn else none
  | "ref" => some object
  | _ => none

/-- The kind that a mnemonic names after its first point.  The part that asks
for an overflow check is passed over. -/
def ofMnemonic? (mnemonic : String) : Option ValueKind :=
  let parts := (mnemonic.toList.splitOnP (· == '.')).map String.ofList
  match (parts.drop 1).filter (· != "ovf") with
  | [] => none
  | suffix :: rest => ofSuffix? suffix (rest.head? == some "un")

end ValueKind
end CilGraph
