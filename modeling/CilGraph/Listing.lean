import CilGraph.Cursor

namespace CilGraph

/-!
# Listings

A listing shows the instructions of a body one after another, with the first
few operands of each.  It ends with the body or at the first instruction that
cannot be read.
-/

/-- One instruction of a listing. -/
structure ListingRow where
  offset : Nat
  mnemonic : String
  operandCount : Nat
  /-- The width and value of the operands that are shown. -/
  operands : List (Nat × UInt64)
  size : Nat
  /-- Whether another instruction follows. -/
  continues : Bool
deriving DecidableEq, Repr

/-- The instructions of a body, and the error that ended the listing. -/
structure Listing where
  rows : List ListingRow
  error : Option Error
deriving DecidableEq, Repr

namespace Listing

/-- The instruction at a cursor, and the cursor after it. -/
def readRow (shown : Nat) (cursor : Cursor) : Result (ListingRow × Cursor) := do
  let opcode ← cursor.opcode
  let count ← cursor.operandCount
  let operands ← (List.range (min shown count)).mapM (fun index => do
    let size ← cursor.operandSize index
    let value ← cursor.operandValue index
    .ok (size, value))
  let size ← cursor.instructionSize
  let next ← cursor.advance
  .ok (⟨cursor.offset, opcode.mnemonic, count, operands, size, !next.isExhausted⟩, next)

/-- List instructions.  Each takes a byte, so the length of the code is fuel
enough. -/
def readWith (shown : Nat) : Nat -> Cursor -> Listing
  | 0, _ => ⟨[], none⟩
  | fuel + 1, cursor =>
    if cursor.isExhausted then ⟨[], none⟩
    else
      match readRow shown cursor with
      | .error error => ⟨[], some error⟩
      | .ok (row, next) =>
        let listing := readWith shown fuel next
        ⟨row :: listing.rows, listing.error⟩

/-- The listing of a body with at most `shown` operands for each instruction. -/
def ofCode (shown : Nat) (code : List UInt8) : Listing :=
  readWith shown code.length (Cursor.start code)

end Listing
end CilGraph
