namespace CilGraph
namespace LittleEndian

/-!
# Little-endian numbers

Operands of instructions and numbers in an image are stored with their least
significant byte first.
-/

/-- The number that bytes stand for. -/
def combine : List UInt8 -> Nat
  | [] => 0
  | byte :: rest => byte.toNat + 256 * combine rest

/-- The lowest `width` bytes of a number. -/
def split : Nat -> Nat -> List UInt8
  | 0, _ => []
  | width + 1, value => UInt8.ofNat value :: split width (value / 256)

theorem length_split (width value : Nat) : (split width value).length = width := by
  induction width generalizing value with
  | zero => rfl
  | succ width ih => simp [split, ih]

end LittleEndian
end CilGraph
