import CilGraph.Bytes.LittleEndian
import Mathlib.Algebra.Group.Nat.Defs

namespace CilGraph
namespace LittleEndian

/-!
# Numbers and their bytes

Putting the bytes of a number together gives the number back as far as it fits,
and splitting what bytes stand for gives the bytes back.  The first loses what
the width cannot hold; the second loses nothing.
-/

theorem combine_split (width value : Nat) :
    combine (split width value) = value % 256 ^ width := by
  induction width generalizing value with
  | zero => rw [Nat.pow_zero, Nat.mod_one, split, combine]
  | succ width inductionHypothesis =>
      have lowest : (UInt8.ofNat value).toNat = value % 256 := UInt8.toNat_ofNat'
      rw [split, combine, lowest, inductionHypothesis, Nat.pow_succ', Nat.mod_mul]

theorem combine_split_of_lt {width value : Nat} (fits : value < 256 ^ width) :
    combine (split width value) = value := by
  rw [combine_split, Nat.mod_eq_of_lt fits]

theorem split_combine (bytes : List UInt8) : split bytes.length (combine bytes) = bytes := by
  induction bytes with
  | nil => rfl
  | cons byte rest inductionHypothesis =>
      have bound := byte.toNat_lt
      have lowest : UInt8.ofNat (byte.toNat + 256 * combine rest) = byte := by
        apply UInt8.toNat_inj.mp
        rw [UInt8.toNat_ofNat']
        omega
      have others : (byte.toNat + 256 * combine rest) / 256 = combine rest := by omega
      rw [List.length_cons, combine, split, lowest, others, inductionHypothesis]

theorem combine_lt (bytes : List UInt8) : combine bytes < 256 ^ bytes.length := by
  induction bytes with
  | nil => exact Nat.one_pos
  | cons byte rest inductionHypothesis =>
      have bound := byte.toNat_lt
      rw [List.length_cons, combine, Nat.pow_succ']
      omega

end LittleEndian
end CilGraph
