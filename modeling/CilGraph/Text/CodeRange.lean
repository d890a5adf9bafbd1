namespace CilGraph
namespace Text

/-!
# Ranges of code points

A property of characters is given as a list of the ranges of code points that
have it, in ascending order.
-/

/-- Ranges of code points, each with its first and its last. -/
abbrev CodeRanges := List (Nat × Nat)

namespace CodeRanges

/-- Whether a character lies in one of the ranges. -/
def has (ranges : CodeRanges) (c : Char) : Bool :=
  ranges.any (fun range => range.1 ≤ c.toNat && c.toNat ≤ range.2)

end CodeRanges
end Text
end CilGraph
