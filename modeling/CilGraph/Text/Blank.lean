namespace CilGraph
namespace Text

/-!
# Blank characters

Keyword lists, metadata handles and element contents are trimmed and divided
at blank characters.  Blank means the Unicode property `White_Space`, not only
the ASCII blanks: a no-break space or an ideographic space separates two
keywords, whereas a zero-width space or a byte-order mark belongs to a word.

Both functions work on the list of characters, so that a later statement about
them follows the list and not a position in an encoded string.
-/

/-- The characters that carry the Unicode property `White_Space`. -/
def isBlank (c : Char) : Bool :=
  let code := c.toNat
  (9 ≤ code && code ≤ 13) || code == 32 || code == 0x85 || code == 0xA0 || code == 0x1680 ||
    (0x2000 ≤ code && code ≤ 0x200A) || code == 0x2028 || code == 0x2029 || code == 0x202F ||
    code == 0x205F || code == 0x3000

/-- Remove the blanks at the end of a list of characters. -/
def dropTrailing (blank : Char -> Bool) (text : List Char) : List Char :=
  (text.reverse.dropWhile blank).reverse

/-- Remove the blanks at both ends and keep those inside. -/
def trimChars (text : List Char) : List Char :=
  dropTrailing isBlank (text.dropWhile isBlank)

/-- `trimChars` on a string. -/
def trim (text : String) : String :=
  String.ofList (trimChars text.toList)

/-- The maximal runs of characters that are not blank, in order.  No word is
empty, and a text of blanks only has no words. -/
def words (text : String) : List String :=
  ((text.toList.splitOnP isBlank).filter (fun word => !word.isEmpty)).map String.ofList

end Text
end CilGraph
