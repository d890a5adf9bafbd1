import Mathlib.Data.List.Basic

namespace CilGraph
namespace Text

/-!
# The bytes of a text

A text has the bytes of its characters, one after another, and bytes are decoded to
a text exactly if they are its bytes.  A character of ASCII is one byte with its own
number.  All bytes of any other character are 128 and above, so that a byte of ASCII
never stands inside another character.
-/

/-- The bytes of a text are those of its characters. -/
theorem toUTF8_toList (text : String) :
    text.toUTF8.data.toList = text.toList.flatMap String.utf8EncodeChar := by
  change text.toByteArray.data.toList = _
  rw [← String.utf8Encode_toList, List.utf8Encode, List.data_toByteArray]

/-- Bytes are decoded exactly to the text whose bytes they are. -/
theorem fromUTF8?_eq_some_iff {bytes : List UInt8} {text : String} :
    String.fromUTF8? ⟨bytes.toArray⟩ = some text ↔ text.toUTF8.data.toList = bytes := by
  unfold String.fromUTF8?
  constructor
  · intro decodes
    split at decodes
    · cases decodes
      rfl
    · cases decodes
  · intro encodes
    subst encodes
    exact dif_pos text.isValidUTF8

theorem utf8EncodeChar_of_ascii {c : Char} (ascii : c.toNat < 128) :
    String.utf8EncodeChar c = [UInt8.ofNat c.toNat] :=
  if_pos (Nat.le_of_lt_succ ascii)

/-- No byte of a character outside ASCII is a byte of ASCII. -/
theorem le_of_mem_utf8EncodeChar {c : Char} (other : 128 ≤ c.toNat) {byte : UInt8}
    (member : byte ∈ String.utf8EncodeChar c) : 128 ≤ byte.toNat := by
  have high {value : Nat} (bound : value < 256) (least : 128 ≤ value) :
      128 ≤ (UInt8.ofNat value).toNat := by
    rwa [UInt8.toNat_ofNat_of_lt' bound]
  have notAscii : ¬ c.val.toNat ≤ 127 := Nat.not_le_of_lt other
  unfold String.utf8EncodeChar at member
  simp only [if_neg notAscii] at member
  split at member
  · simp only [List.mem_cons, List.not_mem_nil, or_false] at member
    rcases member with first | second <;> subst byte <;> exact high (by omega) (by omega)
  · split at member
    · simp only [List.mem_cons, List.not_mem_nil, or_false] at member
      rcases member with first | second | third <;> subst byte <;> exact high (by omega) (by omega)
    · simp only [List.mem_cons, List.not_mem_nil, or_false] at member
      rcases member with first | second | third | fourth <;> subst byte <;>
        exact high (by omega) (by omega)

/-- A text of ASCII has one byte for each character. -/
theorem bytes_of_ascii {text : List Char}
    (ascii : forall c, c ∈ text -> c.toNat < 128) :
    text.flatMap String.utf8EncodeChar = text.map (fun c => UInt8.ofNat c.toNat) := by
  induction text with
  | nil => rfl
  | cons c rest inductionHypothesis =>
      obtain ⟨isAscii, others⟩ := List.forall_mem_cons.mp ascii
      rw [List.flatMap_cons, utf8EncodeChar_of_ascii isAscii, inductionHypothesis others]
      rfl

end Text
end CilGraph
