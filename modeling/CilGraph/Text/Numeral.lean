namespace CilGraph
namespace Text

/-!
# Numerals

Reading a numeral of bounded size and writing hexadecimal digits.

A numeral is read from the left.  The first character that is no digit, or the
first digit that takes the value past the limit, ends the reading, so a text
with both faults reports the one that stands further left; a character that is
no digit is noticed before the value is.  One plus sign may stand in front,
a minus sign may not, and a sign alone is no numeral.
-/

/-- Why a text is not a numeral. -/
inductive NumeralFault where
  | empty
  | invalidDigit
  | tooLarge
deriving DecidableEq, Repr

/-- The sentence that explains a fault. -/
def NumeralFault.message : NumeralFault -> String
  | .empty => "cannot parse integer from empty string"
  | .invalidDigit => "invalid digit found in string"
  | .tooLarge => "number too large to fit in target type"

/-- The value of an ASCII digit or letter as a digit, without regard to a radix. -/
def digitValue? (c : Char) : Option Nat :=
  if '0' ≤ c ∧ c ≤ '9' then some (c.toNat - '0'.toNat)
  else if 'a' ≤ c ∧ c ≤ 'z' then some (c.toNat - 'a'.toNat + 10)
  else if 'A' ≤ c ∧ c ≤ 'Z' then some (c.toNat - 'A'.toNat + 10)
  else none

/-- The value of a digit of the given radix. -/
def digit? (radix : Nat) (c : Char) : Option Nat :=
  (digitValue? c).filter (· < radix)

/-- Read digits onto a value that has been read so far.  No value reaches the limit. -/
def readDigits (radix limit : Nat) : Nat -> List Char -> Except NumeralFault Nat
  | value, [] => .ok value
  | value, c :: rest =>
    match digit? radix c with
    | none => .error .invalidDigit
    | some digit =>
      if value * radix + digit < limit then readDigits radix limit (value * radix + digit) rest
      else .error .tooLarge

/-- Read a numeral whose value is below `limit`. -/
def readNumeral (radix limit : Nat) : List Char -> Except NumeralFault Nat
  | [] => .error .empty
  | ['+'] => .error .invalidDigit
  | '+' :: digits => readDigits radix limit 0 digits
  | digits => readDigits radix limit 0 digits

/-- Read a 32-bit word. -/
def readWord (radix : Nat) (text : List Char) : Except NumeralFault UInt32 :=
  (readNumeral radix UInt32.size text).map UInt32.ofNat

/-- Fill a text on the left up to a width; a longer text stays as it is. -/
def padLeft (fill : Char) (width : Nat) (text : List Char) : List Char :=
  List.replicate (width - text.length) fill ++ text

/-- Lower-case hexadecimal digits, at least `width` of them. -/
def hexLower (width value : Nat) : String :=
  String.ofList (padLeft '0' width (Nat.toDigits 16 value))

/-- Upper-case hexadecimal digits, at least `width` of them. -/
def hexUpper (width value : Nat) : String :=
  String.ofList (padLeft '0' width ((Nat.toDigits 16 value).map Char.toUpper))

end Text
end CilGraph
