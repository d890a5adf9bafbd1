import CilGraph.Program.Code
import CilGraph.Proofs.Result
import CilGraph.Proofs.Text.Utf8

namespace CilGraph

/-!
# Hexadecimal code

The code of a body is written in pairs of hexadecimal digits, and blanks do not
count.  What is left without them is taken two bytes at a time, and each pair is
read as a numeral of its own.  A numeral may begin with a plus sign, and so may a
pair: a plus sign before a digit counts as a zero, anywhere in a body.

Nothing else that is no digit is let in.  A pair may hold a character outside ASCII,
or the end of one and the beginning of the next, but no byte of such a character is
a digit, and a pair that is no text is an empty numeral.
-/

/-! ## Hexadecimal numerals -/

namespace Text

variable {limit value result : Nat} {c : Char} {text : List Char}

theorem ascii_of_digit? (isDigit : digit? 16 c = some value) : c.toNat < 128 ∧ value < 16 := by
  obtain ⟨found, small⟩ := Option.filter_eq_some_iff.mp isDigit
  refine ⟨?_, of_decide_eq_true small⟩
  have ascii {last : Char} (below : c ≤ last) (isAscii : last.toNat < 128) : c.toNat < 128 :=
    Nat.lt_of_le_of_lt (UInt32.le_iff_toNat_le.mp below) isAscii
  unfold digitValue? at found
  split at found
  · rename_i range
    exact ascii range.2 (by decide)
  · split at found
    · rename_i range
      exact ascii range.2 (by decide)
    · split at found
      · rename_i range
        exact ascii range.2 (by decide)
      · cases found

/-- One step of reading digits. -/
theorem readDigits_cons_eq_ok :
    readDigits 16 limit value (c :: text) = .ok result ↔
      exists digit, digit? 16 c = some digit ∧ value * 16 + digit < limit ∧
        readDigits 16 limit (value * 16 + digit) text = .ok result := by
  rw [readDigits]
  cases digit? 16 c with
  | none => simp
  | some digit =>
      by_cases fits : value * 16 + digit < limit
      · simp [fits]
      · simp [fits]

theorem ascii_of_readDigits (read : readDigits 16 limit value text = .ok result) :
    forall c, c ∈ text -> c.toNat < 128 := by
  induction text generalizing value with
  | nil => exact fun _ member => absurd member List.not_mem_nil
  | cons c rest inductionHypothesis =>
      obtain ⟨digit, isDigit, _, later⟩ := readDigits_cons_eq_ok.mp read
      exact List.forall_mem_cons.mpr ⟨(ascii_of_digit? isDigit).1, inductionHypothesis later⟩

/-- A numeral is written in ASCII. -/
theorem ascii_of_readNumeral (read : readNumeral 16 limit text = .ok result) :
    forall c, c ∈ text -> c.toNat < 128 := by
  unfold readNumeral at read
  split at read
  · cases read
  · cases read
  · exact List.forall_mem_cons.mpr ⟨by decide, ascii_of_readDigits read⟩
  · exact ascii_of_readDigits read

/-- A numeral of two characters is a digit, or a plus sign that counts as nothing, and a
digit. -/
theorem readNumeral_pair_eq_ok {first second : Char} :
    readNumeral 16 256 [first, second] = .ok result ↔
      exists high low, (if first = '+' then some 0 else digit? 16 first) = some high ∧
        digit? 16 second = some low ∧ result = 16 * high + low := by
  by_cases isPlus : first = '+'
  · subst isPlus
    change readDigits 16 256 0 [second] = .ok result ↔ _
    rw [readDigits_cons_eq_ok, if_pos rfl]
    constructor
    · rintro ⟨low, isLow, _, same⟩
      cases same
      exact ⟨0, low, rfl, isLow, by omega⟩
    · rintro ⟨high, low, isHigh, isLow, same⟩
      cases isHigh
      have small := (ascii_of_digit? isLow).2
      refine ⟨low, isLow, by omega, congrArg Except.ok ?_⟩
      omega
  · have isDigits : readNumeral 16 256 [first, second] = readDigits 16 256 0 [first, second] := by
      unfold readNumeral
      split <;> simp_all
    rw [isDigits, readDigits_cons_eq_ok, if_neg isPlus]
    constructor
    · rintro ⟨high, isHigh, _, later⟩
      obtain ⟨low, isLow, _, same⟩ := readDigits_cons_eq_ok.mp later
      cases same
      exact ⟨high, low, isHigh, isLow, by omega⟩
    · rintro ⟨high, low, isHigh, isLow, same⟩
      have smallHigh := (ascii_of_digit? isHigh).2
      have smallLow := (ascii_of_digit? isLow).2
      refine ⟨high, isHigh, by omega, readDigits_cons_eq_ok.mpr ?_⟩
      refine ⟨low, isLow, by omega, congrArg Except.ok ?_⟩
      omega

end Text

namespace Code

/-! ## Pairs of digits -/

/-- The value of a byte as a hexadecimal digit. -/
def digitValue? (byte : UInt8) : Option Nat :=
  if 0x30 ≤ byte ∧ byte ≤ 0x39 then some (byte.toNat - 0x30)
  else if 0x41 ≤ byte ∧ byte ≤ 0x46 then some (byte.toNat - 0x41 + 10)
  else if 0x61 ≤ byte ∧ byte ≤ 0x66 then some (byte.toNat - 0x61 + 10)
  else none

/-- The plus sign. -/
def plus : UInt8 := 0x2B

/-- The value of a byte that may stand first in a pair. -/
def leadingValue? (byte : UInt8) : Option Nat :=
  if byte = plus then some 0 else digitValue? byte

theorem digitValue?_eq (byte : UInt8) :
    digitValue? byte =
      if byte.toNat < 128 then Text.digit? 16 (Char.ofNat byte.toNat) else none := by
  have checked : forall value, value < 256 -> digitValue? (UInt8.ofNat value) =
      if value < 128 then Text.digit? 16 (Char.ofNat value) else none := by
    decide +kernel
  have checkedByte := checked byte.toNat byte.toNat_lt
  rwa [UInt8.ofNat_toNat] at checkedByte

/-- A digit has the same value as a byte and as a character. -/
theorem digitValue?_ofNat {c : Char} (ascii : c.toNat < 128) :
    digitValue? (UInt8.ofNat c.toNat) = Text.digit? 16 c := by
  rw [digitValue?_eq, UInt8.toNat_ofNat_of_lt' (Nat.lt_trans ascii (by decide)), if_pos ascii,
    Char.ofNat_toNat]

theorem ascii_of_digitValue? {byte : UInt8} {value : Nat} (isDigit : digitValue? byte = some value) :
    byte.toNat < 128 ∧ value < 16 := by
  rw [digitValue?_eq] at isDigit
  split at isDigit
  · rename_i ascii
    exact ⟨ascii, (Text.ascii_of_digit? isDigit).2⟩
  · cases isDigit

theorem leadingValue?_ofNat {c : Char} (ascii : c.toNat < 128) :
    leadingValue? (UInt8.ofNat c.toNat) = if c = '+' then some 0 else Text.digit? 16 c := by
  have isPlus : UInt8.ofNat c.toNat = plus ↔ c = '+' := by
    constructor
    · intro same
      have code := congrArg UInt8.toNat same
      rw [UInt8.toNat_ofNat_of_lt' (Nat.lt_trans ascii (by decide))] at code
      rw [← Char.ofNat_toNat c, code]
      rfl
    · rintro rfl
      rfl
  unfold leadingValue?
  simp only [isPlus, digitValue?_ofNat ascii]

theorem leadingValue?_of_digit {byte : UInt8} {value : Nat}
    (isDigit : digitValue? byte = some value) : leadingValue? byte = some value := by
  unfold leadingValue?
  rw [if_neg, isDigit]
  rintro rfl
  cases isDigit

theorem ascii_of_leadingValue? {byte : UInt8} {value : Nat}
    (leads : leadingValue? byte = some value) : byte.toNat < 128 ∧ value < 16 := by
  unfold leadingValue? at leads
  split at leads
  · rename_i isPlus
    cases leads
    rw [isPlus]
    decide
  · exact ascii_of_digitValue? leads

/-- Two characters of ASCII are the text of their bytes. -/
theorem toList_pairText {first second : Char} (ofFirst : first.toNat < 128)
    (ofSecond : second.toNat < 128) :
    (pairText (UInt8.ofNat first.toNat) (UInt8.ofNat second.toNat)).toList = [first, second] := by
  have ascii : forall c, c ∈ [first, second] -> c.toNat < 128 := by
    simp [ofFirst, ofSecond]
  have decodes : String.fromUTF8? ⟨[UInt8.ofNat first.toNat, UInt8.ofNat second.toNat].toArray⟩ =
      some (String.ofList [first, second]) := by
    rw [Text.fromUTF8?_eq_some_iff, Text.toUTF8_toList, String.toList_ofList,
      Text.bytes_of_ascii ascii]
    rfl
  change ((String.fromUTF8? ⟨[UInt8.ofNat first.toNat, UInt8.ofNat second.toNat].toArray⟩).getD
    "").toList = _
  rw [decodes, Option.getD_some, String.toList_ofList]

/-- A pair that is read as a numeral is two characters of ASCII. -/
theorem exists_of_readNumeral_pairText {first second : UInt8} {limit value : Nat}
    (read : Text.readNumeral 16 limit (pairText first second).toList = .ok value) :
    exists high low : Char, high.toNat < 128 ∧ low.toNat < 128 ∧
      first = UInt8.ofNat high.toNat ∧ second = UInt8.ofNat low.toNat := by
  have ascii := Text.ascii_of_readNumeral read
  unfold pairText at read ascii
  cases decodes : String.fromUTF8? ⟨[first, second].toArray⟩ with
  | none =>
      rw [decodes] at read
      cases read
  | some text =>
      rw [decodes, Option.getD_some] at ascii
      have bytes := Text.fromUTF8?_eq_some_iff.mp decodes
      rw [Text.toUTF8_toList, Text.bytes_of_ascii ascii] at bytes
      obtain ⟨high, rest, split, isFirst, others⟩ := List.map_eq_cons_iff.mp bytes
      obtain ⟨low, isRest, isSecond⟩ := List.map_eq_singleton_iff.mp others
      rw [split, isRest] at ascii
      exact ⟨high, low, ascii high (by simp), ascii low (by simp), isFirst.symm, isSecond.symm⟩

theorem exists_char_of_ascii {byte : UInt8} (ascii : byte.toNat < 128) :
    exists c : Char, c.toNat < 128 ∧ byte = UInt8.ofNat c.toNat := by
  have valid : byte.toNat.isValidChar := Or.inl (Nat.lt_trans ascii (by decide))
  have same : (Char.ofNat byte.toNat).toNat = byte.toNat := by
    unfold Char.ofNat
    rw [dif_pos valid]
    rfl
  exact ⟨Char.ofNat byte.toNat, by rwa [same], by rw [same, UInt8.ofNat_toNat]⟩

theorem readPair_eq_ok_iff_numeral {first second byte : UInt8} :
    readPair first second = .ok byte ↔
      exists value, Text.readNumeral 16 256 (pairText first second).toList = .ok value ∧
        byte = UInt8.ofNat value := by
  unfold readPair
  cases read : Text.readNumeral 16 256 (pairText first second).toList with
  | error fault => simp [read]
  | ok value => simp [read, eq_comm]

/-- A pair is read exactly if it is a digit, or a plus sign, and a digit. -/
theorem readPair_eq_ok {first second byte : UInt8} :
    readPair first second = .ok byte ↔
      exists high low, leadingValue? first = some high ∧ digitValue? second = some low ∧
        byte = UInt8.ofNat (16 * high + low) := by
  rw [readPair_eq_ok_iff_numeral]
  constructor
  · rintro ⟨value, read, isByte⟩
    obtain ⟨a, b, ofFirst, ofSecond, isFirst, isSecond⟩ := exists_of_readNumeral_pairText read
    subst isFirst isSecond
    rw [toList_pairText ofFirst ofSecond] at read
    obtain ⟨high, low, isHigh, isLow, isValue⟩ := Text.readNumeral_pair_eq_ok.mp read
    subst isValue
    rw [leadingValue?_ofNat ofFirst, digitValue?_ofNat ofSecond]
    exact ⟨high, low, isHigh, isLow, isByte⟩
  · rintro ⟨high, low, isHigh, isLow, isByte⟩
    obtain ⟨a, ofFirst, isFirst⟩ := exists_char_of_ascii (ascii_of_leadingValue? isHigh).1
    obtain ⟨b, ofSecond, isSecond⟩ := exists_char_of_ascii (ascii_of_digitValue? isLow).1
    subst isFirst isSecond
    rw [leadingValue?_ofNat ofFirst] at isHigh
    rw [digitValue?_ofNat ofSecond] at isLow
    refine ⟨16 * high + low, ?_, isByte⟩
    rw [toList_pairText ofFirst ofSecond]
    exact Text.readNumeral_pair_eq_ok.mpr ⟨high, low, isHigh, isLow, rfl⟩

/-- A pair that is not read is named. -/
theorem error_of_readPair {first second : UInt8} {error : Error}
    (refused : readPair first second = .error error) :
    error = .ofDescription (.invalidHexByte (pairText first second)) := by
  unfold readPair at refused
  simp only at refused
  split at refused
  · cases refused
  · exact (Except.error.inj refused).symm

/-! ## Rows of pairs -/

/-- Bytes two at a time.  A single one at the end is left out. -/
def pairs : List UInt8 -> List (UInt8 × UInt8)
  | first :: second :: rest => (first, second) :: pairs rest
  | _ => []

theorem readPairs_eq_mapM (digits : List UInt8) :
    readPairs digits = (pairs digits).mapM (fun pair => readPair pair.1 pair.2) := by
  induction digits using pairs.induct with
  | case1 first second rest inductionHypothesis =>
      rw [readPairs, pairs, List.mapM_cons, inductionHypothesis]
      rfl
  | case2 digits short =>
      rw [readPairs, pairs]
      · rfl
      all_goals exact short

theorem getElem?_pairs (digits : List UInt8) (index : Nat) (first second : UInt8) :
    (pairs digits)[index]? = some (first, second) ↔
      digits[2 * index]? = some first ∧ digits[2 * index + 1]? = some second := by
  induction digits using pairs.induct generalizing index with
  | case1 a b rest inductionHypothesis =>
      cases index with
      | zero => simp [pairs]
      | succ index =>
          rw [pairs, List.getElem?_cons_succ, inductionHypothesis, Nat.mul_succ,
            List.getElem?_cons_succ, List.getElem?_cons_succ]
          rfl
  | case2 digits short =>
      match digits, short with
      | [], _ => simp [pairs]
      | [_], _ => simp [pairs]
      | a :: b :: rest, short => exact absurd rfl (short a b rest)

theorem length_pairs {digits : List UInt8} (even : digits.length % 2 = 0) :
    2 * (pairs digits).length = digits.length := by
  induction digits using pairs.induct with
  | case1 a b rest inductionHypothesis =>
      rw [List.length_cons, List.length_cons] at even
      have shorter := inductionHypothesis (by omega)
      rw [pairs, List.length_cons, List.length_cons, List.length_cons]
      omega
  | case2 digits short =>
      match digits, short with
      | [], _ => rfl
      | [_], _ => cases even
      | a :: b :: rest, short => exact absurd rfl (short a b rest)

/-- The bytes of a text that are no blanks. -/
def digits (text : String) : List UInt8 :=
  text.toUTF8.data.toList.filter (fun byte => !isAsciiBlank byte)

theorem ofHex_of_even {text : String} (even : (digits text).length % 2 = 0) :
    ofHex text = (pairs (digits text)).mapM (fun pair => readPair pair.1 pair.2) := by
  rw [← readPairs_eq_mapM]
  exact if_pos even

theorem ofHex_of_odd {text : String} (odd : (digits text).length % 2 ≠ 0) :
    ofHex text = .error (.ofDescription .oddHexDigits) :=
  if_neg odd

theorem even_of_ofHex {text : String} {bytes : List UInt8} (read : ofHex text = .ok bytes) :
    (digits text).length % 2 = 0 := by
  by_contra odd
  rw [ofHex_of_odd odd] at read
  cases read

/-- What a body is read to is read pair by pair. -/
theorem forall₂_of_ofHex {text : String} {bytes : List UInt8} (read : ofHex text = .ok bytes) :
    List.Forall₂ (fun pair byte => readPair pair.1 pair.2 = .ok byte) (pairs (digits text))
      bytes := by
  rw [ofHex_of_even (even_of_ofHex read)] at read
  exact Result.mapM_eq_ok read

/-! ## Blanks between digits -/

/-- The blanks that may stand anywhere. -/
def blanks : List Char :=
  [' ', '\t', '\n', '\x0c', '\r']

/-- The characters of a text that are no blanks. -/
def unblanked (text : String) : List Char :=
  text.toList.filter (fun c => c ∉ blanks)

theorem filter_utf8EncodeChar (c : Char) :
    (String.utf8EncodeChar c).filter (fun byte => !isAsciiBlank byte) =
      if c ∉ blanks then String.utf8EncodeChar c else [] := by
  by_cases ascii : c.toNat < 128
  · have checked : forall value, value < 128 ->
        isAsciiBlank (UInt8.ofNat value) = decide (Char.ofNat value ∈ blanks) := by
      decide +kernel
    have same := checked c.toNat ascii
    rw [Char.ofNat_toNat] at same
    rw [Text.utf8EncodeChar_of_ascii ascii]
    by_cases blank : c ∈ blanks <;> simp [same, blank]
  · have noBlank : c ∉ blanks := by
      have allAscii : blanks.all (fun blank => decide (blank.toNat < 128)) = true := by decide
      exact fun blank => ascii (of_decide_eq_true (List.all_eq_true.mp allAscii c blank))
    rw [if_pos noBlank, List.filter_eq_self]
    intro byte member
    have high := Text.le_of_mem_utf8EncodeChar (Nat.le_of_not_lt ascii) member
    have allLow : forall value, value < 256 -> 128 ≤ value ->
        isAsciiBlank (UInt8.ofNat value) = false := by
      decide +kernel
    have notBlank := allLow byte.toNat byte.toNat_lt high
    rw [UInt8.ofNat_toNat] at notBlank
    rw [notBlank]
    rfl

/-- A blank is removed as a byte exactly where it stands as a character. -/
theorem digits_eq (text : String) :
    digits text = (unblanked text).flatMap String.utf8EncodeChar := by
  unfold digits unblanked
  rw [Text.toUTF8_toList, List.filter_flatMap]
  induction text.toList with
  | nil => rfl
  | cons c rest inductionHypothesis =>
      rw [List.flatMap_cons, inductionHypothesis, filter_utf8EncodeChar, List.filter_cons]
      by_cases blank : c ∈ blanks <;> simp [blank]

/-- A way to write a byte with two digits. -/
def Spells (spell : UInt8 -> List Char) : Prop :=
  forall byte, exists high low, spell byte = [high, low] ∧
    Text.digit? 16 high = some (byte.toNat / 16) ∧ Text.digit? 16 low = some (byte.toNat % 16)

theorem readPair_of_spells {spell : UInt8 -> List Char} (spells : Spells spell) (byte : UInt8) :
    exists first second, (spell byte).flatMap String.utf8EncodeChar = [first, second] ∧
      readPair first second = .ok byte := by
  obtain ⟨high, low, spelled, isHigh, isLow⟩ := spells byte
  have ofHigh := (Text.ascii_of_digit? isHigh).1
  have ofLow := (Text.ascii_of_digit? isLow).1
  rw [← digitValue?_ofNat ofHigh] at isHigh
  rw [← digitValue?_ofNat ofLow] at isLow
  refine ⟨UInt8.ofNat high.toNat, UInt8.ofNat low.toNat, ?_, ?_⟩
  · have ascii : forall c, c ∈ [high, low] -> c.toNat < 128 := by simp [ofHigh, ofLow]
    rw [spelled, Text.bytes_of_ascii ascii]
    rfl
  · refine readPair_eq_ok.mpr ⟨_, _, leadingValue?_of_digit isHigh, isLow, ?_⟩
    rw [Nat.div_add_mod, UInt8.ofNat_toNat]

section Rows

variable {row : UInt8 -> List UInt8}
  (each : forall byte, exists first second, row byte = [first, second] ∧
    readPair first second = .ok byte)
include each

theorem length_flatMap_rows (bytes : List UInt8) :
    (bytes.flatMap row).length = 2 * bytes.length := by
  induction bytes with
  | nil => rfl
  | cons byte rest inductionHypothesis =>
      obtain ⟨first, second, isRow, _⟩ := each byte
      rw [List.flatMap_cons, List.length_append, isRow, inductionHypothesis]
      change 2 + 2 * rest.length = 2 * (rest.length + 1)
      omega

theorem forall₂_flatMap_rows (bytes : List UInt8) :
    List.Forall₂ (fun pair byte => readPair pair.1 pair.2 = .ok byte)
      (pairs (bytes.flatMap row)) bytes := by
  induction bytes with
  | nil => exact .nil
  | cons byte rest inductionHypothesis =>
      obtain ⟨first, second, isRow, read⟩ := each byte
      rw [List.flatMap_cons, isRow]
      exact .cons read inductionHypothesis

end Rows

/-- Bytes that are written with two digits each are read back, with any blanks between
the digits. -/
theorem ofHex_of_spells {spell : UInt8 -> List Char} (spells : Spells spell) {text : String}
    {bytes : List UInt8} (written : unblanked text = bytes.flatMap spell) :
    ofHex text = .ok bytes := by
  have each := readPair_of_spells spells
  have rows : digits text =
      bytes.flatMap (fun byte => (spell byte).flatMap String.utf8EncodeChar) := by
    rw [digits_eq, written, List.flatMap_assoc]
  have even : (digits text).length % 2 = 0 := by
    rw [rows, length_flatMap_rows each, Nat.mul_mod_right]
  rw [ofHex_of_even even, rows]
  exact Result.mapM_of_forall₂ (forall₂_flatMap_rows each bytes)

/-- A byte with lower-case digits. -/
def spellLower (byte : UInt8) : List Char :=
  (Text.hexLower 2 byte.toNat).toList

/-- A byte with upper-case digits. -/
def spellUpper (byte : UInt8) : List Char :=
  (Text.hexUpper 2 byte.toNat).toList

theorem spells_of_digits {spell : UInt8 -> List Char} {shown : Nat -> Char}
    (areDigits : forall value, value < 16 -> Text.digit? 16 (shown value) = some value)
    (spelled : forall value, value < 256 ->
      spell (UInt8.ofNat value) = [shown (value / 16), shown (value % 16)]) : Spells spell := by
  intro byte
  have bound := byte.toNat_lt
  have ofByte := spelled byte.toNat bound
  rw [UInt8.ofNat_toNat] at ofByte
  exact ⟨_, _, ofByte, areDigits _ (by omega), areDigits _ (by omega)⟩

theorem spells_spellLower : Spells spellLower := by
  have areDigits : forall value, value < 16 ->
      Text.digit? 16 (Nat.digitChar value) = some value := by
    decide
  refine spells_of_digits areDigits fun value bound => ?_
  have spelled : forall value, value < 256 -> Text.padLeft '0' 2 (Nat.toDigits 16 value) =
      [Nat.digitChar (value / 16), Nat.digitChar (value % 16)] := by
    decide +kernel
  unfold spellLower Text.hexLower
  rw [UInt8.toNat_ofNat_of_lt' bound, String.toList_ofList, spelled value bound]

theorem spells_spellUpper : Spells spellUpper := by
  have areDigits : forall value, value < 16 ->
      Text.digit? 16 (Nat.digitChar value).toUpper = some value := by
    decide
  refine spells_of_digits areDigits fun value bound => ?_
  have spelled : forall value, value < 256 ->
      Text.padLeft '0' 2 ((Nat.toDigits 16 value).map Char.toUpper) =
        [(Nat.digitChar (value / 16)).toUpper, (Nat.digitChar (value % 16)).toUpper] := by
    decide +kernel
  unfold spellUpper Text.hexUpper
  rw [UInt8.toNat_ofNat_of_lt' bound, String.toList_ofList, spelled value bound]

/-! ## All bodies -/

/-- A hexadecimal digit. -/
def IsDigit (byte : UInt8) : Prop :=
  (digitValue? byte).isSome = true

/-- What a pair has to be: a digit, or a plus sign, and a digit. -/
def Readable (first second : UInt8) : Prop :=
  (first = plus ∨ IsDigit first) ∧ IsDigit second

instance (byte : UInt8) : Decidable (IsDigit byte) :=
  inferInstanceAs (Decidable ((digitValue? byte).isSome = true))

instance (first second : UInt8) : Decidable (Readable first second) :=
  inferInstanceAs (Decidable ((first = plus ∨ IsDigit first) ∧ IsDigit second))

theorem readable_iff {first second : UInt8} :
    Readable first second ↔ exists byte, readPair first second = .ok byte := by
  have leads : (first = plus ∨ IsDigit first) ↔ exists high, leadingValue? first = some high := by
    unfold IsDigit leadingValue?
    by_cases isPlus : first = plus <;> simp [isPlus, Option.isSome_iff_exists]
  unfold Readable
  rw [leads, IsDigit, Option.isSome_iff_exists]
  constructor
  · rintro ⟨⟨high, isHigh⟩, low, isLow⟩
    exact ⟨_, readPair_eq_ok.mpr ⟨high, low, isHigh, isLow, rfl⟩⟩
  · rintro ⟨byte, read⟩
    obtain ⟨high, low, isHigh, isLow, _⟩ := readPair_eq_ok.mp read
    exact ⟨⟨high, isHigh⟩, low, isLow⟩

/-- What holds of all pairs holds wherever two bytes stand at an even place. -/
theorem forall_mem_pairs_iff {digits : List UInt8} (good : UInt8 -> UInt8 -> Prop) :
    (forall pair, pair ∈ pairs digits -> good pair.1 pair.2) ↔
      forall index first second, digits[2 * index]? = some first ->
        digits[2 * index + 1]? = some second -> good first second := by
  constructor
  · intro each index first second isFirst isSecond
    exact each (first, second)
      (List.mem_of_getElem? ((getElem?_pairs digits index first second).mpr ⟨isFirst, isSecond⟩))
  · rintro each ⟨first, second⟩ member
    obtain ⟨index, found⟩ := List.mem_iff_getElem?.mp member
    obtain ⟨isFirst, isSecond⟩ := (getElem?_pairs digits index first second).mp found
    exact each index first second isFirst isSecond

/-- An even number of bytes are all in pairs. -/
theorem forall_mem_iff_pairs {digits : List UInt8} (even : digits.length % 2 = 0)
    {good : UInt8 -> Prop} :
    (forall digit, digit ∈ digits -> good digit) ↔
      forall pair, pair ∈ pairs digits -> good pair.1 ∧ good pair.2 := by
  induction digits using pairs.induct with
  | case1 first second rest inductionHypothesis =>
      rw [List.length_cons, List.length_cons] at even
      rw [pairs, List.forall_mem_cons, List.forall_mem_cons, List.forall_mem_cons,
        inductionHypothesis (by omega), and_assoc]
  | case2 digits short =>
      match digits, short with
      | [], _ => simp [pairs]
      | [_], _ => cases even
      | a :: b :: rest, short => exact absurd rfl (short a b rest)

/-- A body is accepted exactly if its digits are even in number and all pairs of them can
be read. -/
theorem ofHex_ok_iff {text : String} :
    (exists bytes, ofHex text = .ok bytes) ↔
      (digits text).length % 2 = 0 ∧
        forall pair, pair ∈ pairs (digits text) -> Readable pair.1 pair.2 := by
  constructor
  · rintro ⟨bytes, read⟩
    refine ⟨even_of_ofHex read, fun pair member => readable_iff.mpr ?_⟩
    obtain ⟨byte, _, isByte⟩ := Result.exists_of_mem_left (forall₂_of_ofHex read) member
    exact ⟨byte, isByte⟩
  · rintro ⟨even, readable⟩
    rw [ofHex_of_even even]
    exact Result.exists_mapM fun pair member => readable_iff.mp (readable pair member)

/-- Each byte of a body is read from the pair at its place. -/
theorem exists_pair_of_ofHex {text : String} {bytes : List UInt8} (read : ofHex text = .ok bytes)
    {index : Nat} {byte : UInt8} (found : bytes[index]? = some byte) :
    exists first second, (digits text)[2 * index]? = some first ∧
      (digits text)[2 * index + 1]? = some second ∧ readPair first second = .ok byte := by
  have paired := forall₂_of_ofHex read
  obtain ⟨within, isByte⟩ := List.getElem?_eq_some_iff.mp found
  have inPairs : index < (pairs (digits text)).length := paired.length_eq ▸ within
  obtain ⟨isFirst, isSecond⟩ :=
    (getElem?_pairs _ index _ _).mp (List.getElem?_eq_getElem inPairs)
  exact ⟨_, _, isFirst, isSecond, isByte ▸ paired.get inPairs within⟩

/-- What a text says as the code of a body. -/
structure ReadsHex (text : String) : Prop where
  /-- The text is accepted if and only if its digits are even in number and each pair of
  them is a digit, or a plus sign, and a digit. -/
  accepted_iff : (exists bytes, ofHex text = .ok bytes) ↔
    (digits text).length % 2 = 0 ∧
      forall index first second, (digits text)[2 * index]? = some first ->
        (digits text)[2 * index + 1]? = some second -> Readable first second
  /-- Each byte is made of its two digits, where a plus sign counts as nothing. -/
  pairwise : forall bytes, ofHex text = .ok bytes ->
    2 * bytes.length = (digits text).length ∧
      forall index byte, bytes[index]? = some byte -> exists first second high low,
        (digits text)[2 * index]? = some first ∧ (digits text)[2 * index + 1]? = some second ∧
          leadingValue? first = some high ∧ digitValue? second = some low ∧
          byte.toNat = 16 * high + low
  /-- Where no plus sign stands before a digit in a pair, only digits are accepted. -/
  hexadecimal_iff : (forall index second, (digits text)[2 * index]? = some plus ->
      (digits text)[2 * index + 1]? = some second -> ¬ IsDigit second) ->
    ((exists bytes, ofHex text = .ok bytes) ↔
      (digits text).length % 2 = 0 ∧ forall digit, digit ∈ digits text -> IsDigit digit)
  /-- A refusal names the first pair that cannot be read, if the number of digits is even. -/
  refused : forall error, ofHex text = .error error ->
    ((digits text).length % 2 ≠ 0 ∧ error = .ofDescription .oddHexDigits) ∨
      exists front first second back, pairs (digits text) = front ++ (first, second) :: back ∧
        (forall pair, pair ∈ front -> Readable pair.1 pair.2) ∧ ¬ Readable first second ∧
        error = .ofDescription (.invalidHexByte (pairText first second))
  /-- Bytes that are written in hexadecimal are read back, whatever blanks stand between
  the digits. -/
  written : forall bytes, unblanked text = bytes.flatMap spellLower ∨
      unblanked text = bytes.flatMap spellUpper -> ofHex text = .ok bytes

/-- Every text is read as a body by its pairs of digits, in which a plus sign may stand for
the first digit. -/
theorem ofHex_reads (text : String) : ReadsHex text := by
  constructor
  case accepted_iff =>
    rw [ofHex_ok_iff, forall_mem_pairs_iff Readable]
  case pairwise =>
    intro bytes read
    refine ⟨?_, fun index byte found => ?_⟩
    · rw [← (forall₂_of_ofHex read).length_eq, length_pairs (even_of_ofHex read)]
    · obtain ⟨first, second, isFirst, isSecond, isRead⟩ := exists_pair_of_ofHex read found
      obtain ⟨high, low, isHigh, isLow, isByte⟩ := readPair_eq_ok.mp isRead
      refine ⟨first, second, high, low, isFirst, isSecond, isHigh, isLow, ?_⟩
      have smallHigh := (ascii_of_leadingValue? isHigh).2
      have smallLow := (ascii_of_digitValue? isLow).2
      rw [isByte, UInt8.toNat_ofNat_of_lt' (show 16 * high + low < 256 by omega)]
  case hexadecimal_iff =>
    intro noPlus
    rw [ofHex_ok_iff]
    refine and_congr_right fun even => ?_
    have noPlusPair : forall pair, pair ∈ pairs (digits text) ->
        pair.1 = plus -> ¬ IsDigit pair.2 := by
      refine (forall_mem_pairs_iff fun first second => first = plus -> ¬ IsDigit second).mpr ?_
      intro index first second isFirst isSecond isPlus
      exact noPlus index second (isPlus ▸ isFirst) isSecond
    rw [forall_mem_iff_pairs even]
    refine forall₂_congr fun pair member => ?_
    constructor
    · rintro ⟨isPlus | isDigit, isSecond⟩
      · exact absurd isSecond (noPlusPair pair member isPlus)
      · exact ⟨isDigit, isSecond⟩
    · exact fun areDigits => ⟨Or.inr areDigits.1, areDigits.2⟩
  case refused =>
    intro error failed
    by_cases even : (digits text).length % 2 = 0
    · rw [ofHex_of_even even] at failed
      obtain ⟨front, ⟨first, second⟩, back, split, succeed, fails⟩ :=
        Result.exists_of_mapM_error failed
      refine Or.inr ⟨front, first, second, back, split, ?_, ?_, error_of_readPair fails⟩
      · exact fun pair member => readable_iff.mpr (succeed pair member)
      · intro readable
        obtain ⟨byte, read⟩ := readable_iff.mp readable
        rw [fails] at read
        cases read
    · rw [ofHex_of_odd even] at failed
      exact Or.inl ⟨even, (Except.error.inj failed).symm⟩
  case written =>
    rintro bytes (lower | upper)
    · exact ofHex_of_spells spells_spellLower lower
    · exact ofHex_of_spells spells_spellUpper upper

/-- A row with a plus sign, a blank inside a pair, and digits of both cases. -/
def sampleSigned : String := "+ 0\n2a 7B"

theorem digits_sampleSigned : digits sampleSigned = [0x2B, 0x30, 0x32, 0x61, 0x37, 0x42] := by
  decide +kernel

/-- The text with a plus sign is accepted, and the digits of two bytes are read back with
blanks between them. -/
theorem sampleSigned_reads :
    (exists bytes, ofHex sampleSigned = .ok bytes) ∧
      unblanked "2a\n7 b" = [0x2A, 0x7B].flatMap spellLower ∧
      ofHex "2a\n7 b" = .ok [0x2A, 0x7B] := by
  have written : unblanked "2a\n7 b" = [0x2A, 0x7B].flatMap spellLower := by decide +kernel
  refine ⟨(ofHex_reads sampleSigned).accepted_iff.mpr ⟨?_, ?_⟩, written,
    (ofHex_reads _).written _ (Or.inl written)⟩
  · rw [digits_sampleSigned]
    rfl
  · rw [← forall_mem_pairs_iff Readable, digits_sampleSigned]
    have allReadable : (pairs [0x2B, 0x30, 0x32, 0x61, 0x37, 0x42]).all
        (fun pair => decide (Readable pair.1 pair.2)) = true := by decide
    exact fun pair member => of_decide_eq_true (List.all_eq_true.mp allReadable pair member)

/-- A plus sign is no digit, and a text with one is accepted. -/
theorem sampleSigned_accepted :
    digits sampleSigned = [0x2B, 0x30, 0x32, 0x61, 0x37, 0x42] ∧ ¬ IsDigit 0x2B ∧
      ofHex sampleSigned = .ok [0x00, 0x2A, 0x7B] := by
  refine ⟨digits_sampleSigned, by decide, ?_⟩
  rw [ofHex_of_even (by rw [digits_sampleSigned]; rfl), digits_sampleSigned]
  decide +kernel

end Code
end CilGraph
