import CilGraph.Text.CharWidth
import CilGraph.Text.Emoji

namespace CilGraph
namespace Text

/-!
# Display width

The width of a text is the number of terminal columns that its characters take.
Where characters fuse on the screen, their columns do not simply add up:

* a selector behind a character makes it a picture, a plain symbol, or a wide
  quotation mark;
* a figure and its skin tone are one picture, and so are pictures with joiners
  between them;
* some scripts write certain letters as one.

Whether a character fuses depends on what stands behind it.  So a text is read
from its end, and each character meets a summary of what has been read.
-/

/-! ## What stands behind a character -/

/-- The beginning of the text behind a character, as far as characters fuse
with it.  A letter is `joined` if a joiner stands before it. -/
inductive Follower where
  | nothing
  /-- A picture, or several that are joined. -/
  | picture
  | skinTone
  /-- A single regional indicator. -/
  | indicator
  | indicators
  /-- A joiner and a picture. -/
  | joinedPicture
  /-- The frame of a key, a joiner and a picture. -/
  | joinedKey
  /-- A single regional indicator, a joiner and a picture. -/
  | joinedIndicator
  /-- Two or more regional indicators, a joiner and a picture. -/
  | joinedIndicators (even : Bool)
  /-- The end of a flag of a region, written with tags, a joiner and a picture:
  digits, then letters, then the tag that closes. -/
  | joinedTags (digits letters : Nat)
  | alef
  | lamed (joined : Bool)
  | buginese (joined : Bool)
  /-- The Buginese vowel sign i and a joined letter. -/
  | bugineseSign
  | tifinagh (joined : Bool)
  /-- The Tifinagh consonant joiner and a consonant. -/
  | tifinaghJoiner
  | lisuTone
  | orkhon (joined : Bool)
  /-- A Khmer letter that can be written below another. -/
  | khmer
  | kiratE
  | kiratAi
deriving DecidableEq, Repr

/-- What a selector asks of the character before it. -/
inductive Selector where
  | picture
  | symbol
  | wide
deriving DecidableEq, Repr

/-- All that a character needs to know of the text behind it: what it could fuse
with, and what the selectors in between ask of it. -/
structure Behind where
  follower : Follower := .nothing
  picture : Bool := false
  symbol : Bool := false
  wide : Bool := false
deriving DecidableEq, Repr

namespace Follower

/-- Whether joiners and marks that are not shown may stand before a letter that
fuses. -/
def admitsMarks : Follower -> Bool
  | .lamed _ | .buginese _ | .bugineseSign | .tifinagh _ | .tifinaghJoiner => true
  | .lisuTone | .orkhon _ | .khmer => true
  | _ => false

/-- The follower with a joiner before it. -/
def join : Follower -> Follower
  | .lamed _ => .lamed true
  | .buginese _ => .buginese true
  | .tifinagh _ => .tifinagh true
  | .orkhon _ => .orkhon true
  | follower => follower

/-- Whether a joiner waits for a picture. -/
def awaitsPicture : Follower -> Bool
  | .joinedPicture | .joinedKey => true
  | _ => false

/-- Whether a letter is kept in mind across selectors. -/
def isLetter (follower : Follower) : Bool :=
  follower = .alef || follower.admitsMarks

end Follower

/-! ## Classes of characters -/

/-- Whether a character lies between two code points. -/
def isBetween (first last : Nat) (c : Char) : Bool :=
  first ≤ c.toNat && c.toNat ≤ last

/-- The zero width joiner. -/
def joiner : Char := '\u200D'

/-- What a character asks of the one before it, if it is a selector. -/
def selectorOf? (c : Char) : Option Selector :=
  match c.toNat with
  | 0xFE01 => some .wide
  | 0xFE0E => some .symbol
  | 0xFE0F => some .picture
  | _ => none

/-- The marks that are never shown. -/
def hiddenMarkRanges : CodeRanges := [
  (0x34F, 0x34F), (0x17B4, 0x17B5), (0x180B, 0x180D), (0x180F, 0x180F), (0xFE00, 0xFE0F),
  (0xE0100, 0xE01EF)]

/-- The forms of the Arabic letter alef. -/
def alefRanges : CodeRanges := [
  (0x622, 0x623), (0x625, 0x625), (0x627, 0x627), (0x671, 0x673), (0x675, 0x675), (0x773, 0x774),
  (0x870, 0x882)]

/-- The forms of the Arabic letter lam. -/
def lamRanges : CodeRanges := [
  (0x644, 0x644), (0x6B5, 0x6B8), (0x76A, 0x76A), (0x8A6, 0x8A6), (0x8C7, 0x8C7)]

/-- The Khmer letters that can be written below another. -/
def khmerRanges : CodeRanges := [
  (0x1780, 0x1782), (0x1784, 0x1787), (0x1789, 0x178C), (0x178E, 0x1793), (0x1795, 0x1798),
  (0x179B, 0x179D), (0x17A0, 0x17A0), (0x17A2, 0x17A2), (0x17A7, 0x17A7), (0x17AB, 0x17AC),
  (0x17AF, 0x17AF)]

/-- The Tifinagh consonants. -/
def tifinaghRanges : CodeRanges := [(0x2D31, 0x2D65), (0x2D6F, 0x2D6F)]

/-- The quotation marks that have a wide form. -/
def quotationRanges : CodeRanges := [(0x2018, 0x2019), (0x201C, 0x201D)]

/-- What a character is for those before it. -/
def followerOf (c : Char) : Follower :=
  match c.toNat with
  | 0x5DC => .lamed false
  | 0x1A10 => .buginese false
  | 0xA4FC => .lisuTone
  | 0xA4FD => .lisuTone
  | 0x10C03 => .orkhon false
  | 0x16D67 => .kiratE
  | 0x16D68 => .kiratAi
  | _ =>
    if alefRanges.has c then .alef
    else if khmerRanges.has c then .khmer
    else if tifinaghRanges.has c then .tifinagh false
    else if isIndicator c then .indicator
    else if isSkinTone c then .skinTone
    else if isPicture c then .picture
    else .nothing

/-! ## Reading from the end -/

/-- The columns that a character adds before a follower with which it fuses. -/
def Follower.fuse? (follower : Follower) (c : Char) : Option (Int × Follower) :=
  match follower with
  | .nothing => none
  | .picture => if c = joiner then some (0, .joinedPicture) else none
  | .skinTone =>
    if isFigure c then some (0, .picture)
    else if c = joiner then some (0, .joinedPicture)
    else none
  | .indicator => if isIndicator c then some (1, .indicators) else none
  | .indicators =>
    if isIndicator c then some (1, .indicators)
    else if c = joiner then some (0, .joinedPicture)
    else none
  | .joinedPicture =>
    if c.toNat = 0x20E3 then some (0, .joinedKey)
    else if c.toNat = 0xE007F then some (0, .joinedTags 0 0)
    else if isIndicator c then some (1, .joinedIndicator)
    else if isSkinTone c then some (0, .skinTone)
    else if isPicture c then some (0, .picture)
    else none
  | .joinedKey => none
  | .joinedIndicator => if isIndicator c then some (-1, .joinedIndicators true) else none
  | .joinedIndicators even =>
    if isIndicator c then
      if even then some (3, .joinedIndicators false) else some (-1, .joinedIndicators true)
    else if c = joiner then some (0, .joinedPicture)
    else none
  | .joinedTags digits letters =>
    if isBetween 0xE0061 0xE007A c then
      if digits = 0 ∧ letters < 6 then some (0, .joinedTags 0 (letters + 1)) else none
    else if isBetween 0xE0030 0xE0039 c then
      if digits < 3 ∧ letters ≤ 4 then some (0, .joinedTags (digits + 1) letters) else none
    else if c.toNat = 0x1F3F4 then
      if digits = 3 ∨ digits = 0 ∧ 3 ≤ letters then some (0, .picture) else none
    else none
  | .alef =>
    if lamRanges.has c then some (0, .nothing)
    else if isTransparent c then some (0, .alef)
    else none
  | .lamed joined => if joined ∧ c.toNat = 0x5D0 then some (0, .nothing) else none
  | .buginese joined => if joined ∧ c.toNat = 0x1A17 then some (0, .bugineseSign) else none
  | .bugineseSign => if c.toNat = 0x1A15 then some (0, .nothing) else none
  | .tifinagh joined =>
    if c.toNat = 0x2D7F then some (1, .tifinaghJoiner)
    else if joined ∧ tifinaghRanges.has c then some (0, .nothing)
    else none
  | .tifinaghJoiner => if tifinaghRanges.has c then some (-1, .nothing) else none
  | .lisuTone => if isBetween 0xA4F8 0xA4FB c then some (0, .nothing) else none
  | .orkhon joined => if joined ∧ c.toNat = 0x10C32 then some (0, .nothing) else none
  | .khmer => if c.toNat = 0x17D2 then some (-1, .nothing) else none
  | .kiratE =>
    match c.toNat with
    | 0x16D63 => some (0, .nothing)
    | 0x16D67 => some (0, .kiratAi)
    | 0x16D68 => some (1, .kiratE)
    | 0x16D69 => some (0, .nothing)
    | _ => none
  | .kiratAi => if c.toNat = 0x16D63 then some (0, .nothing) else none

/-- The columns that a character adds before a follower, and what both are for
the characters before them. -/
def Follower.extend (follower : Follower) (c : Char) : Int × Behind :=
  if follower.admitsMarks && c = joiner then (0, { follower := follower.join })
  else if follower.admitsMarks && hiddenMarkRanges.has c then (0, { follower })
  else
    match follower.fuse? c with
    | some (columns, follower) => (columns, { follower })
    | none => (charWidth c, { follower := followerOf c })

namespace Behind

/-- The text with a selector before it.  Before a letter the selectors add up.
Otherwise the selector is all that counts, but a joiner goes on waiting for a
picture if the selector is for pictures. -/
def select (behind : Behind) : Selector -> Behind
  | .picture =>
    if behind.follower.isLetter || behind.follower.awaitsPicture then
      { behind with picture := true }
    else { picture := true }
  | .symbol =>
    if behind.follower.isLetter then { behind with symbol := true } else { symbol := true }
  | .wide =>
    if behind.follower.isLetter then { behind with wide := true } else { wide := true }

/-- The text whose selector for pictures has found no use. -/
def withoutPicture (behind : Behind) : Behind :=
  if !behind.picture then behind
  else if behind.follower.isLetter then { behind with picture := false }
  else {}

/-- The columns that a character adds that does not become a picture, and what
the longer text is for the characters before it. -/
def extendPlain (behind : Behind) (c : Char) : Int × Behind :=
  if c.toNat ≤ 0xA0 then (1, {})
  else
    match selectorOf? c with
    | some selector => (0, behind.select selector)
    | none =>
      if behind.symbol && becomesSymbol c then (1, {})
      else if behind.wide && quotationRanges.has c then (2, {})
      else behind.follower.extend c

/-- The columns that a character adds before a text, and what the longer text
is for the characters before it. -/
def extend (behind : Behind) (c : Char) : Int × Behind :=
  if behind.picture && becomesPicture c then
    (if behind.follower.awaitsPicture then 0 else 2, { follower := .picture })
  else behind.withoutPicture.extendPlain c

end Behind

/-- The columns that a text takes, and what it is for characters before it. -/
def survey (text : List Char) : Int × Behind :=
  text.foldr
    (fun c found =>
      let step := found.2.extend c
      (found.1 + step.1, step.2))
    (0, {})

/-- The number of columns that a text without line ends takes. -/
def width (text : List Char) : Nat :=
  (survey text).1.toNat

/-! ## Plain texts -/

/-- A character is read after all those behind it. -/
theorem survey_cons (c : Char) (rest : List Char) :
    survey (c :: rest) =
      ((survey rest).1 + ((survey rest).2.extend c).1, ((survey rest).2.extend c).2) :=
  rfl

/-- Before a text that is nothing to others, a character up to the no-break
space takes a column and is nothing to others either. -/
theorem extend_plain {c : Char} (plain : c.toNat ≤ 0xA0) : Behind.extend {} c = (1, {}) := by
  simp [Behind.extend, Behind.extendPlain, plain]

/-- A text of characters up to the no-break space fuses nowhere. -/
theorem survey_eq_length {text : List Char} (h : forall c, c ∈ text -> c.toNat ≤ 0xA0) :
    survey text = ((text.length : Int), {}) := by
  induction text with
  | nil => rfl
  | cons c rest ih =>
    have others : survey rest = ((rest.length : Int), {}) :=
      ih (fun d member => h d (by simp [member]))
    have plain : c.toNat ≤ 0xA0 := h c (by simp)
    simp [survey_cons, others, extend_plain plain]

/-- A text of characters up to the no-break space takes a column for each. -/
theorem width_eq_length {text : List Char} (h : forall c, c ∈ text -> c.toNat ≤ 0xA0) :
    width text = text.length := by
  simp [width, survey_eq_length h]

end Text
end CilGraph
