import CilGraph.Text.Blank
import CilGraph.Text.Numeral

namespace CilGraph

/-!
# Attribute words

Types, methods and parameters carry attribute words.  A method's word is read
in three parts: an access level in the low three bits, which is one of eight
values and not a set, one bit that says whether a virtual method starts a slot
of its own, and a set of modifiers.  Bits without a meaning are dropped.

A word can also be spelled by keywords.  The modifiers add up, whereas among
access keywords the last one counts.
-/

/-- Keep the bits of a mask. -/
abbrev keepBits (mask word : UInt32) : UInt32 :=
  word &&& mask

/-- Whether all bits of `part` are set. -/
def hasBits (word part : UInt32) : Bool :=
  word &&& part == part

/-- The attributes of a type. -/
structure TypeAttributes where
  bits : UInt32
deriving DecidableEq, Repr

namespace TypeAttributes

/-- The type is visible outside its assembly. -/
def exported : TypeAttributes := ⟨0x0001⟩

/-- The type is an interface. -/
def interface : TypeAttributes := ⟨0x0020⟩

/-- The type has no instances of its own. -/
def abstract : TypeAttributes := ⟨0x0080⟩

/-- The type has no derived types. -/
def sealed : TypeAttributes := ⟨0x0100⟩

/-- Drop the bits without a meaning. -/
def ofWord (word : UInt32) : TypeAttributes :=
  ⟨keepBits 0x01A1 word⟩

/-- The union of two attribute sets. -/
def union (first second : TypeAttributes) : TypeAttributes :=
  ⟨first.bits ||| second.bits⟩

/-- Whether every attribute of `part` is present. -/
def contains (attributes part : TypeAttributes) : Bool :=
  hasBits attributes.bits part.bits

/-- The attributes that a keyword stands for. -/
def ofKeyword? : String -> Option TypeAttributes
  | "public" => some exported
  | "interface" => some (interface.union abstract)
  | "abstract" => some abstract
  | "sealed" => some sealed
  | _ => none

end TypeAttributes

/-- The attributes of a parameter. -/
structure ParamAttributes where
  bits : UInt32
deriving DecidableEq, Repr

namespace ParamAttributes

/-- Drop the bits without a meaning. -/
def ofWord (word : UInt32) : ParamAttributes :=
  ⟨keepBits 0x0013 word⟩

/-- A parameter without attributes. -/
def empty : ParamAttributes := ⟨0⟩

/-- The union of two attribute sets. -/
def union (first second : ParamAttributes) : ParamAttributes :=
  ⟨first.bits ||| second.bits⟩

/-- The attribute that a keyword stands for. -/
def ofKeyword? : String -> Option ParamAttributes
  | "in" => some ⟨0x0001⟩
  | "out" => some ⟨0x0002⟩
  | "optional" => some ⟨0x0010⟩
  | _ => none

end ParamAttributes

/-- The attributes of a method, divided into their three parts. -/
structure MethodAttributes where
  /-- The access level: three bits read as one number. -/
  access : UInt32
  /-- The modifier bits. -/
  modifiers : UInt32
  /-- The bit that starts a slot of its own, or zero. -/
  slotLayout : UInt32
deriving DecidableEq, Repr

namespace MethodAttributes

/-- Divide a method's attribute word. -/
def ofWord (word : UInt32) : MethodAttributes where
  access := keepBits 0x0007 word
  modifiers := keepBits 0x1CF0 word
  slotLayout := keepBits 0x0100 word

/-- Only the declaring type may see a private method.  The access level is
compared as a whole, since its bits do not add up. -/
def isPrivate (attributes : MethodAttributes) : Bool :=
  attributes.access == 0x0001

def isStatic (attributes : MethodAttributes) : Bool := hasBits attributes.modifiers 0x0010
def isFinal (attributes : MethodAttributes) : Bool := hasBits attributes.modifiers 0x0020
def isVirtual (attributes : MethodAttributes) : Bool := hasBits attributes.modifiers 0x0040
def isAbstract (attributes : MethodAttributes) : Bool := hasBits attributes.modifiers 0x0400

/-- Whether a virtual method starts a slot of its own in place of taking over
an inherited one. -/
def startsSlot (attributes : MethodAttributes) : Bool := hasBits attributes.slotLayout 0x0100

/-- What a keyword does to a word in the making. -/
inductive Keyword where
  /-- Replace the access level. -/
  | access (level : UInt32)
  /-- Add bits. -/
  | bits (mask : UInt32)

/-- The meaning of a method keyword. -/
def keyword? : String -> Option Keyword
  | "private" => some (.access 0x0001)
  | "famandassem" => some (.access 0x0002)
  | "assembly" => some (.access 0x0003)
  | "family" => some (.access 0x0004)
  | "famorassem" => some (.access 0x0005)
  | "public" => some (.access 0x0006)
  | "static" => some (.bits 0x0010)
  | "final" => some (.bits 0x0020)
  | "virtual" => some (.bits 0x0040)
  | "hidebysig" => some (.bits 0x0080)
  | "newslot" => some (.bits 0x0100)
  | "abstract" => some (.bits 0x0400)
  | "specialname" => some (.bits 0x0800)
  | "rtspecialname" => some (.bits 0x1000)
  | _ => none

end MethodAttributes

/-- Why an attribute text is refused. -/
inductive AttributeFault where
  | methodWord (text : String)
  | methodKeyword (word : String)
  | typeKeyword (word : String)
  | paramKeyword (word : String)
deriving DecidableEq, Repr

/-- The sentence that explains a fault. -/
def AttributeFault.message : AttributeFault -> String
  | .methodWord text => s!"Invalid method flags '{text}'"
  | .methodKeyword word => s!"Unknown method flag '{word}'"
  | .typeKeyword word => s!"Unknown type flag '{word}'"
  | .paramKeyword word => s!"Unknown parameter flag '{word}'"

namespace MethodAttributes

/-- Apply keywords from the left to an access level and a set of bits. -/
def applyKeywords : UInt32 -> UInt32 -> List String -> Except AttributeFault UInt32
  | access, bits, [] => .ok (access ||| bits)
  | access, bits, word :: rest =>
    match keyword? word with
    | none => .error (.methodKeyword word)
    | some (.access level) => applyKeywords level bits rest
    | some (.bits mask) => applyKeywords access (bits ||| mask) rest

/-- Read a method's attribute word from keywords, or from a hexadecimal
numeral after `0x`. -/
def wordOfText (text : String) : Except AttributeFault UInt32 :=
  match Text.trimChars text.toList with
  | '0' :: 'x' :: hex => (Text.readWord 16 hex).mapError (fun _ => .methodWord text)
  | _ => applyKeywords 0 0 (Text.words text)

end MethodAttributes

/-- Read the attributes of a type from keywords. -/
def TypeAttributes.ofText (text : String) : Except AttributeFault TypeAttributes :=
  (Text.words text).foldlM (fun attributes word =>
    match TypeAttributes.ofKeyword? word with
    | some more => .ok (attributes.union more)
    | none => .error (.typeKeyword word)) ⟨0⟩

/-- Read the attributes of a parameter from keywords. -/
def ParamAttributes.ofText (text : String) : Except AttributeFault ParamAttributes :=
  (Text.words text).foldlM (fun attributes word =>
    match ParamAttributes.ofKeyword? word with
    | some more => .ok (attributes.union more)
    | none => .error (.paramKeyword word)) ParamAttributes.empty

end CilGraph
