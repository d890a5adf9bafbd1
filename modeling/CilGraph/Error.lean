import CilGraph.Attribute
import CilGraph.Markup.Element
import CilGraph.Token

namespace CilGraph

/-!
# Errors

Every way in which a program, a configuration, a body of code or an image can
be refused.  An error is a cause with the values that explain it; its wording
is in one function beside the type.  All errors are final: nothing resumes
after one.
-/

/-- Why the operand stack does not fit an instruction. -/
inductive StackFault where
  | emptyPop
  | missingArguments (needed available : Nat)
  | leftOver (count : Nat)
deriving DecidableEq, Repr

/-- The sentence that explains a fault. -/
def StackFault.message : StackFault -> String
  | .emptyPop => "pop from an empty operand stack"
  | .missingArguments needed available =>
    s!"call needs {needed} arguments, {available} on the stack"
  | .leftOver count => s!"{count} values left on the operand stack at return"

/-- Why bytes are not a program image. -/
inductive ImageFault where
  | wrongMagic (found expected : UInt32)
  | truncated (needed offset available : Nat)
  | invalidBoolean (byte : UInt8) (offset : Nat)
  | lengthOverflow (offset : Nat)
  | truncatedText (length offset : Nat)
  | invalidText (offset : Nat)
  | unknownOperation (tag node : UInt32)
deriving DecidableEq, Repr

/-- The sentence that explains a fault. -/
def ImageFault.message : ImageFault -> String
  | .wrongMagic found expected =>
    let shown := Text.hexUpper 8 found.toNat
    let wanted := Text.hexUpper 8 expected.toNat
    s!"Not a program image - magic 0x{shown}, expected 0x{wanted}"
  | .truncated needed offset available =>
    s!"Truncated image: {needed} bytes needed at offset {offset}, {available} available"
  | .invalidBoolean byte offset =>
    let shown := Text.hexUpper 2 byte.toNat
    s!"Invalid boolean 0x{shown} at offset {offset}"
  | .lengthOverflow offset => s!"7-bit encoded integer overflow at offset {offset}"
  | .truncatedText length offset =>
    s!"Truncated image: string of {length} bytes at offset {offset}"
  | .invalidText offset => s!"Invalid UTF-8 string at offset {offset}"
  | .unknownOperation tag node =>
    s!"Unknown operation tag {tag.toNat} in token {node.toNat}"

/-- The kind of callable that a place requires. -/
inductive CallableKind where
  | method
  | constructor
deriving DecidableEq, Repr

/-- The word for a kind of callable. -/
def CallableKind.name : CallableKind -> String
  | .method => "method"
  | .constructor => "constructor"

/-- The places from which a definition refers to a type. -/
inductive ReferenceRole where
  | typeReference
  | declaringType
  | fieldType
  | parameter
  | returnType
deriving DecidableEq, Repr

/-- How a message names a place. -/
def ReferenceRole.name : ReferenceRole -> String
  | .typeReference => "Type reference"
  | .declaringType => "Declaring type"
  | .fieldType => "Field type"
  | .parameter => "Parameter"
  | .returnType => "Return type"

/-- Why definitions do not make up a program. -/
inductive ProgramFault where
  | repeatedName (name : String)
  | repeatedTypeToken (name : String)
  | repeatedToken (token : Token)
  | unknownReference (role : ReferenceRole) (owner : String) (token : Token)
  | cyclicInheritance (name : String)
deriving DecidableEq, Repr

/-- The sentence that explains a fault. -/
def ProgramFault.message : ProgramFault -> String
  | .repeatedName name => s!"Type '{name}' is defined twice"
  | .repeatedTypeToken name => s!"Type token for '{name}' is already in use"
  | .repeatedToken token => s!"Token {token} is defined twice"
  | .unknownReference role owner token =>
    s!"{role.name} of '{owner}' references unknown type {token}"
  | .cyclicInheritance name => s!"Inheritance chain of '{name}' is cyclic"

/-- Why an element tree does not describe a program or a configuration. -/
inductive DescriptionFault where
  | noRoot
  | tag (fault : Markup.TagFault)
  | escape (fault : Markup.EscapeFault)
  | missingAttribute (element key : String)
  | notBoolean (element key value : String)
  | wrongRoot (expected found : String)
  | invalidToken (text : String)
  | attribute (fault : AttributeFault)
  | unknownType (name : String)
  | unknownElementType (token : Token)
  | unexpectedMember (element type : String)
  | invalidMaxStack (text : String)
  | oddHexDigits
  | invalidHexByte (pair : String)
  | unexpectedSetting (element : String)
deriving DecidableEq, Repr

/-- The sentence that explains a fault. -/
def DescriptionFault.message : DescriptionFault -> String
  | .noRoot => "XML document has no root element"
  | .tag fault => fault.message
  | .escape fault => fault.message
  | .missingAttribute element key => s!"<{element}> is missing attribute '{key}'"
  | .notBoolean element key value =>
    s!"<{element}> attribute '{key}' is not a boolean: '{value}'"
  | .wrongRoot expected found => s!"Expected <{expected}> root element, found <{found}>"
  | .invalidToken text => s!"Invalid metadata token '{text}'"
  | .attribute fault => fault.message
  | .unknownType name => s!"Unknown type '{name}'"
  | .unknownElementType token => s!"Unknown array element type {token}"
  | .unexpectedMember element type => s!"Unexpected <{element}> inside type '{type}'"
  | .invalidMaxStack text => s!"Invalid maxstack '{text}'"
  | .oddHexDigits => "Odd number of hex digits in method body"
  | .invalidHexByte pair => s!"Invalid hex byte '{pair}' in method body"
  | .unexpectedSetting element => s!"Unexpected <{element}> in resolver configuration"

/-- Why a configuration does not fit a program. -/
inductive LinkageFault where
  | unknownType (name : String)
  | repeatedSubstitution (target : String)
  | unknownNativeMethod (symbol type method : String)
  | missingMember (replacement declaring member : String)
deriving DecidableEq, Repr

/-- The sentence that explains a fault. -/
def LinkageFault.message : LinkageFault -> String
  | .unknownType name => s!"Unknown type '{name}' in resolver configuration"
  | .repeatedSubstitution target => s!"Type '{target}' is substituted twice"
  | .unknownNativeMethod symbol type method =>
    s!"Native binding '{symbol}' names unknown method {type}::{method}"
  | .missingMember replacement declaring member =>
    s!"Substitute type '{replacement}' has no member matching {declaring}::{member}"

/-- Why a compilation cannot start, or has no end. -/
inductive RequestFault where
  | pointerSize (size : UInt32)
  | unknownEntryType (type : String)
  | unknownEntryMethod (type method : String)
  | ambiguousEntry (type method : String) (count : Nat)
  | noEntries
  | cyclicLayout (type : String)
deriving DecidableEq, Repr

/-- The sentence that explains a fault. -/
def RequestFault.message : RequestFault -> String
  | .pointerSize size => s!"Unsupported pointer size {size.toNat}, expected 4 or 8"
  | .unknownEntryType type => s!"Unknown entry type '{type}'"
  | .unknownEntryMethod type method => s!"Type '{type}' has no method '{method}'"
  | .ambiguousEntry type method count =>
    s!"Entry '{type}::{method}' is ambiguous ({count} overloads), use a token instead"
  | .noEntries => "No entry methods given"
  | .cyclicLayout type => s!"type {type} inherits from itself"

/-- What a user has to put right in a program description or a configuration. -/
inductive ConfigurationFault where
  | program (fault : ProgramFault)
  | description (fault : DescriptionFault)
  | linkage (fault : LinkageFault)
  | request (fault : RequestFault)
deriving DecidableEq, Repr

/-- The sentence that explains a fault. -/
def ConfigurationFault.message : ConfigurationFault -> String
  | .program fault => fault.message
  | .description fault => fault.message
  | .linkage fault => fault.message
  | .request fault => fault.message

/-- Why a file cannot be read or written. -/
inductive FileFault where
  | notFound
  | isDirectory
  | notDirectory
  | nameTooLong
  /-- What cannot be mapped into memory. -/
  | noDevice
  | notText
  | other (text : String)
deriving DecidableEq, Repr

/-- The sentence that explains a fault. -/
def FileFault.message : FileFault -> String
  | .notFound => "No such file or directory (os error 2)"
  | .isDirectory => "Is a directory (os error 21)"
  | .notDirectory => "Not a directory (os error 20)"
  | .nameTooLong => "File name too long (os error 36)"
  | .noDevice => "No such device (os error 19)"
  | .notText => "stream did not contain valid UTF-8"
  | .other text => text

/-- An error of the library. -/
inductive Error where
  /-- The instruction at an offset needs more bytes than there are. -/
  | truncatedStream (offset needed available : Nat)
  /-- There is no rule for an instruction.  The method is empty as long as the
  code is read outside a method. -/
  | unsupportedOpcode (method : String) (offset : Nat) (opcode : String)
  | stackImbalance (method : String) (offset : Nat) (fault : StackFault)
  /-- A `constrained.` instruction does not stand before a virtual call. -/
  | danglingConstraint (method : String) (offset : Nat)
  | missingBody (name : String)
  | unresolvedOverride (type method : String)
  | duplicateDefinition (name : String)
  | malformedImage (fault : ImageFault)
  | unknownToken (token : Token)
  | wrongCallable (token : Token) (expected : CallableKind)
  | configuration (fault : ConfigurationFault)
  | file (fault : FileFault)
  | document (fault : Markup.DocumentFault)
deriving DecidableEq, Repr

namespace Error

/-- The sentence that reports an error. -/
def message : Error -> String
  | truncatedStream offset needed available =>
    let place := Text.hexUpper 4 offset
    let shortage := s!"needed {needed} bytes, {available} available"
    s!"Truncated instruction stream at offset 0x{place}: {shortage}"
  | unsupportedOpcode method offset opcode =>
    let place := Text.hexUpper 4 offset
    s!"Unsupported opcode {opcode} at offset 0x{place} in {method}"
  | stackImbalance method offset fault =>
    let place := Text.hexUpper 4 offset
    s!"Stack imbalance at offset 0x{place} in {method}: {fault.message}"
  | danglingConstraint method offset =>
    let place := Text.hexUpper 4 offset
    s!"Dangling constrained. prefix before offset 0x{place} in {method}"
  | missingBody name => s!"No method body available for {name}"
  | unresolvedOverride type method => s!"No base slot of {type} matches override {method}"
  | duplicateDefinition name => s!"Mangled name {name} is claimed by two distinct definitions"
  | malformedImage fault => s!"Malformed - {fault.message}"
  | unknownToken token => s!"Metadata for token {token} not found"
  | wrongCallable token expected => s!"Token {token} does not reference a {expected.name}"
  | configuration fault => s!"Configuration error: {fault.message}"
  | file fault => fault.message
  | document fault => s!"XML error: {fault.message}"

/-- The error and its causes, the outermost first.  A file error repeats the
cause that it stands for, and a document error unfolds its classes. -/
def causes : Error -> List String
  | file fault => [fault.message, fault.message]
  | document fault => [(document fault).message, fault.message, fault.detail]
  | error => [error.message]

/-- Name the method in an error that was raised where none was known. -/
def inMethod (name : String) : Error -> Error
  | unsupportedOpcode method offset opcode =>
    unsupportedOpcode (if method.isEmpty then name else method) offset opcode
  | error => error

/-- The error of a document that could not be read. -/
def ofMarkup : Markup.Fault -> Error
  | .document fault => document fault
  | .tag fault => configuration (.description (.tag fault))
  | .escape fault => configuration (.description (.escape fault))
  | .noRoot => configuration (.description .noRoot)

/-- A program that is not well formed. -/
def ofProgram (fault : ProgramFault) : Error := configuration (.program fault)

/-- A description that cannot be followed. -/
def ofDescription (fault : DescriptionFault) : Error := configuration (.description fault)

/-- A configuration that does not fit its program. -/
def ofLinkage (fault : LinkageFault) : Error := configuration (.linkage fault)

/-- A compilation that cannot be carried out. -/
def ofRequest (fault : RequestFault) : Error := configuration (.request fault)

end Error

/-- What a function of the library returns when it may fail. -/
abbrev Result (Value : Type) : Type :=
  Except Error Value

/-- What an action on a state returns when it may fail.  What was done to the state before
a failure stays done. -/
abbrev Stateful (State Value : Type) : Type :=
  ExceptT Error (StateM State) Value

end CilGraph
