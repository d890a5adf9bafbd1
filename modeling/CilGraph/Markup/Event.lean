import CilGraph.Markup.Tag

namespace CilGraph
namespace Markup

/-!
# Markup events

A document is read as a flat sequence of events: tags, runs of text between
them, and declarations, comments and instructions, which are skipped.

Reading stops at the first place where a construct is not closed, and at the first
end tag that does not end the innermost open element.  The events
before that place stand, because a reader of the events may find a fault of
its own among them, and the earlier fault is the one to report.
-/

/-- Why a document cannot be divided into events. -/
inductive LexicalFault where
  | unclosedTag
  | unclosedComment
  | unclosedCharacterData
  | unclosedDoctype
  | unclosedInstruction
  | unknownMarkup
deriving DecidableEq, Repr

/-- The sentence that explains a fault. -/
def LexicalFault.message : LexicalFault -> String
  | .unclosedTag => "tag not closed: `>` not found before end of input"
  | .unclosedComment => "comment not closed: `-->` not found before end of input"
  | .unclosedCharacterData => "CDATA not closed: `]]>` not found before end of input"
  | .unclosedDoctype => "DOCTYPE not closed: `>` not found before end of input"
  | .unclosedInstruction =>
    "processing instruction or xml declaration not closed: `?>` not found before end of input"
  | .unknownMarkup => "unknown or missed symbol in markup"

/-- Why the tags of a document do not form a tree. -/
inductive StructureFault where
  | namelessDoctype
  | unmatchedEnd (found : String)
  | mismatchedEnd (expected found : String)
deriving DecidableEq, Repr

/-- The sentence that explains a fault. -/
def StructureFault.message : StructureFault -> String
  | .namelessDoctype =>
    "`<!DOCTYPE>` declaration does not contain a name of a document type"
  | .unmatchedEnd found => s!"close tag `</{found}>` does not match any open tag"
  | .mismatchedEnd expected found => s!"expected `</{expected}>`, but `</{found}>` was found"

/-- Why a document cannot be read as markup. -/
inductive DocumentFault where
  | lexical (fault : LexicalFault)
  | structural (fault : StructureFault)
deriving DecidableEq, Repr

/-- The sentence that explains a fault, without its class. -/
def DocumentFault.detail : DocumentFault -> String
  | .lexical fault => fault.message
  | .structural fault => fault.message

/-- The sentence that explains a fault, with its class in front. -/
def DocumentFault.message : DocumentFault -> String
  | .lexical fault => s!"syntax error: {fault.message}"
  | .structural fault => s!"ill-formed document: {fault.message}"

/-- One event of a document.  Tags and text are raw: attributes and references
in them are not read yet. -/
inductive Event where
  | opening (content : List Char)
  | selfClosing (content : List Char)
  | closing (name : List Char)
  | text (raw : List Char)
  | characterData (raw : List Char)
  | ignored
deriving DecidableEq, Repr

/-- Divide a text at the first closing angle bracket at which a running state
allows it.  The bracket belongs to neither part. -/
def splitAtClose {State : Type} (step : State -> Char -> State) (closes : State -> Bool) :
    State -> List Char -> Option (List Char × List Char)
  | _, [] => none
  | state, c :: rest =>
    if c = '>' ∧ closes state = true then some ([], rest)
    else (splitAtClose step closes (step state c) rest).map
      (fun (content, after) => (c :: content, after))

/-- The quote that is open in a tag, if any.  A bracket inside quotes closes
nothing. -/
def stepQuote (quote : Option Char) (c : Char) : Option Char :=
  match quote with
  | none => if c = '"' ∨ c = '\'' then some c else none
  | some opened => if c = opened then none else quote

/-- The number of angle brackets that are open in a document type. -/
def stepDepth (depth : Nat) (c : Char) : Nat :=
  if c = '<' then depth + 1 else if c = '>' then depth - 1 else depth

/-- The characters that have been read, the latest first. -/
def stepHistory (history : List Char) (c : Char) : List Char :=
  c :: history

/-- A comment closes after two dashes that are not its opening ones. -/
def closesComment : List Char -> Bool
  | '-' :: '-' :: before => 3 ≤ before.length
  | _ => false

/-- Character data closes after two square brackets. -/
def closesCharacterData : List Char -> Bool
  | ']' :: ']' :: _ => true
  | _ => false

/-- An instruction closes after a question mark. -/
def closesInstruction : List Char -> Bool
  | '?' :: _ => true
  | _ => false

/-- Remove the blanks at the end of a closing tag's name.  A name of blanks
only is kept. -/
def closingName (content : List Char) : List Char :=
  if content.all isMarkupBlank then content else
    (content.reverse.dropWhile isMarkupBlank).reverse

/-- Whether a text begins with the word `DOCTYPE` after an exclamation mark, in
letters of either case. -/
def startsDoctype (content : List Char) : Bool :=
  (content.take 8).map Char.toUpper == "!DOCTYPE".toList

/-- Read a construct that begins with an exclamation mark, which is still part
of the text. -/
def readDeclaration (text : List Char) : Except DocumentFault (Event × List Char) :=
  match text with
  | '!' :: '[' :: _ =>
    match splitAtClose stepHistory closesCharacterData [] text with
    | some (content, rest) =>
      match "![CDATA[".toList.isPrefixOf? content with
      | some body => .ok (.characterData (body.take (body.length - 2)), rest)
      | none => .error (.lexical .unclosedCharacterData)
    | none => .error (.lexical .unclosedCharacterData)
  | '!' :: '-' :: _ =>
    match splitAtClose stepHistory closesComment [] text with
    | some (content, rest) =>
      if "!--".toList.isPrefixOf content then .ok (.ignored, rest)
      else .error (.lexical .unclosedComment)
    | none => .error (.lexical .unclosedComment)
  | '!' :: c :: _ =>
    if c = 'D' ∨ c = 'd' then
      match splitAtClose stepDepth (· == 0) 0 text with
      | some (content, rest) =>
        if startsDoctype content then
          if (content.drop 8).all isMarkupBlank then .error (.structural .namelessDoctype)
          else .ok (.ignored, rest)
        else .error (.lexical .unclosedDoctype)
      | none => .error (.lexical .unclosedDoctype)
    else .error (.lexical .unknownMarkup)
  | _ => .error (.lexical .unknownMarkup)

/-- Read an instruction, whose opening question mark is still part of the text. -/
def readInstruction (text : List Char) : Except DocumentFault (Event × List Char) :=
  match splitAtClose stepHistory closesInstruction [] text with
  | some (content, rest) =>
    if 1 < content.length then .ok (.ignored, rest) else .error (.lexical .unclosedInstruction)
  | none => .error (.lexical .unclosedInstruction)

/-- Read a tag. -/
def readTag (text : List Char) : Except DocumentFault (Event × List Char) :=
  match splitAtClose stepQuote Option.isNone none text with
  | none => .error (.lexical .unclosedTag)
  | some (content, rest) =>
    match content with
    | '/' :: name => .ok (.closing (closingName name), rest)
    | _ =>
      if content.getLast? = some '/' then .ok (.selfClosing content.dropLast, rest)
      else .ok (.opening content, rest)

/-- Read the construct after an opening angle bracket. -/
def readMarkup (text : List Char) : Except DocumentFault (Event × List Char) :=
  match text with
  | '!' :: _ => readDeclaration text
  | '?' :: _ => readInstruction text
  | _ => readTag text

/-- The events of a document, and the fault at which reading stopped. -/
structure Reading where
  events : List Event
  fault : Option DocumentFault
deriving DecidableEq, Repr

/-- Read events.  Each takes a character at least, so the length of the text is
fuel enough. -/
def readEventsWith : Nat -> List Char -> Reading
  | 0, _ => ⟨[], none⟩
  | _ + 1, [] => ⟨[], none⟩
  | fuel + 1, '<' :: rest =>
    match readMarkup rest with
    | .error fault => ⟨[], some fault⟩
    | .ok (event, after) =>
      let reading := readEventsWith fuel after
      ⟨event :: reading.events, reading.fault⟩
  | fuel + 1, text =>
    let reading := readEventsWith fuel (text.dropWhile (· != '<'))
    ⟨.text (text.takeWhile (· != '<')) :: reading.events, reading.fault⟩

/-- The events of a document.  A byte-order mark at its beginning is dropped. -/
def readEvents (document : List Char) : Reading :=
  let text := match document with
    | '\uFEFF' :: rest => rest
    | _ => document
  readEventsWith (text.length + 1) text

/-- The names of the elements that are open after an event, the innermost first. -/
def openedAfter (opened : List String) : Event -> Except StructureFault (List String)
  | .opening content => .ok (tagName content :: opened)
  | .closing name =>
    match opened with
    | [] => .error (.unmatchedEnd (String.ofList name))
    | expected :: outer =>
      if expected = String.ofList name then .ok outer
      else .error (.mismatchedEnd expected (String.ofList name))
  | _ => .ok opened

/-- Stop before the first end tag that ends nothing, where `fault` is what events end at
otherwise. -/
def nest (fault : Option DocumentFault) : List String -> List Event -> Reading
  | _, [] => ⟨[], fault⟩
  | opened, event :: rest =>
    match openedAfter opened event with
    | .error found => ⟨[], some (.structural found)⟩
    | .ok opened =>
      let reading := nest fault opened rest
      ⟨event :: reading.events, reading.fault⟩

/-- Read the characters of a document. -/
def readDocument (document : List Char) : Reading :=
  let reading := readEvents document
  nest reading.fault [] reading.events

end Markup
end CilGraph
