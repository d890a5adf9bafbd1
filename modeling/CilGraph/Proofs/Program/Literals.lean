import CilGraph.Program.Description
import CilGraph.Proofs.Lowering.Turns
import CilGraph.Proofs.Markup.Trees
import CilGraph.Proofs.Program.Sound
import Mathlib.Data.List.DropRight

namespace CilGraph

/-!
# Literals of a description

A literal goes a long way: from the characters of a document to the text of an
element, from there to a step of a draft and to the finished program, and when an
instruction loads it, to the pool of a body.  Behind the document nothing happens
to it.  In the document its blanks at both ends are lost, since the text of every
element is trimmed, whether it is code or a literal.

So a literal comes through unchanged exactly when it neither begins nor ends with
a blank.  Blanks and line ends inside it are kept, and so are characters that are
written by an entity or by their number; but a blank at an end is lost even if it
is written by its number, because a text is decoded first.
-/

/-! ## Blanks at the ends of a text -/

namespace Text

/-- A text neither begins nor ends with a blank. -/
def Unpadded (text : List Char) : Prop :=
  forall c, text.head? = some c ∨ text.getLast? = some c -> isBlank c = false

theorem dropWhile_eq_self_iff {blank : Char -> Bool} {text : List Char} :
    text.dropWhile blank = text ↔ forall c, text.head? = some c -> blank c = false := by
  cases text with
  | nil => simp
  | cons first rest => simp [List.dropWhile_eq_self_iff]

theorem dropTrailing_eq_self_iff {blank : Char -> Bool} {text : List Char} :
    dropTrailing blank text = text ↔ forall c, text.getLast? = some c -> blank c = false := by
  unfold dropTrailing
  rw [List.reverse_eq_iff, dropWhile_eq_self_iff, List.head?_reverse]

/-- Trimming leaves exactly the texts alone that have no blank at an end. -/
theorem trimChars_eq_self_iff {text : List Char} : trimChars text = text ↔ Unpadded text := by
  constructor
  · intro same
    have whole : text.dropWhile isBlank = text := by
      apply (List.dropWhile_suffix isBlank).eq_of_length_le
      calc
        text.length = (trimChars text).length := (congrArg List.length same).symm
        _ ≤ (text.dropWhile isBlank).length := (List.rdropWhile_prefix isBlank _).length_le
    unfold trimChars at same
    rw [whole] at same
    rintro c (first | last)
    · exact dropWhile_eq_self_iff.mp whole c first
    · exact dropTrailing_eq_self_iff.mp same c last
  · intro unpadded
    unfold trimChars
    rw [dropWhile_eq_self_iff.mpr fun c first => unpadded c (Or.inl first)]
    exact dropTrailing_eq_self_iff.mpr fun c last => unpadded c (Or.inr last)

end Text

/-! ## Literals of drafts and programs -/

/-- An entry is found if no other has its key. -/
theorem lookup_of_unique {Key Value : Type} [BEq Key] [LawfulBEq Key] {key : Key} {value : Value}
    {entries : List (Key × Value)} (member : (key, value) ∈ entries)
    (unique : forall entry, entry ∈ entries -> entry.1 = key -> entry.2 = value) :
    entries.lookup key = some value := by
  cases found : entries.lookup key with
  | none =>
      have differs := List.lookup_eq_none_iff.mp found _ member
      simp at differs
  | some other =>
      obtain ⟨front, back, split, _⟩ := List.lookup_eq_some_iff.mp found
      have same := unique (key, other) (split ▸ List.mem_append_right _ List.mem_cons_self) rfl
      exact congrArg some same

namespace Draft

variable {token : Token} {text : String}

theorem strings_subset_step (draft : Draft) (step : DraftStep) :
    draft.strings ⊆ (draft.step step).2.strings := by
  cases step with
  | string given text => cases given <;> exact List.subset_append_left _ _
  | type given | arrayType given | field given | method given | constructor given =>
      cases given <;> exact List.Subset.refl _
  | elementType | interface => exact List.Subset.refl _

theorem strings_subset_trace (draft : Draft) (steps : List DraftStep) :
    draft.strings ⊆ (draft.trace steps).2.strings := by
  induction steps generalizing draft with
  | nil => exact List.Subset.refl _
  | cons first rest inductionHypothesis =>
      exact List.Subset.trans (draft.strings_subset_step first) (inductionHypothesis _)

/-- A literal with a token of its own is kept under that token. -/
theorem mem_strings_trace {steps : List DraftStep} (draft : Draft)
    (member : DraftStep.string (some token) text ∈ steps) :
    (token, text) ∈ (draft.trace steps).2.strings := by
  induction steps generalizing draft with
  | nil => cases member
  | cons first rest inductionHypothesis =>
      rcases List.mem_cons.mp member with same | later
      · subst same
        exact strings_subset_trace _ rest (List.mem_append_right _ List.mem_cons_self)
      · exact inductionHypothesis _ later

/-- A literal of a draft is found in the program that is made of it. -/
theorem userString_of_build {steps : List DraftStep} {program : Program}
    (built : (ofSteps steps).build = .ok program)
    (member : DraftStep.string (some token) text ∈ steps) :
    program.userString token = .ok text := by
  obtain ⟨names, isProgram, completed⟩ := exists_completed built
  subst isProgram
  have distinct : (((ofSteps steps).arrange names).strings.map Prod.fst).Nodup :=
    (List.nodup_append.mp (nodup_definedTokens completed.typeTokens completed.tokens)).2.1
  have among : (token, text) ∈ ((ofSteps steps).arrange names).strings :=
    Ordered.mem_sortBy.mpr (mem_strings_trace {} member)
  have found : ((ofSteps steps).arrange names).strings.lookup token = some text := by
    apply lookup_of_unique among
    intro entry member same
    exact congrArg Prod.snd (List.inj_on_of_nodup_map distinct member among same)
  unfold Program.userString
  rw [found]

end Draft

/-! ## Literals of documents -/

namespace ProgramDescription

open Markup

/-- A document holds a literal: behind some events that leave only one element
open, there is an element for the token, and the characters between its tags are
the given ones. -/
inductive HoldsLiteral (lexer : Lexer) (document : String) (token : Token) (raw : List Char) :
    Prop
  | intro {before after : List Event} {content : List Char} {outermost : Element}
      {attributes : List (String × String)} {key : String}
      (occurs : (lexer.events document).events = before ++
        ((.opening content :: (Growth.characterEvents raw ++ [.closing "string".toList])) ++ after))
      (inside : before.foldlM (Growth.step lexer) Growth.start = .ok ⟨[outermost], none⟩)
      (tagged : Element.ofTag lexer content = .ok ⟨"string", attributes, [], ""⟩)
      (keyed : attributes.lookup "token" = some key) (isToken : Token.parse? key = some token)

theorem ofDescriptionWith_of_parse {lexer : Lexer} {document : String} {root : Element}
    (parsed : Element.parse lexer document = .ok root) (isProgram : root.name = "program") :
    Program.ofDescriptionWith lexer document =
      (ProgramDescription.steps root >>= fun steps => (Draft.ofSteps steps).build) := by
  unfold Program.ofDescriptionWith
  rw [Element.parseRoot_eq_ok.mpr ⟨parsed, isProgram⟩]
  rfl

/-- The parts of a successful reading. -/
theorem exists_of_ofDescriptionWith {lexer : Lexer} {document : String} {program : Program}
    (loaded : Program.ofDescriptionWith lexer document = .ok program) :
    exists root steps, Element.parse lexer document = .ok root ∧
      ProgramDescription.steps root = .ok steps ∧ (Draft.ofSteps steps).build = .ok program := by
  obtain ⟨root, rooted, continued⟩ := Result.bind_eq_ok.mp loaded
  obtain ⟨steps, stepped, built⟩ := Result.bind_eq_ok.mp continued
  exact ⟨root, steps, (Element.parseRoot_eq_ok.mp rooted).1, stepped, built⟩

theorem mem_steps_of_child {root child : Element} {steps : List DraftStep} {step : DraftStep}
    (stepped : ProgramDescription.steps root = .ok steps)
    (member : child ∈ root.childrenNamed "string") (read : stringStep child = .ok step) :
    step ∈ steps := by
  obtain ⟨names, _, continued⟩ := Result.bind_eq_ok.mp stepped
  obtain ⟨typeSteps, _, continued⟩ := Result.bind_eq_ok.mp continued
  obtain ⟨stringSteps, listed, assembled⟩ := Result.bind_eq_ok.mp continued
  obtain ⟨other, among, readAgain⟩ := Result.exists_of_mem_left (Result.mapM_eq_ok listed) member
  rw [read] at readAgain
  cases readAgain
  cases assembled
  exact List.mem_append_right _ among

/-- A literal of a document is a literal of the program, without the blanks at its
ends. -/
theorem userString_of_holdsLiteral {lexer : Lexer} {document : String} {token : Token}
    {raw text : List Char} {program : Program} (holds : HoldsLiteral lexer document token raw)
    (decodes : lexer.unescape raw = .ok text)
    (loaded : Program.ofDescriptionWith lexer document = .ok program) :
    program.userString token = .ok (String.ofList (Text.trimChars text)) := by
  obtain ⟨root, steps, parsed, stepped, built⟩ := exists_of_ofDescriptionWith loaded
  obtain ⟨occurs, inside, tagged, keyed, isToken⟩ := holds
  rename_i before after content outermost attributes key
  have adds := Growth.foldlM_leaf tagged decodes "string".toList outermost [] none
  rw [← List.append_assoc] at occurs
  have extension := Element.extends_root parsed occurs (by
    rw [List.foldlM_append, inside]
    exact adds)
  have child : (⟨"string", attributes, [], String.ofList (Text.trimChars text)⟩ : Element) ∈
      root.childrenNamed "string" :=
    List.mem_filter.mpr ⟨extension.children.subset (List.mem_append_right _ List.mem_cons_self),
      rfl⟩
  apply Draft.userString_of_build built
  apply mem_steps_of_child stepped child
  have isRead : readToken key = .ok token := by simp only [readToken, isToken]
  have hasToken : tokenOf ⟨"string", attributes, [], String.ofList (Text.trimChars text)⟩ =
      .ok token :=
    Result.bind_eq_ok.mpr ⟨key, Element.required_eq_ok.mpr keyed, isRead⟩
  exact Result.bind_eq_ok.mpr ⟨token, hasToken, rfl⟩

end ProgramDescription

/-! ## Literals of bodies -/

namespace Lowering

theorem Opcode.loadsString_of_mem_table {opcode : Opcode} (listed : opcode ∈ Opcode.table)
    (named : opcode.mnemonic = "ldstr") :
    opcode.effect = some .loadString ∧ opcode.operand = .string := by
  have checked : forall opcode, opcode ∈ Opcode.table -> opcode.mnemonic = "ldstr" ->
      opcode.effect = some .loadString ∧ opcode.operand = .string := by
    decide +kernel
  exact checked opcode listed named

/-- A body holds a literal for an instruction: the node at its offset loads it from
its place in the pool. -/
def Pooled (body : LoweredBody) (offset : Nat) (literal : String) : Prop :=
  exists node position, node ∈ body.nodes ∧ node.offset = UInt32.ofNat offset ∧
    node.operation = .loadString ∧ node.constants = [UInt64.ofNat position] ∧
    body.strings[position]? = some literal ∧ node.text = Node.textOf literal

/-- A literal that is loaded enters the pool as the program has it. -/
theorem pooled_of_lower {lowering : Lowering} {code : List UInt8} {body : LoweredBody}
    (lowered : (lowering.lower code).result = .ok body) {sighting : Sighting}
    (seen : sighting ∈ (Cursor.start code).walk.1) (named : sighting.opcode.mnemonic = "ldstr") :
    exists operand literal, sighting.operands = [(4, operand)] ∧
      lowering.linkage.program.userString (tokenOf operand) = .ok literal ∧
      Pooled body sighting.offset literal := by
  obtain ⟨turns, final, accounted⟩ := accounted_of_lower lowered
  obtain ⟨turn, among, isSighting⟩ := accounted.exists_turn seen
  subst isSighting
  obtain ⟨isLoad, kind⟩ := Opcode.loadsString_of_mem_table turn.listed named
  have pooled := accounted.history.pool_prefix among
  have whole : final.strings = body.strings :=
    accounted.history.literals_append.trans accounted.strings.symm
  have within : forall node, node ∈ turn.nodes -> node ∈ body.nodes := by
    intro node member
    rw [accounted.nodes]
    exact List.mem_flatMap.mpr ⟨turn, among, member⟩
  rw [whole] at pooled
  obtain ⟨cursor, following, sighting, effect, before, after, discoveries, sees, hasEffect,
    unconstrained, performs⟩ := turn
  rw [hasEffect] at isLoad
  cases isLoad
  cases performs with
  | common isCommon => cases isCommon
  | @loadString operand literal reads found =>
      refine ⟨operand, literal, ?_, found, ?_⟩
      · have operands := sees.operands_eq (by rw [kind]; decide) (by rw [kind]; decide) reads
        rw [operands, kind]
        rfl
      · refine ⟨⟨before.nextId, UInt32.ofNat cursor.offset, .loadString, [],
          [UInt64.ofNat before.strings.length], Node.textOf literal⟩, before.strings.length,
          within _ ?_, ?_, rfl, rfl, ?_, rfl⟩
        · rw [Turn.nodes, added_of_append rfl]
          exact List.mem_singleton_self _
        · exact congrArg UInt32.ofNat sees.offset.symm
        · obtain ⟨others, same⟩ := pooled
          rw [← same]
          simp [Frame.emit, Frame.addString]

end Lowering

namespace ProgramDescription

open Markup

/-- Literals are trimmed.  A program that is read from a document has each literal of
it without the blanks at its ends, so it has the literal unchanged if and only if
there are no blanks at its ends.  A body that loads the literal has it in its pool as
the program has it. -/
theorem literals_trimmed {lexer : Lexer} {document : String} {token : Token}
    {raw text : List Char} {program : Program} (holds : HoldsLiteral lexer document token raw)
    (decodes : lexer.unescape raw = .ok text)
    (loaded : Program.ofDescriptionWith lexer document = .ok program) :
    program.userString token = .ok (String.ofList (Text.trimChars text)) ∧
    (program.userString token = .ok (String.ofList text) ↔ Text.Unpadded text) ∧
    forall (lowering : Lowering) code body sighting operand, lowering.linkage.program = program ->
      (lowering.lower code).result = .ok body -> sighting ∈ (Cursor.start code).walk.1 ->
      sighting.opcode.mnemonic = "ldstr" -> sighting.operands = [(4, operand)] ->
      Lowering.tokenOf operand = token ->
      Lowering.Pooled body sighting.offset (String.ofList (Text.trimChars text)) := by
  have found := userString_of_holdsLiteral holds decodes loaded
  refine ⟨found, ?_, ?_⟩
  · rw [found, Except.ok.injEq, String.ofList_inj]
    exact Text.trimChars_eq_self_iff
  · intro lowering code body sighting operand sameProgram lowered seen named single isToken
    obtain ⟨other, literal, operands, looked, pooled⟩ :=
      Lowering.pooled_of_lower lowered seen named
    rw [single] at operands
    cases operands
    rw [sameProgram, isToken, found] at looked
    cases looked
    exact pooled

/-! ## Documents for every literal -/

/-- A document with one literal, whose characters are given. -/
def literalDocument (raw : List Char) : List Char :=
  '<' :: ("program>".toList ++ '<' :: ("string token='0x70000001'>".toList ++
    (raw ++ '<' :: ("/string>".toList ++ '<' :: "/program>".toList))))

theorem readEvents_literalDocument {raw : List Char} (untagged : '<' ∉ raw) :
    readEvents (literalDocument raw) =
      ⟨[.opening "program".toList] ++ ((.opening "string token='0x70000001'".toList ::
        (Growth.characterEvents raw ++ [.closing "string".toList])) ++
          [.closing "program".toList]), none⟩ := by
  have program : readTag "program>".toList = .ok (.opening "program".toList, []) := by
    decide +kernel
  have string : readTag "string token='0x70000001'>".toList =
      .ok (.opening "string token='0x70000001'".toList, []) := by
    decide +kernel
  have stringEnd : readTag "/string>".toList = .ok (.closing "string".toList, []) := by
    decide +kernel
  have programEnd : readTag "/program>".toList = .ok (.closing "program".toList, []) := by
    decide +kernel
  have last (fuel : Nat) : readEventsWith (fuel + 1) ('<' :: "/program>".toList) =
      ⟨[.closing "program".toList], none⟩ := by
    have read := readEventsWith_tag (by decide +kernel) programEnd fuel []
    rw [List.append_nil] at read
    rw [read]
    cases fuel <;> rfl
  have enough : 5 ≤ (literalDocument raw).length := by
    have short : 5 ≤ "/program>".toList.length := by decide +kernel
    simp only [literalDocument, List.length_cons, List.length_append]
    omega
  obtain ⟨fuel, isFuel⟩ := Nat.exists_eq_add_of_le' enough
  change readEventsWith ((literalDocument raw).length + 1) (literalDocument raw) = _
  obtain ⟨others, left, characters⟩ := readEventsWith_characters untagged (fuel + 3)
    ("/string>".toList ++ '<' :: "/program>".toList)
  obtain ⟨more, isMore⟩ := Nat.exists_eq_add_of_le' (Nat.le_trans (Nat.le_add_left 2 _) left)
  rw [isFuel, literalDocument, readEventsWith_tag (by decide +kernel) program,
    readEventsWith_tag (by decide +kernel) string, characters, isMore,
    readEventsWith_tag (by decide +kernel) stringEnd, last]
  simp

/-- The tags of a document with one literal nest. -/
theorem readDocument_literalDocument {raw : List Char} (untagged : '<' ∉ raw) :
    readDocument (literalDocument raw) =
      ⟨[.opening "program".toList] ++ ((.opening "string token='0x70000001'".toList ::
        (Growth.characterEvents raw ++ [.closing "string".toList])) ++
          [.closing "program".toList]), none⟩ := by
  have program : tagName "program".toList = String.ofList "program".toList := by
    decide +kernel
  have string : tagName "string token='0x70000001'".toList = String.ofList "string".toList := by
    decide +kernel
  unfold readDocument
  rw [readEvents_literalDocument untagged]
  exact nest_leaf program string raw

section

variable {raw text : List Char}

theorem foldlM_step_program :
    [Event.opening "program".toList].foldlM (Growth.step .standard) Growth.start =
      .ok ⟨[⟨"program", [], [], ""⟩], none⟩ := by
  decide +kernel

theorem ofTag_string : Element.ofTag .standard "string token='0x70000001'".toList =
    .ok ⟨"string", [("token", "0x70000001")], [], ""⟩ := by
  decide +kernel

/-- The document of a literal holds it, whatever its characters are. -/
theorem holdsLiteral_literalDocument (untagged : '<' ∉ raw) :
    HoldsLiteral .standard (String.ofList (literalDocument raw)) ⟨0x70000001⟩ raw := by
  refine .intro (?_ : _ = _ ++ (_ ++ [.closing "program".toList])) foldlM_step_program
    ofTag_string rfl (by decide +kernel)
  change (readDocument (String.ofList (literalDocument raw)).toList).events = _
  rw [String.toList_ofList, readDocument_literalDocument untagged]

theorem parse_literalDocument (untagged : '<' ∉ raw) (decodes : unescape raw = .ok text) :
    Element.parse .standard (String.ofList (literalDocument raw)) =
      .ok ⟨"program", [], [⟨"string", [("token", "0x70000001")], [],
        String.ofList (Text.trimChars text)⟩], ""⟩ := by
  have adds := Growth.foldlM_leaf ofTag_string decodes "string".toList ⟨"program", [], [], ""⟩ []
    none
  rw [Element.parse_ofList, Element.ofReading, readDocument_literalDocument untagged]
  refine Result.bind_eq_ok.mpr ⟨⟨[], some _⟩, ?_, rfl⟩
  rw [List.foldlM_append, foldlM_step_program]
  change List.foldlM (Growth.step .standard) ⟨[⟨"program", [], [], ""⟩], none⟩ (_ ++ _) = _
  rw [List.foldlM_append, adds]
  refine Result.bind_eq_ok.mpr ⟨_, rfl, ?_⟩
  simp [Growth.step, Growth.attach, Element.push]

/-- The document of a literal is a program with this literal, trimmed. -/
theorem ofDescription_literalDocument (untagged : '<' ∉ raw) (decodes : unescape raw = .ok text) :
    Program.ofDescription (String.ofList (literalDocument raw)) =
      .ok ⟨[], [], [], [], [(⟨0x70000001⟩, String.ofList (Text.trimChars text))]⟩ := by
  rw [Program.ofDescription, ofDescriptionWith_of_parse (parse_literalDocument untagged decodes) rfl]
  generalize String.ofList (Text.trimChars text) = trimmed
  have hasToken : tokenOf ⟨"string", [("token", "0x70000001")], [], trimmed⟩ =
      .ok ⟨0x70000001⟩ :=
    Result.bind_eq_ok.mpr ⟨"0x70000001", rfl, by decide +kernel⟩
  refine Result.bind_eq_ok.mpr ⟨[.string (some ⟨0x70000001⟩) trimmed], ?_, rfl⟩
  refine Result.bind_eq_ok.mpr ⟨{}, rfl, ?_⟩
  refine Result.bind_eq_ok.mpr ⟨[], rfl, ?_⟩
  refine Result.bind_eq_ok.mpr ⟨[.string (some ⟨0x70000001⟩) trimmed], ?_, rfl⟩
  apply Result.mapM_of_forall₂
  exact .cons (Result.bind_eq_ok.mpr ⟨_, hasToken, rfl⟩) .nil

end

def sampleGreeting : Program where
  types := []
  names := []
  fields := []
  callables := []
  strings := [(⟨0x70000001⟩, "a < b")]

def sampleGreetingLowering : Lowering :=
  ⟨⟨sampleGreeting, [], []⟩, "Greet"⟩

/-- Load the literal and drop it. -/
def sampleGreetingCode : List UInt8 :=
  [0x00, 0x72, 0x01, 0x00, 0x00, 0x70, 0x26, 0x2A]

def sampleGreetingBody : LoweredBody where
  nodes := [⟨0, 0, .nop, [], [], none⟩, ⟨1, 1, .loadString, [], [0], some "a < b"⟩,
    ⟨2, 6, .pop, [1], [], none⟩, ⟨3, 7, .ret, [], [], none⟩]
  strings := ["a < b"]

theorem trimChars_sampleGreeting :
    String.ofList (Text.trimChars " a < b ".toList) = "a < b" := by
  decide +kernel

theorem sampleGreeting_trimmed :
    HoldsLiteral .standard (String.ofList (literalDocument (escape " a < b ".toList)))
      ⟨0x70000001⟩ (escape " a < b ".toList) ∧
    Lexer.standard.unescape (escape " a < b ".toList) = .ok " a < b ".toList ∧
    Program.ofDescription (String.ofList (literalDocument (escape " a < b ".toList))) =
      .ok sampleGreeting ∧
    sampleGreeting.userString ⟨0x70000001⟩ = .ok "a < b" ∧
    ¬ Text.Unpadded " a < b ".toList ∧
    (sampleGreetingLowering.lower sampleGreetingCode).result = .ok sampleGreetingBody ∧
    Lowering.Pooled sampleGreetingBody 1 "a < b" := by
  have decodes := unescape_escape " a < b ".toList
  have untagged := notMem_escape (Or.inl rfl) " a < b ".toList
  have holds := holdsLiteral_literalDocument untagged
  have loaded := ofDescription_literalDocument untagged decodes
  rw [trimChars_sampleGreeting] at loaded
  have lowered : (sampleGreetingLowering.lower sampleGreetingCode).result =
      .ok sampleGreetingBody := by
    decide +kernel
  have seen : exists sighting, sighting ∈ (Cursor.start sampleGreetingCode).walk.1 ∧
      sighting.opcode.mnemonic = "ldstr" ∧ sighting.operands = [(4, 0x70000001)] ∧
      sighting.offset = 1 := by
    decide +kernel
  obtain ⟨sighting, among, named, operands, isOffset⟩ := seen
  obtain ⟨found, unchanged, pooled⟩ := literals_trimmed holds decodes loaded
  rw [trimChars_sampleGreeting] at found pooled
  refine ⟨holds, decodes, loaded, found, ?_, lowered, ?_⟩
  · intro unpadded
    have different := found.symm.trans (unchanged.mpr unpadded)
    revert different
    decide +kernel
  · rw [← isOffset]
    exact pooled sampleGreetingLowering sampleGreetingCode sampleGreetingBody sighting 0x70000001
      rfl lowered among named operands (by decide)

/-- The literal of the sample is legal in a document and written in its escaped form,
and it does not come through. -/
theorem sampleGreeting_changed :
    HoldsLiteral .standard (String.ofList (literalDocument (escape " a < b ".toList)))
      ⟨0x70000001⟩ (escape " a < b ".toList) ∧
    Program.ofDescription (String.ofList (literalDocument (escape " a < b ".toList))) =
      .ok sampleGreeting ∧
    sampleGreeting.userString ⟨0x70000001⟩ ≠ .ok " a < b " := by
  have untagged := notMem_escape (Or.inl rfl) " a < b ".toList
  have loaded := ofDescription_literalDocument untagged (unescape_escape " a < b ".toList)
  rw [trimChars_sampleGreeting] at loaded
  exact ⟨holdsLiteral_literalDocument untagged, loaded, by decide +kernel⟩

end ProgramDescription
end CilGraph
