import CilGraph.Proofs.Image.Reads
import CilGraph.Proofs.Ordered

namespace CilGraph

/-!
# Records survive their image

Writing records and reading the image gives the same records back.  The image
does not store the sets of names, an absent text is stored as an empty one, and
a number of items is stored in a word.  The round trip therefore has three
conditions, and each is stated for what it is.

* The sets of names are those of the records, and they and the map of external
  symbols are in order (`Records.Consistent`).
* No node has an empty text that counts as present (also `Consistent`).
* Every list has fewer than `2 ^ 32` items and every text fewer than `2 ^ 32`
  bytes (`Records.Fits`).

The first two are not conditions on a caller.  Records that are put together
step by step from nothing meet them, which is the second half of the main
statement.
-/

/-! ## Sizes that an image can store -/

/-- A list whose number of items fits into a word. -/
def Short {Item : Type} (items : List Item) : Prop :=
  items.length < 2 ^ 32

/-- A text whose number of bytes fits into a word. -/
def ShortText (text : String) : Prop :=
  text.utf8ByteSize < 2 ^ 32

instance {Item : Type} (items : List Item) : Decidable (Short items) :=
  inferInstanceAs (Decidable (items.length < 2 ^ 32))

instance (text : String) : Decidable (ShortText text) :=
  inferInstanceAs (Decidable (text.utf8ByteSize < 2 ^ 32))

/-- Every list and text of a node can be stored. -/
structure Node.Fits (node : Node) : Prop where
  text : forall text, node.text = some text -> ShortText text
  inputs : Short node.inputs
  constants : Short node.constants

/-- Every list and text of a type record can be stored. -/
structure TypeRecord.Fits (record : TypeRecord) : Prop where
  name : ShortText record.name
  fields : Short record.fields
  fieldTexts : forall field, field ∈ record.fields -> ShortText field.1 ∧ ShortText field.2

/-- Every list and text of a method record can be stored. -/
structure MethodRecord.Fits (record : MethodRecord) : Prop where
  name : ShortText record.name
  strings : Short record.strings
  eachString : forall text, text ∈ record.strings -> ShortText text
  nodes : Short record.nodes
  eachNode : forall node, node ∈ record.nodes -> node.Fits

/-- Every list and text of a collection of records can be stored. -/
structure Records.Fits (records : Records) : Prop where
  types : Short records.types
  eachType : forall record, record ∈ records.types -> record.Fits
  methods : Short records.methods
  eachMethod : forall record, record ∈ records.methods -> record.Fits
  natives : Short records.natives
  nativeTexts : forall entry, entry ∈ records.natives -> ShortText entry.1 ∧ ShortText entry.2

/-! ## Consistent records -/

/-- The sets of names are those of the records, the map of symbols is in order,
and no node has an empty text that counts as present. -/
structure Records.Consistent (records : Records) : Prop where
  typeNames_ascending : Ordered.Ascending records.typeNames
  mem_typeNames : forall name,
    name ∈ records.typeNames ↔ name ∈ records.types.map TypeRecord.name
  methodNames_ascending : Ordered.Ascending records.methodNames
  mem_methodNames : forall name,
    name ∈ records.methodNames ↔ name ∈ records.methods.map MethodRecord.name
  natives_ascending : Ordered.AscendingEntries records.natives
  texts_present : forall method, method ∈ records.methods ->
    forall node, node ∈ method.nodes -> node.text ≠ some ""

/-- A node that is made without inputs, constants and text and is given these
afterwards, in any order and any number of times. -/
inductive Node.Built : Node -> Prop
  | new (id offset : UInt32) (operation : Operation) :
      Node.Built ⟨id, offset, operation, [], [], none⟩
  | withInputs {node : Node} (built : Node.Built node) (inputs : List UInt32) :
      Node.Built { node with inputs := inputs }
  | withConstants {node : Node} (built : Node.Built node) (constants : List UInt64) :
      Node.Built { node with constants := constants }
  | withText {node : Node} (built : Node.Built node) (text : String) :
      Node.Built { node with text := Node.textOf text }

/-- Records that grow from nothing by one record or symbol after another. -/
inductive Records.Grown : Records -> Prop
  | empty : Records.Grown {}
  | addType {records : Records} (grown : Records.Grown records) (record : TypeRecord) :
      Records.Grown (records.addType record).2
  | addMethod {records : Records} (grown : Records.Grown records) (record : MethodRecord)
      (built : forall node, node ∈ record.nodes -> node.Built) :
      Records.Grown (records.addMethod record).2
  | bindNative {records : Records} (grown : Records.Grown records) (name symbol : String) :
      Records.Grown (records.bindNative name symbol)

theorem Node.textOf_ne_empty (text : String) : Node.textOf text ≠ some "" := by
  unfold Node.textOf
  split
  · exact fun impossible => nomatch impossible
  · rename_i notEmpty
    intro equal
    rw [Option.some.inj equal] at notEmpty
    exact notEmpty rfl

theorem Node.Built.text_ne_empty {node : Node} (built : node.Built) : node.text ≠ some "" := by
  induction built with
  | new id offset operation => exact fun impossible => nomatch impossible
  | withInputs built inputs inductionHypothesis => exact inductionHypothesis
  | withConstants built constants inductionHypothesis => exact inductionHypothesis
  | withText built text inductionHypothesis => exact Node.textOf_ne_empty text

/-! Each way to grow keeps records consistent. -/

namespace Records

theorem consistent_empty : Records.Consistent {} where
  typeNames_ascending := List.Pairwise.nil
  mem_typeNames := fun _ => Iff.rfl
  methodNames_ascending := List.Pairwise.nil
  mem_methodNames := fun _ => Iff.rfl
  natives_ascending := List.Pairwise.nil
  texts_present := fun _ member => nomatch member

/-- A set of names that gets a name stays the set of the names of a list that
gets it at its end. -/
theorem mem_insertName_concat {Item : Type} {names : List String} {items : List Item}
    {label : Item -> String} (members : forall name, name ∈ names ↔ name ∈ items.map label)
    (item : Item) (name : String) :
    name ∈ Ordered.insertName (label item) names ↔ name ∈ (items ++ [item]).map label := by
  rw [Ordered.mem_insertName, members, List.map_append, List.mem_append, List.map_singleton,
    List.mem_singleton, or_comm]

theorem Consistent.addType {records : Records} (consistent : records.Consistent)
    (record : TypeRecord) : (records.addType record).2.Consistent := by
  unfold Records.addType
  split
  · exact consistent
  · exact {
      consistent with
      typeNames_ascending := Ordered.ascending_insertName _ consistent.typeNames_ascending
      mem_typeNames := mem_insertName_concat consistent.mem_typeNames record }

theorem Consistent.addMethod {records : Records} (consistent : records.Consistent)
    (record : MethodRecord) (present : forall node, node ∈ record.nodes -> node.text ≠ some "") :
    (records.addMethod record).2.Consistent := by
  unfold Records.addMethod
  split
  · exact consistent
  · refine {
      consistent with
      methodNames_ascending := Ordered.ascending_insertName _ consistent.methodNames_ascending
      mem_methodNames := mem_insertName_concat consistent.mem_methodNames record
      texts_present := ?_ }
    intro method member
    rcases List.mem_append.mp member with old | added
    · exact consistent.texts_present method old
    · rw [List.mem_singleton.mp added]
      exact present

theorem Consistent.bindNative {records : Records} (consistent : records.Consistent)
    (name symbol : String) : (records.bindNative name symbol).Consistent :=
  { consistent with
    natives_ascending := Ordered.ascending_insertEntry name symbol consistent.natives_ascending }

/-- Records that grew from nothing are consistent. -/
theorem Grown.consistent {records : Records} (grown : records.Grown) : records.Consistent := by
  induction grown with
  | empty => exact consistent_empty
  | addType grown record inductionHypothesis => exact inductionHypothesis.addType record
  | addMethod grown record built inductionHypothesis =>
      exact inductionHypothesis.addMethod record
        (fun node member => (built node member).text_ne_empty)
  | bindNative grown name symbol inductionHypothesis =>
      exact inductionHypothesis.bindNative name symbol

end Records

/-! ## Reading back each part of an image -/

/-- An absent text is stored as an empty one, so the stored text determines the
text of a node that has none or one with a character in it. -/
theorem Node.textOf_getD {text : Option String} (present : text ≠ some "") :
    Node.textOf (text.getD "") = text := by
  cases text with
  | none => rfl
  | some value =>
      have notEmpty : ¬ value.isEmpty = true := by
        intro empty
        exact present (congrArg some (String.isEmpty_iff.mp empty))
      simp only [Node.textOf, Option.getD_some, if_neg notEmpty]

namespace Image
namespace Reads

theorem operation (id : UInt32) (value : Operation) :
    Reads (Reader.operation id) (Image.word value.tag) value := by
  refine (word value.tag).finish ?_
  rw [Operation.ofTag?_tag]
  exact Reads.pure value

theorem node {node : Node} (fits : node.Fits) (present : node.text ≠ some "") :
    Reads Reader.node (Image.node node) node := by
  have short : ShortText (node.text.getD "") := by
    cases stored : node.text with
    | none => exact (by decide : (0 : Nat) < 2 ^ 32)
    | some text => exact fits.text text stored
  have inputs : Reads (Reader.list Reader.word) (Image.list Image.word node.inputs) node.inputs :=
    list fits.inputs (fun value _ => word value)
  have constants : Reads (Reader.list Reader.longWord) (Image.list Image.longWord node.constants)
      node.constants := list fits.constants (fun value _ => longWord value)
  simp only [Image.node, List.append_assoc]
  refine (word node.id).bind ?_
  refine (word node.offset).bind ?_
  refine (operation node.id node.operation).bind ?_
  refine (text short).bind ?_
  refine inputs.bind ?_
  rw [Node.textOf_getD present]
  exact constants.map _

theorem typeRecord {record : TypeRecord} (fits : record.Fits) :
    Reads Reader.typeRecord (Image.typeRecord record) record := by
  have fields : Reads (Reader.list Reader.textPair) (Image.list Image.textPair record.fields)
      record.fields := by
    apply list fits.fields
    intro field member
    have short := fits.fieldTexts field member
    exact textPair short.1 short.2
  simp only [Image.typeRecord, List.append_assoc]
  refine (text fits.name).bind ?_
  refine (flag record.isStatic).bind ?_
  exact fields.map _

theorem methodRecord {record : MethodRecord} (fits : record.Fits)
    (present : forall node, node ∈ record.nodes -> node.text ≠ some "") :
    Reads Reader.methodRecord (Image.methodRecord record) record := by
  have strings : Reads (Reader.list Reader.text) (Image.list Image.text record.strings)
      record.strings := by
    apply list fits.strings
    intro string member
    exact text (fits.eachString string member)
  have nodes : Reads (Reader.list Reader.node) (Image.list Image.node record.nodes)
      record.nodes := by
    apply list fits.nodes
    intro each member
    exact node (fits.eachNode each member) (present each member)
  simp only [Image.methodRecord, List.append_assoc]
  refine (text fits.name).bind ?_
  refine (flag record.isStatic).bind ?_
  refine (flag record.isConstructor).bind ?_
  refine (flag record.initLocals).bind ?_
  refine (word record.maxStack).bind ?_
  refine strings.bind ?_
  exact nodes.map _

theorem magicWord : Reads Reader.magicWord (Image.word magic) () := by
  refine (word magic).finish ?_
  rw [if_pos rfl]
  exact Reads.pure ()

/-- An image is read back whole.  The sets of names are rebuilt from the
records, and the map of symbols from its entries. -/
theorem records {records : Records} (consistent : records.Consistent) (fits : records.Fits) :
    Reads Reader.records (Image.write records) records := by
  have types : Reads (Reader.many Reader.typeRecord records.types.length)
      (records.types.flatMap Image.typeRecord) records.types := by
    apply many
    intro record member
    exact typeRecord (fits.eachType record member)
  have methods : Reads (Reader.many Reader.methodRecord records.methods.length)
      (records.methods.flatMap Image.methodRecord) records.methods := by
    apply many
    intro record member
    exact methodRecord (fits.eachMethod record member) (consistent.texts_present record member)
  have natives : Reads (Reader.many Reader.textPair records.natives.length)
      (records.natives.flatMap Image.textPair) records.natives := by
    apply many
    intro entry member
    have short := fits.nativeTexts entry member
    exact textPair short.1 short.2
  simp only [Image.write, List.append_assoc]
  refine magicWord.bind ?_
  refine (count records.types.length).bind ?_
  refine (count records.methods.length).bind ?_
  refine (count records.natives.length).bind ?_
  rw [UInt32.toNat_ofNat_of_lt' fits.types, UInt32.toNat_ofNat_of_lt' fits.methods,
    UInt32.toNat_ofNat_of_lt' fits.natives]
  refine types.bind ?_
  refine methods.bind ?_
  rw [Ordered.nameSet_eq consistent.typeNames_ascending consistent.mem_typeNames,
    Ordered.nameSet_eq consistent.methodNames_ascending consistent.mem_methodNames]
  have whole := natives.map (fun natives => ({
    types := records.types
    methods := records.methods
    typeNames := records.typeNames
    methodNames := records.methodNames
    natives := natives.foldl (fun known entry => Ordered.insertEntry entry.1 entry.2 known) [] } :
      Records))
  rwa [Ordered.foldl_insertEntry_of_ascending _ consistent.natives_ascending] at whole

end Reads

/-- Consistent records of a size that an image can store are read back from
their image, field for field, and records that grew from nothing by any
sequence of additions are consistent. -/
theorem read_write_and_consistent_of_grown :
    (forall records : Records, records.Consistent -> records.Fits ->
      Image.read (Image.write records) = .ok records) ∧
    (forall records : Records, records.Grown -> records.Consistent) := by
  refine ⟨?_, fun records grown => grown.consistent⟩
  intro records consistent fits
  rw [Image.read, (Reads.records consistent fits).run 0]

/-- Records with a type, a method with a literal outside ASCII and a node
without a text, and an external symbol. -/
def sampleRecords : Records :=
  ((Records.addType {} ⟨"Demo.Point", false, [("System.Int32", "x")]⟩).2.addMethod
    ⟨"System.Void____Demo.Program.Main_static", true, false, true, 8, ["héllo"],
      [⟨0, 0, .loadString, [], [0], Node.textOf "héllo"⟩, ⟨1, 5, .ret, [0], [], none⟩]⟩).2.bindNative
    "Demo.Console.WriteLine" "console_writeline"

theorem sampleRecords_grown : sampleRecords.Grown := by
  refine Records.Grown.bindNative (Records.Grown.addMethod
    (Records.Grown.addType Records.Grown.empty _) _ ?_) _ _
  intro node member
  rcases List.mem_cons.mp member with first | later
  · rw [first]
    exact ((Node.Built.new 0 0 .loadString).withConstants [0]).withText "héllo"
  · rw [List.mem_singleton.mp later]
    exact (Node.Built.new 1 5 .ret).withInputs [0]

theorem sampleRecords_fits : sampleRecords.Fits where
  types := by decide +kernel
  eachType := by
    intro record member
    rw [List.mem_singleton.mp member]
    exact ⟨by decide +kernel, by decide +kernel, by decide +kernel⟩
  methods := by decide +kernel
  eachMethod := by
    intro record member
    rw [List.mem_singleton.mp member]
    refine ⟨by decide +kernel, by decide +kernel, by decide +kernel, by decide +kernel, ?_⟩
    intro node among
    rcases List.mem_cons.mp among with first | later
    · rw [first]
      refine ⟨?_, by decide +kernel, by decide +kernel⟩
      intro text stored
      rw [← Option.some.inj stored]
      decide +kernel
    · rw [List.mem_singleton.mp later]
      exact ⟨fun _ impossible => (nomatch impossible), by decide +kernel, by decide +kernel⟩
  natives := by decide +kernel
  nativeTexts := by decide +kernel

theorem read_write_sampleRecords :
    sampleRecords.Grown ∧ sampleRecords.Fits ∧
      Image.read (Image.write sampleRecords) = .ok sampleRecords :=
  ⟨sampleRecords_grown, sampleRecords_fits,
    read_write_and_consistent_of_grown.1 sampleRecords
      (read_write_and_consistent_of_grown.2 sampleRecords sampleRecords_grown) sampleRecords_fits⟩

end Image
end CilGraph
