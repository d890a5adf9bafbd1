import CilGraph.Proofs.Image.RoundTrip

namespace CilGraph
namespace Image

/-!
# Reading normalises

Not every image that can be read is one that would be written.  A length may
have more groups than it needs, a name may be bound to several symbols in any
order, names may be repeated, and bytes may follow the last record.  Reading
forgets all of this, and what it returns is written in one way.

Two things hold of whatever a reader returns, and `Normalises` says both.  The
value can be stored in an image: its lists and texts are short enough, because
their sizes were read from words, and no text of a node is empty and present.
And the bytes that it would be written in are no more than those that were
taken for it.  The second is an account that every reader has to settle, so a
count in an image is worth nothing by itself: whatever it announces is paid for
by bytes that follow.

The account is strict where an image is careless.  A length of few groups is
small, so it is written in no more groups than it was read from.  Of several
symbols for one name the last is kept, and the bytes of the others are saved.
-/

/-- Whatever a reader returns can be stored, in no more bytes than were taken
for it. -/
def Normalises {Value : Type} (read : Reader Value) (write : Value -> List UInt8)
    (storable : Value -> Prop) : Prop :=
  forall (place later : Place) (value : Value), read place = .ok (value, later) ->
    storable value ∧ (write value).length + later.rest.length ≤ place.rest.length

/-- Two readers in sequence succeed one after the other. -/
theorem Reader.bind_eq_ok {First Second : Type} {read : Reader First}
    {next : First -> Reader Second} {place later : Place} {second : Second}
    (succeeded : (read >>= next) place = .ok (second, later)) :
    exists first between, read place = .ok (first, between) ∧
      next first between = .ok (second, later) := by
  change (read place >>= fun result => next result.1 result.2) = _ at succeeded
  cases reads : read place with
  | error fault =>
      rw [reads] at succeeded
      cases succeeded
  | ok result =>
      rw [reads] at succeeded
      exact ⟨result.1, result.2, rfl, succeeded⟩

/-! ## Numbers and lengths -/

section Numbers

variable {place later : Place}

/-- A number takes exactly its width. -/
theorem Reader.number_eq_ok {width value : Nat}
    (succeeded : Reader.number width place = .ok (value, later)) :
    width + later.rest.length = place.rest.length := by
  unfold Reader.number at succeeded
  by_cases complete : (place.rest.take width).length = width
  · simp only [complete, if_true] at succeeded
    cases succeeded
    rw [List.length_take] at complete
    rw [List.length_drop]
    omega
  · simp only [if_neg complete] at succeeded
    cases succeeded

/-- A reader that gives a number of some width another form takes that width. -/
theorem Reader.map_number_eq_ok {Value : Type} {width : Nat} {change : Nat -> Value}
    {value : Value}
    (succeeded : (do return change (← Reader.number width) : Reader Value) place =
      .ok (value, later)) :
    width + later.rest.length = place.rest.length := by
  rcases Reader.bind_eq_ok succeeded with ⟨number, between, reads, returned⟩
  cases returned
  exact Reader.number_eq_ok reads

theorem length_word (value : UInt32) : (Image.word value).length = 4 :=
  LittleEndian.length_split 4 _

theorem length_longWord (value : UInt64) : (Image.longWord value).length = 8 :=
  LittleEndian.length_split 8 _

theorem length_count (value : Nat) : (Image.count value).length = 4 :=
  LittleEndian.length_split 4 _

theorem normalises_word : Normalises Reader.word Image.word (fun _ => True) := by
  intro place later value succeeded
  have taken := Reader.map_number_eq_ok succeeded
  rw [length_word]
  exact ⟨trivial, Nat.le_of_eq taken⟩

theorem normalises_longWord : Normalises Reader.longWord Image.longWord (fun _ => True) := by
  intro place later value succeeded
  have taken := Reader.map_number_eq_ok succeeded
  rw [length_longWord]
  exact ⟨trivial, Nat.le_of_eq taken⟩

theorem normalises_flag : Normalises Reader.flag Image.flag (fun _ => True) := by
  intro place later value succeeded
  rcases Reader.bind_eq_ok succeeded with ⟨start, same, got, continued⟩
  cases got
  rcases Reader.bind_eq_ok continued with ⟨byte, between, reads, decided⟩
  have taken := Reader.map_number_eq_ok reads
  have isLater : later = between := by
    split at decided
    · cases decided
      rfl
    · split at decided
      · cases decided
        rfl
      · cases decided
  rw [isLater]
  exact ⟨trivial, Nat.le_of_eq taken⟩

/-- A length is written in no more groups than it was read from. -/
theorem normalises_length :
    Normalises Reader.length (fun value => Image.length value.toNat) (fun _ => True) := by
  intro place later value succeeded
  obtain ⟨groups, terminated, _, split, _, isValue⟩ := Reader.exists_of_length_eq_ok succeeded
  have small : value.toNat < 128 ^ groups.length := by
    rw [isValue]
    exact Nat.lt_of_le_of_lt (Nat.mod_le _ _) (positional_lt groups)
  have fewest : (Image.length value.toNat).length ≤ groups.length := by
    unfold Image.length
    rw [Nat.mod_eq_of_lt value.toNat_lt]
    exact length_lengthGroups_le 4 value.toNat terminated.length_pos small
  refine ⟨trivial, ?_⟩
  rw [split, List.length_append]
  exact Nat.add_le_add_right fewest _

end Numbers

/-! ## Texts and lists -/

theorem normalises_text : Normalises Reader.text Image.text ShortText := by
  intro place later value succeeded
  rcases Reader.bind_eq_ok succeeded with ⟨size, between, reads, continued⟩
  rcases Reader.bind_eq_ok continued with ⟨start, same, got, decoding⟩
  cases got
  have account := (normalises_length place between size reads).2
  dsimp only at account decoding
  split at decoding
  · cases decoding
  · rename_i enough
    rw [List.length_take] at enough
    cases decodes : String.fromUTF8? ⟨(between.rest.take size.toNat).toArray⟩ with
    | none =>
        rw [decodes] at decoding
        cases decoding
    | some decoded =>
      rw [decodes] at decoding
      cases decoding
      have isUtf8 : utf8 value = between.rest.take size.toNat :=
        Text.fromUTF8?_eq_some_iff.mp decodes
      have bytes : (utf8 value).length = size.toNat := by
        rw [isUtf8, List.length_take]
        omega
      refine ⟨?_, ?_⟩
      · change (utf8 value).length < 2 ^ 32
        rw [bytes]
        exact size.toNat_lt
      · rw [Image.text, List.length_append, bytes, List.length_drop]
        omega

section Lists

variable {Item : Type} {read : Reader Item} {write : Item -> List UInt8} {storable : Item -> Prop}

/-- Each of a number of items settles its own account. -/
theorem Normalises.many (each : Normalises read write storable) (count : Nat) :
    Normalises (Reader.many read count) (fun items => items.flatMap write)
      (fun items => items.length = count ∧ forall item, item ∈ items -> storable item) := by
  induction count with
  | zero =>
      intro place later items succeeded
      cases succeeded
      exact ⟨⟨rfl, fun _ member => absurd member List.not_mem_nil⟩, Nat.le_of_eq (Nat.zero_add _)⟩
  | succ count inductionHypothesis =>
      intro place later items succeeded
      rcases Reader.bind_eq_ok succeeded with ⟨first, between, reads, continued⟩
      rcases Reader.bind_eq_ok continued with ⟨others, last, readsOthers, returned⟩
      cases returned
      rcases each place between first reads with ⟨isStorable, account⟩
      rcases inductionHypothesis between later others readsOthers with
        ⟨⟨counted, areStorable⟩, accountThen⟩
      refine ⟨⟨congrArg Nat.succ counted, List.forall_mem_cons.mpr ⟨isStorable, areStorable⟩⟩, ?_⟩
      simp only [List.flatMap_cons, List.length_append] at accountThen ⊢
      omega

theorem Normalises.list (each : Normalises read write storable) :
    Normalises (Reader.list read) (Image.list write)
      (fun items => Short items ∧ forall item, item ∈ items -> storable item) := by
  intro place later items succeeded
  rcases Reader.bind_eq_ok succeeded with ⟨count, between, reads, continued⟩
  have account := (normalises_word place between count reads).2
  rcases each.many count.toNat between later items continued with
    ⟨⟨counted, areStorable⟩, accountThen⟩
  refine ⟨⟨?_, areStorable⟩, ?_⟩
  · unfold Short
    rw [counted]
    exact count.toNat_lt
  · simp only [Image.list, List.length_append, length_count, length_word] at account accountThen ⊢
    omega

end Lists

theorem normalises_textPair : Normalises Reader.textPair Image.textPair
    (fun pair => ShortText pair.1 ∧ ShortText pair.2) := by
  intro place later pair succeeded
  rcases Reader.bind_eq_ok succeeded with ⟨first, between, reads, continued⟩
  rcases Reader.bind_eq_ok continued with ⟨second, last, readsSecond, returned⟩
  cases returned
  rcases normalises_text place between first reads with ⟨short, account⟩
  rcases normalises_text between later second readsSecond with ⟨shortSecond, accountSecond⟩
  refine ⟨⟨short, shortSecond⟩, ?_⟩
  simp only [Image.textPair, List.length_append]
  omega

/-! ## Records -/

theorem normalises_operation (id : UInt32) :
    Normalises (Reader.operation id) (fun operation => Image.word operation.tag)
      (fun _ => True) := by
  intro place later operation succeeded
  rcases Reader.bind_eq_ok succeeded with ⟨tag, between, reads, continued⟩
  have account := (normalises_word place between tag reads).2
  cases known : Operation.ofTag? tag with
  | none =>
      rw [known] at continued
      cases continued
  | some found =>
      rw [known] at continued
      cases continued
      simp only [length_word] at account ⊢
      exact ⟨trivial, account⟩

/-- The text of a node is written in the bytes that it was read from, also if it
is empty and so counts as absent. -/
theorem getD_textOf (text : String) : (Node.textOf text).getD "" = text := by
  unfold Node.textOf
  split
  · rename_i empty
    exact (String.isEmpty_iff.mp empty).symm
  · rfl

theorem normalises_node : Normalises Reader.node Image.node
    (fun node => node.Fits ∧ node.text ≠ some "") := by
  intro place later node succeeded
  rcases Reader.bind_eq_ok succeeded with ⟨id, afterId, readsId, continued⟩
  rcases Reader.bind_eq_ok continued with ⟨offset, afterOffset, readsOffset, continued⟩
  rcases Reader.bind_eq_ok continued with ⟨operation, afterOperation, readsOperation, continued⟩
  rcases Reader.bind_eq_ok continued with ⟨text, afterText, readsText, continued⟩
  rcases Reader.bind_eq_ok continued with ⟨inputs, afterInputs, readsInputs, continued⟩
  rcases Reader.bind_eq_ok continued with ⟨constants, last, readsConstants, returned⟩
  cases returned
  have ofId := (normalises_word _ _ _ readsId).2
  have ofOffset := (normalises_word _ _ _ readsOffset).2
  have ofOperation := (normalises_operation id _ _ _ readsOperation).2
  rcases normalises_text _ _ _ readsText with ⟨shortText, ofText⟩
  rcases normalises_word.list _ _ _ readsInputs with ⟨shortInputs, ofInputs⟩
  rcases normalises_longWord.list _ _ _ readsConstants with ⟨shortConstants, ofConstants⟩
  refine ⟨⟨⟨?_, shortInputs.1, shortConstants.1⟩, Node.textOf_ne_empty text⟩, ?_⟩
  · intro stored isStored
    have same : text = stored :=
      (getD_textOf text).symm.trans (congrArg (fun found => found.getD "") isStored)
    exact same ▸ shortText
  · dsimp only at ofOperation
    simp only [Image.node, List.length_append, getD_textOf]
    omega

theorem normalises_typeRecord :
    Normalises Reader.typeRecord Image.typeRecord TypeRecord.Fits := by
  intro place later record succeeded
  rcases Reader.bind_eq_ok succeeded with ⟨name, afterName, readsName, continued⟩
  rcases Reader.bind_eq_ok continued with ⟨isStatic, afterStatic, readsStatic, continued⟩
  rcases Reader.bind_eq_ok continued with ⟨fields, last, readsFields, returned⟩
  cases returned
  rcases normalises_text _ _ _ readsName with ⟨shortName, ofName⟩
  have ofStatic := (normalises_flag _ _ _ readsStatic).2
  rcases normalises_textPair.list _ _ _ readsFields with ⟨shortFields, ofFields⟩
  refine ⟨⟨shortName, shortFields.1, shortFields.2⟩, ?_⟩
  simp only [Image.typeRecord, List.length_append]
  omega

theorem normalises_methodRecord : Normalises Reader.methodRecord Image.methodRecord
    (fun record => record.Fits ∧ forall node, node ∈ record.nodes -> node.text ≠ some "") := by
  intro place later record succeeded
  rcases Reader.bind_eq_ok succeeded with ⟨name, afterName, readsName, continued⟩
  rcases Reader.bind_eq_ok continued with ⟨isStatic, afterStatic, readsStatic, continued⟩
  rcases Reader.bind_eq_ok continued with ⟨isConstructor, afterKind, readsKind, continued⟩
  rcases Reader.bind_eq_ok continued with ⟨initLocals, afterLocals, readsLocals, continued⟩
  rcases Reader.bind_eq_ok continued with ⟨maxStack, afterStack, readsStack, continued⟩
  rcases Reader.bind_eq_ok continued with ⟨strings, afterStrings, readsStrings, continued⟩
  rcases Reader.bind_eq_ok continued with ⟨nodes, last, readsNodes, returned⟩
  cases returned
  rcases normalises_text _ _ _ readsName with ⟨shortName, ofName⟩
  have ofStatic := (normalises_flag _ _ _ readsStatic).2
  have ofKind := (normalises_flag _ _ _ readsKind).2
  have ofLocals := (normalises_flag _ _ _ readsLocals).2
  have ofStack := (normalises_word _ _ _ readsStack).2
  rcases normalises_text.list _ _ _ readsStrings with ⟨shortStrings, ofStrings⟩
  rcases normalises_node.list _ _ _ readsNodes with ⟨shortNodes, ofNodes⟩
  refine ⟨⟨⟨shortName, shortStrings.1, shortStrings.2, shortNodes.1, ?_⟩, ?_⟩, ?_⟩
  · exact fun node member => (shortNodes.2 node member).1
  · exact fun node member => (shortNodes.2 node member).2
  · simp only [Image.methodRecord, List.length_append]
    omega

/-! ## Symbols -/

section Symbols

variable {Value : Type} (write : String × Value -> List UInt8)

/-- Binding a name saves the bytes of an earlier binding. -/
theorem length_flatMap_insertEntry (name : String) (value : Value)
    (entries : List (String × Value)) :
    ((Ordered.insertEntry name value entries).flatMap write).length ≤
      (write (name, value)).length + (entries.flatMap write).length := by
  induction entries with
  | nil => simp [Ordered.insertEntry]
  | cons head tail inductionHypothesis =>
      rcases head with ⟨key, old⟩
      by_cases equal : name = key
      · simp only [Ordered.insertEntry, if_pos equal, List.flatMap_cons, List.length_append]
        omega
      · by_cases before : name < key
        · simp [Ordered.insertEntry, equal, before]
        · simp only [Ordered.insertEntry, if_neg equal, if_neg before, List.flatMap_cons,
            List.length_append]
          omega

/-- What is known of a map after some entries were bound in it: it is in order,
each of its entries was bound, and its bytes are no more than theirs. -/
structure Bound (bound known : List (String × Value)) : Prop where
  ascending : Ordered.AscendingEntries known
  entries : forall entry, entry ∈ known -> entry ∈ bound
  length : known.length ≤ bound.length
  bytes : (known.flatMap write).length ≤ (bound.flatMap write).length

theorem length_insertEntry_le (name : String) (value : Value) (entries : List (String × Value)) :
    (Ordered.insertEntry name value entries).length ≤ entries.length + 1 := by
  have counted := length_flatMap_insertEntry (fun _ => [(0 : UInt8)]) name value entries
  have ones : forall items : List (String × Value),
      (items.flatMap (fun _ => [(0 : UInt8)])).length = items.length := by
    intro items
    rw [List.length_flatMap]
    simp
  rw [ones, ones, List.length_singleton, Nat.add_comm] at counted
  exact counted

theorem bound_foldl (entries : List (String × Value)) :
    Bound write entries
      (entries.foldl (fun known entry => Ordered.insertEntry entry.1 entry.2 known) []) := by
  have general : forall bound known : List (String × Value), Bound write bound known ->
      Bound write (bound ++ entries)
        (entries.foldl (fun known entry => Ordered.insertEntry entry.1 entry.2 known) known) := by
    induction entries with
    | nil =>
        intro bound known holds
        rwa [List.append_nil]
    | cons entry rest inductionHypothesis =>
        intro bound known holds
        have step : Bound write (bound ++ [entry])
            (Ordered.insertEntry entry.1 entry.2 known) := by
          refine ⟨Ordered.ascending_insertEntry _ _ holds.ascending, ?_, ?_, ?_⟩
          · intro other member
            rcases Ordered.mem_insertEntry member with same | earlier
            · rw [same]
              exact List.mem_append_right _ List.mem_cons_self
            · exact List.mem_append_left _ (holds.entries other earlier)
          · have longer := length_insertEntry_le entry.1 entry.2 known
            have counted := holds.length
            rw [List.length_append, List.length_singleton]
            omega
          · have longer : _ ≤ (write entry).length + _ :=
              length_flatMap_insertEntry write entry.1 entry.2 known
            have bytes := holds.bytes
            rw [List.flatMap_append, List.length_append, List.flatMap_singleton]
            omega
        have later := inductionHypothesis (bound ++ [entry]) _ step
        rwa [List.append_assoc, List.singleton_append] at later
  exact general [] [] ⟨List.Pairwise.nil, fun _ member => member, Nat.le_refl _, Nat.le_refl _⟩

end Symbols

theorem normalises_magicWord :
    Normalises Reader.magicWord (fun _ => Image.word magic) (fun _ => True) := by
  intro place later value succeeded
  rcases Reader.bind_eq_ok succeeded with ⟨found, between, reads, checked⟩
  have account := (normalises_word place between found reads).2
  split at checked
  · cases checked
    simp only [length_word] at account ⊢
    exact ⟨trivial, account⟩
  · cases checked

theorem normalises_records : Normalises Reader.records Image.write
    (fun records => records.Consistent ∧ records.Fits) := by
  intro place later records succeeded
  rcases Reader.bind_eq_ok succeeded with ⟨_, afterMagic, readsMagic, continued⟩
  rcases Reader.bind_eq_ok continued with ⟨typeCount, afterTypeCount, readsTypeCount, continued⟩
  rcases Reader.bind_eq_ok continued with
    ⟨methodCount, afterMethodCount, readsMethodCount, continued⟩
  rcases Reader.bind_eq_ok continued with
    ⟨nativeCount, afterNativeCount, readsNativeCount, continued⟩
  rcases Reader.bind_eq_ok continued with ⟨types, afterTypes, readsTypes, continued⟩
  rcases Reader.bind_eq_ok continued with ⟨methods, afterMethods, readsMethods, continued⟩
  rcases Reader.bind_eq_ok continued with ⟨natives, last, readsNatives, returned⟩
  cases returned
  have ofMagic := (normalises_magicWord _ _ _ readsMagic).2
  have ofTypeCount := (normalises_word _ _ _ readsTypeCount).2
  have ofMethodCount := (normalises_word _ _ _ readsMethodCount).2
  have ofNativeCount := (normalises_word _ _ _ readsNativeCount).2
  rcases normalises_typeRecord.many _ _ _ _ readsTypes with ⟨⟨countedTypes, fitTypes⟩, ofTypes⟩
  rcases normalises_methodRecord.many _ _ _ _ readsMethods with
    ⟨⟨countedMethods, fitMethods⟩, ofMethods⟩
  rcases normalises_textPair.many _ _ _ _ readsNatives with
    ⟨⟨countedNatives, fitNatives⟩, ofNatives⟩
  have bound := bound_foldl Image.textPair natives
  refine ⟨⟨?_, ?_⟩, ?_⟩
  · exact {
      typeNames_ascending := Ordered.ascending_nameSet _
      mem_typeNames := fun name => Ordered.mem_nameSet _ name
      methodNames_ascending := Ordered.ascending_nameSet _
      mem_methodNames := fun name => Ordered.mem_nameSet _ name
      natives_ascending := bound.ascending
      texts_present := fun method member => (fitMethods method member).2 }
  · exact {
      types := Nat.lt_of_le_of_lt (Nat.le_of_eq countedTypes) typeCount.toNat_lt
      eachType := fitTypes
      methods := Nat.lt_of_le_of_lt (Nat.le_of_eq countedMethods) methodCount.toNat_lt
      eachMethod := fun method member => (fitMethods method member).1
      natives := Nat.lt_of_le_of_lt (bound.length.trans (Nat.le_of_eq countedNatives))
        nativeCount.toNat_lt
      nativeTexts := fun entry member => fitNatives entry (bound.entries entry member) }
  -- Of several symbols for one name only the last is written again, so bytes may be saved here.
  · have saved := bound.bytes
    simp only [length_word] at ofMagic ofTypeCount ofMethodCount ofNativeCount
    dsimp only at ofTypes ofMethods ofNatives
    simp only [Image.write, List.length_append, length_word, length_count]
    omega

end Image

/-! ## What an image can declare -/

/-- A type record and its fields. -/
def TypeRecord.items (record : TypeRecord) : Nat :=
  1 + record.fields.length

/-- A node with its inputs and constants. -/
def Node.items (node : Node) : Nat :=
  1 + node.inputs.length + node.constants.length

/-- A method record with its strings and all that its nodes declare. -/
def MethodRecord.items (record : MethodRecord) : Nat :=
  1 + record.strings.length + (record.nodes.map Node.items).sum

/-- The number of records, fields, strings, nodes, inputs, constants and symbols. -/
def Records.items (records : Records) : Nat :=
  (records.types.map TypeRecord.items).sum + (records.methods.map MethodRecord.items).sum +
    records.natives.length

namespace Image

section Items

variable {Item : Type} {write : Item -> List UInt8}

/-- Items that each pay for what they declare do so together. -/
theorem sum_le_length_flatMap {items : List Item} {declared : Item -> Nat}
    (each : forall item, declared item ≤ (write item).length) :
    (items.map declared).sum ≤ (items.flatMap write).length := by
  induction items with
  | nil => exact Nat.le_refl 0
  | cons first others inductionHypothesis =>
      have own := each first
      rw [List.map_cons, List.sum_cons, List.flatMap_cons, List.length_append]
      omega

/-- A list pays for its items if none of them is written in nothing. -/
theorem length_le_length_list {items : List Item} (each : forall item, 1 ≤ (write item).length) :
    items.length ≤ (Image.list write items).length := by
  have counted : (items.map (fun _ => 1)).sum ≤ (items.flatMap write).length :=
    sum_le_length_flatMap each
  have ones : (items.map (fun _ => 1)).sum = items.length := by simp
  rw [Image.list, List.length_append]
  omega

end Items

theorem one_le_length_text (value : String) : 1 ≤ (Image.text value).length := by
  have groups : forall more value, 1 ≤ (Image.lengthGroups more value).length := by
    intro more value
    cases more with
    | zero => exact Nat.le_refl 1
    | succ more =>
        unfold Image.lengthGroups
        split
        · exact Nat.le_refl 1
        · exact Nat.succ_le_succ (Nat.zero_le _)
  rw [Image.text, List.length_append]
  exact Nat.le_add_right_of_le (groups 4 _)

theorem items_le_typeRecord (record : TypeRecord) :
    record.items ≤ (Image.typeRecord record).length := by
  have name := one_le_length_text record.name
  have fields : record.fields.length ≤ (Image.list Image.textPair record.fields).length := by
    apply length_le_length_list
    intro field
    rw [Image.textPair, List.length_append]
    exact Nat.le_add_right_of_le (one_le_length_text field.1)
  simp only [TypeRecord.items, Image.typeRecord, List.length_append]
  omega

theorem items_le_node (node : Node) : node.items ≤ (Image.node node).length := by
  have inputs : node.inputs.length ≤ (Image.list Image.word node.inputs).length :=
    length_le_length_list (fun value => by rw [length_word]; decide)
  have constants : node.constants.length ≤ (Image.list Image.longWord node.constants).length :=
    length_le_length_list (fun value => by rw [length_longWord]; decide)
  simp only [Node.items, Image.node, List.length_append, length_word]
  omega

theorem items_le_methodRecord (record : MethodRecord) :
    record.items ≤ (Image.methodRecord record).length := by
  have name := one_le_length_text record.name
  have strings : record.strings.length ≤ (Image.list Image.text record.strings).length :=
    length_le_length_list one_le_length_text
  have nodes : (record.nodes.map Node.items).sum ≤ (record.nodes.flatMap Image.node).length :=
    sum_le_length_flatMap items_le_node
  have listed : (record.nodes.flatMap Image.node).length ≤
      (Image.list Image.node record.nodes).length := by
    rw [Image.list, List.length_append]
    exact Nat.le_add_left _ _
  simp only [MethodRecord.items, Image.methodRecord, List.length_append]
  omega

/-- An image has a byte for everything that it declares. -/
theorem items_le_write (records : Records) : records.items ≤ (Image.write records).length := by
  have types : (records.types.map TypeRecord.items).sum ≤
      (records.types.flatMap Image.typeRecord).length := sum_le_length_flatMap items_le_typeRecord
  have methods : (records.methods.map MethodRecord.items).sum ≤
      (records.methods.flatMap Image.methodRecord).length :=
    sum_le_length_flatMap items_le_methodRecord
  have natives : records.natives.length ≤ (records.natives.flatMap Image.textPair).length := by
    have each : forall entry : String × String, 1 ≤ (Image.textPair entry).length := by
      intro entry
      rw [Image.textPair, List.length_append]
      exact Nat.le_add_right_of_le (one_le_length_text entry.1)
    have counted : (records.natives.map (fun _ => 1)).sum ≤
        (records.natives.flatMap Image.textPair).length := sum_le_length_flatMap each
    simpa using counted
  simp only [Records.items, Image.write, List.length_append]
  omega

/-- Bytes are records or are refused as an image.  Records that were read are
consistent, declare no more than the bytes pay for, are written in no more bytes
than they were read from, and are read back from these. -/
theorem read_normalises (bytes : List UInt8) :
    ((exists records, read bytes = .ok records) ∨
      exists fault, read bytes = .error (.malformedImage fault)) ∧
    forall records, read bytes = .ok records ->
      records.Consistent ∧ records.items ≤ bytes.length ∧
        (write records).length ≤ bytes.length ∧ read (write records) = .ok records := by
  unfold read
  cases outcome : Reader.records ⟨0, bytes⟩ with
  | error fault => exact ⟨Or.inr ⟨fault, rfl⟩, fun _ impossible => nomatch impossible⟩
  | ok result =>
      rcases result with ⟨records, later⟩
      rcases normalises_records ⟨0, bytes⟩ later records outcome with ⟨⟨consistent, fits⟩, account⟩
      have shorter : (write records).length ≤ bytes.length := by
        dsimp only at account
        omega
      refine ⟨Or.inl ⟨records, rfl⟩, ?_⟩
      intro found same
      cases same
      refine ⟨consistent, (items_le_write records).trans shorter, shorter, ?_⟩
      rw [(Reads.records consistent fits).run 0]

/-- An image of one type record and two symbols for one name.  The length of the
type name has two groups where one is enough, and two bytes follow the end. -/
def sampleCarelessImage : List UInt8 :=
  word magic ++ count 1 ++ count 0 ++ count 2 ++
    [0x81, 0x00, 0x54] ++ flag false ++ count 0 ++
    textPair ("n", "early") ++ textPair ("n", "late") ++ [0xFF, 0xFF]

def sampleTidyRecords : Records where
  types := [⟨"T", false, []⟩]
  typeNames := ["T"]
  natives := [("n", "late")]

theorem read_sampleCarelessImage : read sampleCarelessImage = .ok sampleTidyRecords := by
  decide +kernel

/-- The image of what was read is shorter by eleven bytes. -/
theorem sampleCarelessImage_normalises :
    read sampleCarelessImage = .ok sampleTidyRecords ∧
      sampleCarelessImage.length = 41 ∧ (write sampleTidyRecords).length = 30 ∧
      sampleTidyRecords.Consistent ∧ sampleTidyRecords.items ≤ sampleCarelessImage.length ∧
      (write sampleTidyRecords).length ≤ sampleCarelessImage.length ∧
      read (write sampleTidyRecords) = .ok sampleTidyRecords :=
  ⟨read_sampleCarelessImage, by decide +kernel, by decide +kernel,
    (read_normalises sampleCarelessImage).2 sampleTidyRecords read_sampleCarelessImage⟩

end Image
end CilGraph
