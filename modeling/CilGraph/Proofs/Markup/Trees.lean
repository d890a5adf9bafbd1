import CilGraph.Description
import CilGraph.Proofs.Result

namespace CilGraph
namespace Markup

/-!
# From events to elements

A document is read event by event onto a tree in the making.  The outermost open
element is the one that can become the root, and it only grows: later events add
children to it, behind those that it has.  So a child that is complete at some
event is a child of the root of the whole document.

An element that holds nothing but text takes two events, or three if there is a
text.  Its text is the decoded text without the blanks at its ends.

The events themselves are read off the characters one after another.  A tag closes
at its own end whatever follows it, and the characters before a tag are one event.
-/

/-! ## Comparing elements -/

mutual

/-- Whether two elements are the same in all their parts. -/
def Element.same : Element -> Element -> Bool
  | ⟨name, attributes, children, text⟩, ⟨otherName, otherAttributes, otherChildren, otherText⟩ =>
    name == otherName && attributes == otherAttributes && text == otherText &&
      Element.sameAll children otherChildren

/-- Whether two lists hold the same elements. -/
def Element.sameAll : List Element -> List Element -> Bool
  | [], [] => true
  | first :: rest, other :: others => first.same other && Element.sameAll rest others
  | _, _ => false

end

mutual

theorem Element.same_iff (first second : Element) : first.same second = true ↔ first = second := by
  obtain ⟨name, attributes, children, text⟩ := first
  obtain ⟨otherName, otherAttributes, otherChildren, otherText⟩ := second
  have inside := Element.sameAll_iff children otherChildren
  simp only [Element.same, Bool.and_eq_true, beq_iff_eq, Element.mk.injEq, inside]
  tauto

theorem Element.sameAll_iff (firsts seconds : List Element) :
    Element.sameAll firsts seconds = true ↔ firsts = seconds := by
  cases firsts with
  | nil => cases seconds <;> simp [Element.sameAll]
  | cons first rest =>
      cases seconds with
      | nil => simp [Element.sameAll]
      | cons second others =>
          simp [Element.sameAll, Element.same_iff first second, Element.sameAll_iff rest others]

end

instance : DecidableEq Element := fun first second =>
  decidable_of_iff (first.same second = true) (Element.same_iff first second)

deriving instance DecidableEq for Growth

theorem Element.parse_ofList (text : List Char) :
    Element.parse .standard (String.ofList text) =
      Element.ofReading .standard (readDocument text) :=
  congrArg (fun text => Element.ofReading .standard (readDocument text)) String.toList_ofList

/-! ## Parts that have to be there -/

namespace Element

theorem parseRoot_eq_ok {lexer : Lexer} {name document : String} {root : Element} :
    parseRoot lexer name document = .ok root ↔
      Element.parse lexer document = .ok root ∧ root.name = name := by
  constructor
  · intro parsed
    obtain ⟨found, read, named⟩ := Result.bind_eq_ok.mp parsed
    split at named
    · rename_i isNamed
      cases named
      exact ⟨Result.mapError_eq_ok.mp read, isNamed⟩
    · cases named
  · rintro ⟨read, isNamed⟩
    exact Result.bind_eq_ok.mpr ⟨root, Result.mapError_eq_ok.mpr read, if_pos isNamed⟩

theorem required_eq_ok {element : Element} {key value : String} :
    element.required key = .ok value ↔ element.attribute? key = some value := by
  unfold required
  cases element.attribute? key with
  | none => simp
  | some found => simp

theorem mapM_required_eq_ok {elements : List Element} {key : String} {values : List String} :
    elements.mapM (fun element => element.required key) = .ok values ↔
      List.Forall₂ (fun element value => element.attribute? key = some value) elements values := by
  constructor
  · intro read
    apply (Result.mapM_eq_ok read).imp
    intro element value found
    exact required_eq_ok.mp found
  · intro each
    apply Result.mapM_of_forall₂
    apply each.imp
    intro element value found
    exact required_eq_ok.mpr found

end Element

/-! ## Escaped text -/

theorem exists_unescapeFrom_escapeChar (total offset : Nat) (c : Char) (rest : List Char) :
    exists following, unescapeFrom total offset none (escapeChar c ++ rest) =
      (unescapeFrom total following none rest).map (c :: ·) := by
  unfold escapeChar
  split
  · exact ⟨_, rfl⟩
  · exact ⟨_, rfl⟩
  · exact ⟨_, rfl⟩
  · exact ⟨_, rfl⟩
  · exact ⟨_, rfl⟩
  · rename_i noAmpersand _ _
    refine ⟨offset + c.utf8Size, ?_⟩
    rw [List.singleton_append, unescapeFrom, if_neg noAmpersand]

theorem unescapeFrom_escape (total offset : Nat) (text : List Char) :
    unescapeFrom total offset none (escape text) = .ok text := by
  induction text generalizing offset with
  | nil => rfl
  | cons c rest inductionHypothesis =>
      obtain ⟨following, decoded⟩ :=
        exists_unescapeFrom_escapeChar total offset c (escape rest)
      rw [escape, List.flatMap_cons]
      change unescapeFrom total offset none (escapeChar c ++ escape rest) = _
      rw [decoded, inductionHypothesis]
      rfl

/-- A character that has an entity is not written as itself. -/
theorem notMem_escape {c : Char} (special : c = '<' ∨ c = '>' ∨ c = '\'' ∨ c = '"')
    (text : List Char) : c ∉ escape text := by
  intro member
  obtain ⟨other, _, within⟩ := List.mem_flatMap.mp member
  by_cases same : c = other
  · subst same
    rcases special with rfl | rfl | rfl | rfl <;> simp [escapeChar] at within
  · unfold escapeChar at within
    rcases special with rfl | rfl | rfl | rfl <;> split at within <;> simp_all

/-- Every text is decoded from its escaped form. -/
theorem unescape_escape (text : List Char) : unescape (escape text) = .ok text :=
  unescapeFrom_escape _ 0 text

/-! ## The outermost element -/

/-- An element has become another by getting children behind its own, and text. -/
structure Element.Extends (earlier later : Element) : Prop where
  name : later.name = earlier.name
  attributes : later.attributes = earlier.attributes
  children : earlier.children <+: later.children

theorem Element.Extends.refl (element : Element) : element.Extends element :=
  ⟨rfl, rfl, List.prefix_rfl⟩

theorem Element.Extends.trans {first second third : Element} (left : first.Extends second)
    (right : second.Extends third) : first.Extends third :=
  ⟨right.name.trans left.name, right.attributes.trans left.attributes,
    left.children.trans right.children⟩

theorem Element.extends_push (element child : Element) : element.Extends (element.push child) :=
  ⟨rfl, rfl, List.prefix_append _ _⟩

theorem Element.extends_pushText (element : Element) (more : String) :
    element.Extends (element.pushText more) :=
  ⟨rfl, rfl, List.prefix_rfl⟩

namespace Growth

/-- What an element has become stands outermost among the open elements, or is the
root already. -/
inductive Keeps (element : Element) : Growth -> Prop
  | outermost {grown : Element} (extension : element.Extends grown) : Keeps element ⟨[grown], none⟩
  | within {outer : List Element} (keeps : Keeps element ⟨outer, none⟩) (inner : Element) :
      Keeps element ⟨inner :: outer, none⟩
  | closed {opened : List Element} {root : Element} (extension : element.Extends root) :
      Keeps element ⟨opened, some root⟩

variable {lexer : Lexer} {element : Element} {growth next : Growth}

theorem Keeps.attach (keeps : Keeps element growth) (child : Element) :
    Keeps element (growth.attach child) := by
  cases keeps with
  | outermost extension => exact .outermost (extension.trans (Element.extends_push _ child))
  | within keeps inner => exact .within keeps (inner.push child)
  | @closed opened root extension => cases opened <;> exact .closed extension

theorem Keeps.pushText (keeps : Keeps element growth) (more : String) :
    Keeps element (growth.pushText more) := by
  cases keeps with
  | outermost extension => exact .outermost (extension.trans (Element.extends_pushText _ more))
  | within keeps inner => exact .within keeps (inner.pushText more)
  | @closed opened root extension => cases opened <;> exact .closed extension

theorem Keeps.opening (keeps : Keeps element growth) (inner : Element) :
    Keeps element { growth with opened := inner :: growth.opened } := by
  cases keeps with
  | outermost extension => exact .within (.outermost extension) inner
  | within keeps outer => exact .within (.within keeps outer) inner
  | closed extension => exact .closed extension

/-- Closing the outermost element makes it the root. -/
theorem Keeps.closing {inner : Element} {outer : List Element} {root : Option Element}
    (keeps : Keeps element ⟨inner :: outer, root⟩) :
    Keeps element (Growth.attach ⟨outer, root⟩ inner) := by
  cases keeps with
  | outermost extension => exact .closed extension
  | within keeps => exact keeps.attach inner
  | closed extension => exact (Keeps.closed extension).attach inner

theorem Keeps.step (keeps : Keeps element growth) {event : Event}
    (stepped : growth.step lexer event = .ok next) : Keeps element next := by
  cases event with
  | opening content =>
      obtain ⟨inner, _, same⟩ := Result.bind_eq_ok.mp stepped
      exact Except.ok.inj same ▸ keeps.opening inner
  | selfClosing content =>
      obtain ⟨child, _, same⟩ := Result.bind_eq_ok.mp stepped
      exact Except.ok.inj same ▸ keeps.attach child
  | closing name =>
      rcases growth with ⟨_ | ⟨inner, outer⟩, root⟩
      · exact Except.ok.inj stepped ▸ keeps
      · exact Except.ok.inj stepped ▸ keeps.closing
  | text raw =>
      obtain ⟨decoded, _, same⟩ := Result.bind_eq_ok.mp stepped
      exact Except.ok.inj same ▸ keeps.pushText _
  | characterData raw => exact Except.ok.inj stepped ▸ keeps.pushText _
  | ignored => exact Except.ok.inj stepped ▸ keeps

theorem Keeps.foldlM {events : List Event} (keeps : Keeps element growth)
    (folded : events.foldlM (Growth.step lexer) growth = .ok next) : Keeps element next := by
  induction events generalizing growth with
  | nil => exact Except.ok.inj folded ▸ keeps
  | cons event rest inductionHypothesis =>
      rw [List.foldlM_cons] at folded
      obtain ⟨middle, stepped, later⟩ := Result.bind_eq_ok.mp folded
      exact inductionHypothesis (keeps.step stepped) later

/-! ## Elements that hold only text -/

/-- The events of the characters between two tags. -/
def characterEvents (raw : List Char) : List Event :=
  if raw = [] then [] else [.text raw]

variable {raw text : List Char}

/-- Characters enter the innermost open element without the blanks at their ends. -/
theorem foldlM_characterEvents (decodes : lexer.unescape raw = .ok text) (inner : Element)
    (outer : List Element) (root : Option Element) :
    (characterEvents raw).foldlM (Growth.step lexer) ⟨inner :: outer, root⟩ =
      .ok ⟨inner.pushText (String.ofList (Text.trimChars text)) :: outer, root⟩ := by
  unfold characterEvents
  split
  · rename_i empty
    subst empty
    cases lexer.unescape_nil.symm.trans decodes
    have unchanged : inner.pushText (String.ofList (Text.trimChars [])) = inner := by
      obtain ⟨name, attributes, children, before⟩ := inner
      simp [Element.pushText, Text.trimChars, Text.dropTrailing]
    rw [unchanged]
    rfl
  · rw [List.foldlM_cons]
    apply Result.bind_eq_ok.mpr ⟨_, ?_, rfl⟩
    exact Result.bind_eq_ok.mpr ⟨text, Result.mapError_eq_ok.mpr decodes, rfl⟩

/-- The events of an element that holds only text add this element as a child. -/
theorem foldlM_leaf {content : List Char} {label : String} {attributes : List (String × String)}
    (tagged : Element.ofTag lexer content = .ok ⟨label, attributes, [], ""⟩)
    (decodes : lexer.unescape raw = .ok text) (name : List Char) (parent : Element)
    (outer : List Element) (root : Option Element) :
    (.opening content :: (characterEvents raw ++ [.closing name])).foldlM (Growth.step lexer)
        ⟨parent :: outer, root⟩ =
      .ok ⟨parent.push ⟨label, attributes, [], String.ofList (Text.trimChars text)⟩ :: outer,
        root⟩ := by
  have opens : Growth.step lexer ⟨parent :: outer, root⟩ (.opening content) =
      .ok ⟨⟨label, attributes, [], ""⟩ :: parent :: outer, root⟩ :=
    Result.bind_eq_ok.mpr ⟨_, tagged, rfl⟩
  have fills := foldlM_characterEvents decodes ⟨label, attributes, [], ""⟩ (parent :: outer) root
  rw [Element.pushText, String.empty_append] at fills
  rw [List.foldlM_cons, opens]
  change (characterEvents raw ++ [Event.closing name]).foldlM (Growth.step lexer) _ = _
  rw [List.foldlM_append, fills]
  rfl

end Growth

/-- An element that holds only text nests within another. -/
theorem nest_leaf {content inner name innerName : List Char}
    (matched : tagName content = String.ofList name)
    (innerMatched : tagName inner = String.ofList innerName) (raw : List Char) :
    nest none [] ([.opening content] ++ ((.opening inner ::
        (Growth.characterEvents raw ++ [.closing innerName])) ++ [.closing name])) =
      ⟨[.opening content] ++ ((.opening inner ::
        (Growth.characterEvents raw ++ [.closing innerName])) ++ [.closing name]), none⟩ := by
  unfold Growth.characterEvents
  split <;> simp [nest, openedAfter, matched, innerMatched]

/-- What the only open element is after some events is the beginning of the root. -/
theorem Element.extends_root {lexer : Lexer} {document : String} {root element : Element}
    {before after : List Event} (parsed : Element.parse lexer document = .ok root)
    (split : (lexer.events document).events = before ++ after)
    (grown : before.foldlM (Growth.step lexer) Growth.start = .ok ⟨[element], none⟩) :
    element.Extends root := by
  obtain ⟨growth, folded, ended⟩ := Result.bind_eq_ok.mp parsed
  rw [split, List.foldlM_append, grown] at folded
  have keeps := (Growth.Keeps.outermost (Element.Extends.refl element)).foldlM folded
  split at ended
  · cases ended
  · split at ended
    · rename_i found
      cases keeps with
      | closed extension =>
          cases found
          cases ended
          exact extension
      | outermost => cases found
      | within => cases found
    · cases ended

/-! ## Texts that are read one after another -/

/-- What closes within a text closes there whatever follows the text. -/
theorem splitAtClose_append {State : Type} {step : State -> Char -> State}
    {closes : State -> Bool} {state : State} {front content after : List Char}
    (split : splitAtClose step closes state front = some (content, after)) (rest : List Char) :
    splitAtClose step closes state (front ++ rest) = some (content, after ++ rest) := by
  induction front generalizing state content with
  | nil => cases split
  | cons c front inductionHypothesis =>
      rw [List.cons_append]
      unfold splitAtClose at split ⊢
      split at split
      · rename_i isClose
        cases split
        rw [if_pos isClose]
      · rename_i noClose
        obtain ⟨⟨inner, others⟩, found, same⟩ := Option.map_eq_some_iff.mp split
        cases same
        rw [if_neg noClose, inductionHypothesis found]
        rfl

/-- A tag that closes at its end is read whatever follows it. -/
theorem readTag_append {front : List Char} {event : Event}
    (read : readTag front = .ok (event, [])) (rest : List Char) :
    readTag (front ++ rest) = .ok (event, rest) := by
  unfold readTag at read ⊢
  cases found : splitAtClose stepQuote Option.isNone none front with
  | none =>
      rw [found] at read
      cases read
  | some parts =>
      obtain ⟨content, after⟩ := parts
      rw [found] at read
      rw [splitAtClose_append found rest]
      have ends : after = [] := by
        dsimp only at read
        split at read
        · exact (Prod.mk.inj (Except.ok.inj read)).2
        · split at read <;> exact (Prod.mk.inj (Except.ok.inj read)).2
      subst ends
      dsimp only at read ⊢
      rw [List.nil_append]
      split at read
      · cases read
        rfl
      · split
        · rename_i closesItself
          rw [if_pos closesItself] at read
          cases read
          rfl
        · rename_i stays
          rw [if_neg stays] at read
          cases read
          rfl

/-- A tag is read as an event of its own, whatever follows it. -/
theorem readEventsWith_tag {tag : List Char} {event : Event}
    (plain : tag.head? ≠ some '!' ∧ tag.head? ≠ some '?')
    (read : readTag tag = .ok (event, [])) (fuel : Nat) (rest : List Char) :
    readEventsWith (fuel + 1) ('<' :: (tag ++ rest)) =
      ⟨event :: (readEventsWith fuel rest).events, (readEventsWith fuel rest).fault⟩ := by
  have found := readTag_append read rest
  have markup : readMarkup (tag ++ rest) = .ok (event, rest) := by
    cases tag with
    | nil => cases read
    | cons first others =>
        rw [List.cons_append] at found ⊢
        unfold readMarkup
        split
        · rename_i same
          exact absurd (congrArg some (List.cons.inj same).1) plain.1
        · rename_i same
          exact absurd (congrArg some (List.cons.inj same).1) plain.2
        · exact found
  rw [readEventsWith, markup]

/-- The characters before a tag are one event, or none if there are none. -/
theorem readEventsWith_characters {raw : List Char} (untagged : '<' ∉ raw) (fuel : Nat)
    (rest : List Char) : exists others, fuel ≤ others ∧
      readEventsWith (fuel + 1) (raw ++ '<' :: rest) =
        ⟨Growth.characterEvents raw ++ (readEventsWith others ('<' :: rest)).events,
          (readEventsWith others ('<' :: rest)).fault⟩ := by
  cases raw with
  | nil => exact ⟨fuel + 1, Nat.le_succ fuel, rfl⟩
  | cons c raw =>
      refine ⟨fuel, Nat.le_refl fuel, ?_⟩
      have notTag : forall other, other ∈ c :: raw -> (other != '<') = true := by
        intro other member
        exact bne_iff_ne.mpr fun same => untagged (same ▸ member)
      have taken : (c :: raw ++ '<' :: rest).takeWhile (· != '<') = c :: raw := by
        rw [List.takeWhile_append_of_pos notTag]
        simp
      have dropped : (c :: raw ++ '<' :: rest).dropWhile (· != '<') = '<' :: rest := by
        rw [List.dropWhile_append_of_pos notTag]
        simp
      rw [List.cons_append] at taken dropped ⊢
      rw [readEventsWith, taken, dropped]
      · rfl
      · exact List.cons_ne_nil _ _
      · intro others same
        exact untagged ((List.cons.inj same).1 ▸ List.mem_cons_self)

end Markup
end CilGraph
