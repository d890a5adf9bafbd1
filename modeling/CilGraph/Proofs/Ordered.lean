import CilGraph.Ordered
import Mathlib.Data.List.Sort
import Mathlib.Data.String.Basic

namespace CilGraph
namespace Ordered

/-!
# Ascending lists and the sets they stand for

A set of names is a strictly ascending list, and a map from names is a list of
entries whose names ascend strictly.  The statements here say what insertion
does to the members, that it keeps the order, and that a strictly ascending
list is the only one with its members.  The last point turns an equality of two
sets into an equality of two lists, which is what a comparison of records asks
for.

An entry is compared by its name only.  Inserting the entries of a map in their
own order gives the map back, whatever the bound values are.

Sorting by names keeps the items and brings them in order.  If no name occurs
twice, the result does not depend on the order before.
-/

/-- A list of names that stands for a set. -/
def Ascending (names : List String) : Prop :=
  names.Pairwise (fun first second => first < second)

/-- A list of entries that stands for a map. -/
def AscendingEntries {Value : Type} (entries : List (String × Value)) : Prop :=
  entries.Pairwise (fun first second => first.1 < second.1)

/-- Of two different names that are not in order one way, the other way holds. -/
theorem lt_of_ne_of_not_lt {first second : String} (different : first ≠ second)
    (notBefore : ¬ first < second) : second < first := by
  rcases lt_trichotomy first second with before | equal | after
  · exact absurd before notBefore
  · exact absurd equal different
  · exact after

/-! ## Sets of names -/

theorem mem_insertName (name other : String) (names : List String) :
    other ∈ insertName name names ↔ other = name ∨ other ∈ names := by
  induction names with
  | nil => simp only [insertName, List.mem_singleton, List.not_mem_nil, or_false]
  | cons head tail inductionHypothesis =>
      by_cases equal : name = head
      · subst equal
        simp only [insertName, if_true, List.mem_cons, or_self_left]
      · by_cases before : name < head
        · simp only [insertName, if_neg equal, if_pos before, List.mem_cons]
        · simp only [insertName, if_neg equal, if_neg before, List.mem_cons, inductionHypothesis]
          exact or_left_comm

theorem ascending_insertName (name : String) {names : List String} (ascending : Ascending names) :
    Ascending (insertName name names) := by
  induction names with
  | nil => exact List.pairwise_singleton _ _
  | cons head tail inductionHypothesis =>
      rcases List.pairwise_cons.mp ascending with ⟨headFirst, tailAscending⟩
      by_cases equal : name = head
      · simpa only [insertName, if_pos equal] using ascending
      · by_cases before : name < head
        · simp only [insertName, if_neg equal, if_pos before]
          refine List.pairwise_cons.mpr ⟨?_, ascending⟩
          intro other member
          rcases List.mem_cons.mp member with same | later
          · exact same ▸ before
          · exact lt_trans before (headFirst other later)
        · simp only [insertName, if_neg equal, if_neg before]
          refine List.pairwise_cons.mpr ⟨?_, inductionHypothesis tailAscending⟩
          intro other member
          rcases (mem_insertName name other tail).mp member with same | later
          · exact same ▸ lt_of_ne_of_not_lt equal before
          · exact headFirst other later

/-- The set of the names of a list has these names as members and no others,
also when the insertion starts from a set that is not empty. -/
theorem mem_foldl_insertName (names known : List String) (other : String) :
    other ∈ names.foldl (fun known name => insertName name known) known ↔
      other ∈ known ∨ other ∈ names := by
  induction names generalizing known with
  | nil => simp only [List.foldl_nil, List.not_mem_nil, or_false]
  | cons head tail inductionHypothesis =>
      rw [List.foldl_cons, inductionHypothesis, mem_insertName, List.mem_cons, or_assoc,
        or_left_comm]

theorem mem_nameSet (names : List String) (other : String) :
    other ∈ nameSet names ↔ other ∈ names := by
  rw [nameSet, mem_foldl_insertName]
  simp only [List.not_mem_nil, false_or]

theorem ascending_nameSet (names : List String) : Ascending (nameSet names) := by
  have general : forall known, Ascending known ->
      Ascending (names.foldl (fun known name => insertName name known) known) := by
    induction names with
    | nil => exact fun known ascending => ascending
    | cons head tail inductionHypothesis =>
        exact fun known ascending =>
          inductionHypothesis _ (ascending_insertName head ascending)
  exact general [] List.Pairwise.nil

/-- A strictly ascending list is the set of any list with the same members. -/
theorem nameSet_eq {names labels : List String} (ascending : Ascending names)
    (sameMembers : forall name, name ∈ names ↔ name ∈ labels) : nameSet labels = names := by
  refine List.Pairwise.eq_of_mem_iff (ascending_nameSet labels) ascending ?_
  intro name
  rw [mem_nameSet, sameMembers]

/-- No two items share a name, and a set of names is that of their names. -/
structure Indexes {Item : Type} (nameOf : Item -> String) (items : List Item)
    (names : List String) : Prop where
  distinct : (items.map nameOf).Nodup
  members : forall name, name ∈ names ↔ name ∈ items.map nameOf
  ascending : Ascending names

theorem indexes_nil {Item : Type} (nameOf : Item -> String) : Indexes nameOf [] [] :=
  ⟨List.nodup_nil, fun _ => Iff.rfl, List.Pairwise.nil⟩

theorem Indexes.append {Item : Type} {nameOf : Item -> String} {items : List Item}
    {names : List String} (indexes : Indexes nameOf items names) {item : Item}
    (fresh : nameOf item ∉ names) :
    Indexes nameOf (items ++ [item]) (insertName (nameOf item) names) := by
  refine ⟨?_, ?_, ascending_insertName _ indexes.ascending⟩
  · rw [List.map_append]
    refine List.Nodup.append indexes.distinct (List.nodup_singleton _) ?_
    refine List.disjoint_singleton.mpr ?_
    intro taken
    exact fresh ((indexes.members (nameOf item)).mpr taken)
  · intro name
    rw [mem_insertName, indexes.members, List.map_append, List.mem_append, List.map_singleton,
      List.mem_singleton, or_comm]

/-! ## Maps from names -/

theorem mem_insertEntry {Value : Type} {name : String} {value : Value}
    {entries : List (String × Value)} {entry : String × Value}
    (member : entry ∈ insertEntry name value entries) :
    entry = (name, value) ∨ entry ∈ entries := by
  induction entries with
  | nil => exact Or.inl (List.mem_singleton.mp member)
  | cons head tail inductionHypothesis =>
      rcases head with ⟨key, old⟩
      by_cases equal : name = key
      · simp only [insertEntry, if_pos equal] at member
        rcases List.mem_cons.mp member with same | later
        · exact Or.inl same
        · exact Or.inr (List.mem_cons_of_mem _ later)
      · by_cases before : name < key
        · simp only [insertEntry, if_neg equal, if_pos before] at member
          exact List.mem_cons.mp member
        · simp only [insertEntry, if_neg equal, if_neg before] at member
          rcases List.mem_cons.mp member with same | later
          · exact Or.inr (same ▸ List.mem_cons_self)
          · rcases inductionHypothesis later with same | old
            · exact Or.inl same
            · exact Or.inr (List.mem_cons_of_mem _ old)

/-- Binding a name adds it to the names of a map and takes none away. -/
theorem mem_keys_insertEntry {Value : Type} (name other : String) (value : Value)
    (entries : List (String × Value)) :
    other ∈ (insertEntry name value entries).map Prod.fst ↔
      other = name ∨ other ∈ entries.map Prod.fst := by
  induction entries with
  | nil => simp only [insertEntry, List.map_cons, List.map_nil, List.mem_singleton,
      List.not_mem_nil, or_false]
  | cons head tail inductionHypothesis =>
      rcases head with ⟨key, old⟩
      by_cases equal : name = key
      · subst equal
        simp only [insertEntry, if_true, List.map_cons, List.mem_cons, or_self_left]
      · by_cases before : name < key
        · simp only [insertEntry, if_neg equal, if_pos before, List.map_cons, List.mem_cons]
        · simp only [insertEntry, if_neg equal, if_neg before, List.map_cons, List.mem_cons,
            inductionHypothesis]
          exact or_left_comm

/-- Binding a name leaves the other names alone. -/
theorem lookup_insertEntry_of_ne {Value : Type} {name other : String} (value : Value)
    (entries : List (String × Value)) (differs : other ≠ name) :
    (insertEntry name value entries).lookup other = entries.lookup other := by
  have isOther : (other == name) = false := beq_eq_false_iff_ne.mpr differs
  induction entries with
  | nil => simp only [insertEntry, List.lookup_cons, isOther]
  | cons head tail inductionHypothesis =>
      rcases head with ⟨key, old⟩
      by_cases equal : name = key
      · subst equal
        simp only [insertEntry, if_true, List.lookup_cons, isOther]
      · by_cases before : name < key
        · simp only [insertEntry, if_neg equal, if_pos before, List.lookup_cons, isOther]
        · simp only [insertEntry, if_neg equal, if_neg before, List.lookup_cons,
            inductionHypothesis]

theorem ascending_insertEntry {Value : Type} (name : String) (value : Value)
    {entries : List (String × Value)} (ascending : AscendingEntries entries) :
    AscendingEntries (insertEntry name value entries) := by
  induction entries with
  | nil => exact List.pairwise_singleton _ _
  | cons head tail inductionHypothesis =>
      rcases head with ⟨key, old⟩
      rcases List.pairwise_cons.mp ascending with ⟨headFirst, tailAscending⟩
      by_cases equal : name = key
      · simp only [insertEntry, if_pos equal]
        exact List.pairwise_cons.mpr
          ⟨fun other later => equal ▸ headFirst other later, tailAscending⟩
      · by_cases before : name < key
        · simp only [insertEntry, if_neg equal, if_pos before]
          refine List.pairwise_cons.mpr ⟨?_, ascending⟩
          intro other member
          rcases List.mem_cons.mp member with same | later
          · exact same ▸ before
          · exact lt_trans before (headFirst other later)
        · simp only [insertEntry, if_neg equal, if_neg before]
          refine List.pairwise_cons.mpr ⟨?_, inductionHypothesis tailAscending⟩
          intro other member
          rcases mem_insertEntry member with same | later
          · exact same ▸ lt_of_ne_of_not_lt equal before
          · exact headFirst other later

/-- An entry whose name is greater than all others goes to the end. -/
theorem insertEntry_of_greater {Value : Type} (name : String) (value : Value)
    (entries : List (String × Value)) (greater : forall entry, entry ∈ entries -> entry.1 < name) :
    insertEntry name value entries = entries ++ [(name, value)] := by
  induction entries with
  | nil => rfl
  | cons head tail inductionHypothesis =>
      rcases head with ⟨key, old⟩
      have before : key < name := greater (key, old) List.mem_cons_self
      have tailGreater : forall entry, entry ∈ tail -> entry.1 < name :=
        fun entry later => greater entry (List.mem_cons_of_mem _ later)
      simp only [insertEntry, if_neg (ne_of_gt before), if_neg (lt_asymm before),
        inductionHypothesis tailGreater, List.cons_append]

/-- Inserting the entries of a map in their own order gives the map back. -/
theorem foldl_insertEntry_of_ascending {Value : Type} (entries : List (String × Value))
    (ascending : AscendingEntries entries) :
    entries.foldl (fun known entry => insertEntry entry.1 entry.2 known) [] = entries := by
  have general : forall known : List (String × Value), AscendingEntries (known ++ entries) ->
      entries.foldl (fun known entry => insertEntry entry.1 entry.2 known) known =
        known ++ entries := by
    clear ascending
    induction entries with
    | nil => exact fun known _ => (List.append_nil known).symm
    | cons head tail inductionHypothesis =>
        intro known ascending
        have greater : forall entry, entry ∈ known -> entry.1 < head.1 :=
          fun entry member =>
            (List.pairwise_append.mp ascending).2.2 entry member head List.mem_cons_self
        have regrouped : known ++ head :: tail = known ++ [head] ++ tail := by
          rw [List.append_assoc, List.singleton_append]
        rw [List.foldl_cons, insertEntry_of_greater _ _ _ greater, regrouped]
        exact inductionHypothesis _ (regrouped ▸ ascending)
  exact general [] ascending

/-! ## Sorting -/

theorem mem_insertBy {Item : Type} {less : Item -> Item -> Bool} {item other : Item}
    {items : List Item} : other ∈ insertBy less item items ↔ other = item ∨ other ∈ items := by
  induction items with
  | nil => simp only [insertBy, List.mem_singleton, List.not_mem_nil, or_false]
  | cons head tail inductionHypothesis =>
      unfold insertBy
      split
      · exact List.mem_cons
      · rw [List.mem_cons, inductionHypothesis, List.mem_cons]
        exact or_left_comm

theorem mem_sortBy {Item : Type} {less : Item -> Item -> Bool} {items : List Item} {other : Item} :
    other ∈ sortBy less items ↔ other ∈ items := by
  have general : forall sorted : List Item,
      other ∈ items.foldl (fun sorted item => insertBy less item sorted) sorted ↔
        other ∈ items ∨ other ∈ sorted := by
    induction items with
    | nil => exact fun sorted => by simp only [List.foldl_nil, List.not_mem_nil, false_or]
    | cons item rest inductionHypothesis =>
        intro sorted
        rw [List.foldl_cons, inductionHypothesis, mem_insertBy, List.mem_cons]
        exact or_left_comm.trans or_assoc.symm
  unfold sortBy
  rw [general]
  simp only [List.not_mem_nil, or_false]

theorem insertBy_perm {Item : Type} (less : Item -> Item -> Bool) (item : Item)
    (items : List Item) : (insertBy less item items).Perm (item :: items) := by
  induction items with
  | nil => exact List.Perm.refl _
  | cons head tail inductionHypothesis =>
      unfold insertBy
      split
      · exact List.Perm.refl _
      · exact (inductionHypothesis.cons head).trans (List.Perm.swap item head tail)

theorem sortBy_perm {Item : Type} (less : Item -> Item -> Bool) (items : List Item) :
    (sortBy less items).Perm items := by
  have general : forall sorted : List Item,
      (items.foldl (fun sorted item => insertBy less item sorted) sorted).Perm
        (sorted ++ items) := by
    induction items with
    | nil =>
        intro sorted
        rw [List.append_nil]
        exact List.Perm.refl _
    | cons item rest inductionHypothesis =>
        intro sorted
        have inserted := (insertBy_perm less item sorted).append_right rest
        exact (inductionHypothesis _).trans (inserted.trans List.perm_middle.symm)
  exact general []

section ByName

variable {Item : Type} {nameOf : Item -> String}

theorem pairwise_insertBy (item : Item) {items : List Item}
    (ordered : items.Pairwise (fun first second => nameOf first ≤ nameOf second)) :
    (insertBy (fun first second => decide (nameOf first < nameOf second)) item items).Pairwise
      (fun first second => nameOf first ≤ nameOf second) := by
  induction items with
  | nil => exact List.pairwise_singleton _ _
  | cons head tail inductionHypothesis =>
      rcases List.pairwise_cons.mp ordered with ⟨headFirst, tailOrdered⟩
      unfold insertBy
      split
      · rename_i before
        have precedes : nameOf item ≤ nameOf head := le_of_lt (of_decide_eq_true before)
        refine List.pairwise_cons.mpr ⟨?_, ordered⟩
        intro other member
        rcases List.mem_cons.mp member with same | later
        · rw [same]
          exact precedes
        · exact le_trans precedes (headFirst other later)
      · rename_i notBefore
        refine List.pairwise_cons.mpr ⟨?_, inductionHypothesis tailOrdered⟩
        intro other member
        rcases mem_insertBy.mp member with same | later
        · rw [same]
          exact le_of_not_gt (fun before => notBefore (decide_eq_true before))
        · exact headFirst other later

theorem pairwise_sortBy (items : List Item) :
    (sortBy (fun first second => decide (nameOf first < nameOf second)) items).Pairwise
      (fun first second => nameOf first ≤ nameOf second) := by
  have general : forall sorted : List Item,
      sorted.Pairwise (fun first second => nameOf first ≤ nameOf second) ->
      (items.foldl (fun sorted item =>
        insertBy (fun first second => decide (nameOf first < nameOf second)) item sorted)
        sorted).Pairwise (fun first second => nameOf first ≤ nameOf second) := by
    induction items with
    | nil => exact fun sorted ordered => ordered
    | cons item rest inductionHypothesis =>
        exact fun sorted ordered => inductionHypothesis _ (pairwise_insertBy item ordered)
  exact general [] List.Pairwise.nil

/-- Items with different names are sorted alike, in whatever order they come. -/
theorem sortBy_eq_of_perm {first second : List Item} (perm : first.Perm second)
    (distinct : (first.map nameOf).Nodup) :
    sortBy (fun first second => decide (nameOf first < nameOf second)) first =
      sortBy (fun first second => decide (nameOf first < nameOf second)) second := by
  refine List.Perm.eq_of_pairwise ?_ (pairwise_sortBy first) (pairwise_sortBy second)
    ((sortBy_perm _ first).trans (perm.trans (sortBy_perm _ second).symm))
  intro item other isItem isOther before after
  have inFirst : other ∈ first := perm.mem_iff.mpr (mem_sortBy.mp isOther)
  exact List.inj_on_of_nodup_map distinct (mem_sortBy.mp isItem) inFirst (le_antisymm before after)

section Paired

variable {related : Item -> Item -> Prop}
  (sameName : forall item other, related item other -> nameOf other = nameOf item)

include sameName

theorem forall₂_insertBy {item other : Item} {items others : List Item}
    (isRelated : related item other) (paired : List.Forall₂ related items others) :
    List.Forall₂ related
      (insertBy (fun first second => decide (nameOf first < nameOf second)) item items)
      (insertBy (fun first second => decide (nameOf first < nameOf second)) other others) := by
  induction paired with
  | nil => exact .cons isRelated .nil
  | @cons head otherHead _ _ first rest inductionHypothesis =>
      unfold insertBy
      rw [sameName item other isRelated, sameName head otherHead first]
      split
      · exact .cons isRelated (.cons first rest)
      · exact .cons first inductionHypothesis

/-- Items that are related to others with the same names stay beside them when both
are sorted. -/
theorem forall₂_sortBy {items others : List Item} (paired : List.Forall₂ related items others) :
    List.Forall₂ related
      (sortBy (fun first second => decide (nameOf first < nameOf second)) items)
      (sortBy (fun first second => decide (nameOf first < nameOf second)) others) := by
  refine List.rel_foldl ?_ .nil paired
  intro sorted otherSorted isSorted item other isRelated
  exact forall₂_insertBy sameName isRelated isSorted

end Paired

/-! ## Searching -/

variable {name : String} {items : List Item} {first count : Nat}

/-- What holds of a stretch that is narrowed down: every item behind it is greater than
the name, and its first item is not, unless this is the first of all. -/
structure Brackets (nameOf : Item -> String) (name : String) (items : List Item)
    (first count : Nat) : Prop where
  behind : forall index (inside : index < items.length), first + count ≤ index ->
    name < nameOf items[index]
  front : first = 0 ∨ forall inside : first < items.length, nameOf items[first] ≤ name

theorem brackets_all (nameOf : Item -> String) (name : String) (items : List Item) :
    Brackets nameOf name items 0 items.length := by
  refine ⟨fun index inside outside => ?_, Or.inl rfl⟩
  omega

theorem nameOf_le (ordered : items.Pairwise (fun first second => nameOf first ≤ nameOf second))
    {index other : Nat} (inside : other < items.length) (upTo : index ≤ other) :
    nameOf items[index] ≤ nameOf items[other] := by
  rcases Nat.lt_or_eq_of_le upTo with before | same
  · exact List.pairwise_iff_getElem.mp ordered index other _ inside before
  · subst same
    exact le_refl _

/-- One item of an ordered list is left that no item behind reaches. -/
theorem Brackets.narrow
    (ordered : items.Pairwise (fun first second => nameOf first ≤ nameOf second))
    (brackets : Brackets nameOf name items first count) (some : 0 < count)
    (within : first + count ≤ items.length) :
    Brackets nameOf name items
      (Ordered.narrow (fun item => compare (nameOf item) name) items first count some within) 1 := by
  fun_induction Ordered.narrow (fun item => compare (nameOf item) name) items first count some
    within with
  | case1 first count some within several middle inside isGreater inductionHypothesis =>
      have greater : name < nameOf items[middle] := compare_gt_iff_gt.mp isGreater
      refine inductionHypothesis ⟨fun index inside outside => ?_, brackets.front⟩
      have reached : middle ≤ index := by omega
      exact lt_of_lt_of_le greater (nameOf_le ordered inside reached)
  | case2 first count some within several middle inside notGreater inductionHypothesis =>
      have upTo : nameOf items[middle] ≤ name :=
        le_of_not_gt (fun greater => notGreater (compare_gt_iff_gt.mpr greater))
      refine inductionHypothesis ⟨fun index inside outside => ?_, Or.inr (fun _ => upTo)⟩
      exact brackets.behind index inside (by omega)
  | case3 first count some within single =>
      have isSingle : count = 1 := by omega
      exact isSingle ▸ brackets

/-- An item that is found has the name, whatever the order of the list is. -/
theorem eq_of_search {place : Fin items.length}
    (found : search (fun item => compare (nameOf item) name) items = some place) :
    nameOf (items.get place) = name := by
  unfold search at found
  split at found
  · simp only at found
    split at found
    · rename_i isEqual
      cases found
      exact compare_eq_iff_eq.mp isEqual
    · cases found
  · cases found

/-- An ordered list has an item with a name if one is found, and only then. -/
theorem search_eq_none_iff
    (ordered : items.Pairwise (fun first second => nameOf first ≤ nameOf second)) :
    search (fun item => compare (nameOf item) name) items = none ↔
      forall item, item ∈ items -> nameOf item ≠ name := by
  constructor
  · intro missed item member named
    obtain ⟨index, inside, isItem⟩ := List.getElem_of_mem member
    have nonempty : 0 < items.length := Nat.zero_lt_of_lt inside
    have left := (brackets_all nameOf name items).narrow ordered nonempty
      (Nat.le_of_eq (Nat.zero_add _))
    unfold search at missed
    rw [dif_pos nonempty] at missed
    simp only at missed
    generalize Ordered.narrow _ items 0 items.length nonempty _ = place at left missed
    split at missed
    · cases missed
    · rename_i differs
      apply differs
      apply compare_eq_iff_eq.mpr
      have upTo : index ≤ place.val := by
        by_contra behind
        have greater := left.behind index inside (by omega)
        rw [isItem, named] at greater
        exact lt_irrefl _ greater
      have above : name ≤ nameOf (items.get place) := by
        rw [← named, ← isItem]
        exact nameOf_le ordered place.isLt upTo
      rcases left.front with isFirst | below
      · have same : place = ⟨index, inside⟩ := Fin.ext (show place.val = index by omega)
        rw [same, ← named, ← isItem]
        rfl
      · exact le_antisymm (below place.isLt) above
  · intro different
    cases found : search (fun item => compare (nameOf item) name) items with
    | none => rfl
    | some place =>
        exact absurd (eq_of_search found) (different _ (List.get_mem items place))

/-- If no two items share a name, every item is found under its own. -/
theorem search_nameOf
    (ordered : items.Pairwise (fun first second => nameOf first ≤ nameOf second))
    (distinct : (items.map nameOf).Nodup) {item : Item} (member : item ∈ items) :
    (search (fun other => compare (nameOf other) (nameOf item)) items).map items.get =
      some item := by
  cases found : search (fun other => compare (nameOf other) (nameOf item)) items with
  | none => exact absurd rfl ((search_eq_none_iff ordered).mp found item member)
  | some place =>
      rw [Option.map_some]
      exact congrArg some (List.inj_on_of_nodup_map distinct (List.get_mem items place) member
        (eq_of_search found))

end ByName

end Ordered
end CilGraph
