import CilGraph.Proofs.Dispatch.Placement

namespace CilGraph
namespace Dispatch

/-!
# Conversion tables

A value is converted to one of its types by adding the offset at which the part
of that type begins.  The conversion table lists these offsets by name.  Parts
are entered in a fixed order, the root first, then its chain of base tables, and
then its interfaces.  A name that is there is not entered again, so of several
parts with one name the first counts.

An interface may have a chain of base tables of its own.  These have regions, but
a value is not converted to them.  On the way along the base tables of the root
the collection would take in interfaces as well, if there were any: placing has
dropped them, which is why the collection comes down to the list `targets`.
-/

namespace Table

/-- The parts that a value is converted to, in the order in which they are entered. -/
def targets (table : Table) : List Table :=
  table.chain ++ table.interfaces

/-- Enter parts one after another. -/
def enterAll (entries : List (String × UInt32)) (parts : List Table) : List (String × UInt32) :=
  parts.foldl (fun entries part => enter entries part.name part.offset) entries

/-! ## Entering parts -/

section Entries

variable {entries : List (String × UInt32)} {label : String} {offset : UInt32}

theorem lookup_enter (entries : List (String × UInt32)) (label name : String) (offset : UInt32) :
    (enter entries label offset).lookup name =
      (entries.lookup name).or (if label == name then some offset else none) := by
  have sameTest : (name == label) = (label == name) := Bool.beq_comm
  unfold enter
  by_cases known : entries.any (fun entry => entry.1 == label) = true
  · rw [if_pos known]
    cases found : entries.lookup name with
    | some earlier => rfl
    | none =>
        rcases List.any_eq_true.mp known with ⟨entry, member, isLabel⟩
        have differs := List.lookup_eq_none_iff.mp found entry member
        rw [eq_of_beq isLabel, bne, sameTest] at differs
        rw [if_neg (Bool.not_eq_true _ ▸ Bool.not_eq_true' _ ▸ differs)]
        rfl
  · rw [if_neg known, List.lookup_append, List.lookup_cons, List.lookup_nil, sameTest]
    by_cases same : (label == name) = true <;> simp [same]

theorem nodup_enter (label : String) (offset : UInt32) (distinct : (entries.map Prod.fst).Nodup) :
    ((enter entries label offset).map Prod.fst).Nodup := by
  unfold enter
  split
  · exact distinct
  · rename_i isNew
    rw [List.map_append]
    refine List.Nodup.append distinct (List.nodup_singleton _) ?_
    apply List.disjoint_singleton.mpr
    intro known
    rcases List.mem_map.mp known with ⟨entry, member, same⟩
    exact isNew (List.any_eq_true.mpr ⟨entry, member, beq_iff_eq.mpr same⟩)

theorem mem_enter {entry : String × UInt32} (member : entry ∈ enter entries label offset) :
    entry ∈ entries ∨ entry = (label, offset) := by
  unfold enter at member
  split at member
  · exact Or.inl member
  · simpa using member

theorem mem_names_enter_iff (entries : List (String × UInt32)) (label name : String)
    (offset : UInt32) :
    name ∈ (enter entries label offset).map Prod.fst ↔ name ∈ entries.map Prod.fst ∨ name = label := by
  unfold enter
  split
  · rename_i known
    refine ⟨Or.inl, ?_⟩
    rintro (earlier | isLabel)
    · exact earlier
    · rcases List.any_eq_true.mp known with ⟨entry, member, same⟩
      exact List.mem_map.mpr ⟨entry, member, (eq_of_beq same).trans isLabel.symm⟩
  · rw [List.map_append, List.mem_append, List.map_singleton, List.mem_singleton]

end Entries

section Parts

variable {entries : List (String × UInt32)}

/-- Of several parts with one name the first is found, and it is hidden by an
entry that was there before. -/
theorem lookup_enterAll (entries : List (String × UInt32)) (parts : List Table) (name : String) :
    (enterAll entries parts).lookup name =
      (entries.lookup name).or ((parts.find? (fun part => part.name == name)).map offset) := by
  induction parts generalizing entries with
  | nil => simp [enterAll]
  | cons first rest inductionHypothesis =>
      change (enterAll (enter entries first.name first.offset) rest).lookup name = _
      rw [inductionHypothesis, lookup_enter, List.find?_cons, Option.or_assoc]
      by_cases same : (first.name == name) = true <;> simp [same]

theorem nodup_enterAll (parts : List Table) (distinct : (entries.map Prod.fst).Nodup) :
    ((enterAll entries parts).map Prod.fst).Nodup := by
  induction parts generalizing entries with
  | nil => exact distinct
  | cons first rest inductionHypothesis => exact inductionHypothesis (nodup_enter _ _ distinct)

theorem mem_enterAll {parts : List Table} {entry : String × UInt32}
    (member : entry ∈ enterAll entries parts) :
    entry ∈ entries ∨ exists part, part ∈ parts ∧ entry = (part.name, part.offset) := by
  induction parts generalizing entries with
  | nil => exact Or.inl member
  | cons first rest inductionHypothesis =>
      rcases inductionHypothesis member with entered | ⟨part, later, same⟩
      · rcases mem_enter entered with earlier | isFirst
        · exact Or.inl earlier
        · exact Or.inr ⟨first, List.mem_cons_self, isFirst⟩
      · exact Or.inr ⟨part, List.mem_cons_of_mem first later, same⟩

/-- The names that are entered are those of the parts. -/
theorem mem_names_enterAll_iff (parts : List Table) (label : String) :
    label ∈ (enterAll entries parts).map Prod.fst ↔
      label ∈ entries.map Prod.fst ∨ label ∈ parts.map name := by
  induction parts generalizing entries with
  | nil => simp [enterAll]
  | cons first rest inductionHypothesis =>
      change label ∈ (enterAll (enter entries first.name first.offset) rest).map Prod.fst ↔ _
      rw [inductionHypothesis, mem_names_enter_iff, List.map_cons, List.mem_cons, or_assoc]

end Parts

/-! ## Collecting parts -/

theorem collectConversions_eq (entries : List (String × UInt32)) (table : Table) :
    collectConversions entries table =
      table.interfaces.foldl (fun entries part => Table.enter entries part.name part.offset)
        (collectBase (Table.enter entries table.name table.offset) table.base) := by
  cases table
  rw [collectConversions]

/-- Where no base table has interfaces, collecting enters the targets in order. -/
theorem collectConversions_eq_enterAll (entries : List (String × UInt32)) (table : Table)
    (flat : forall node, node ∈ chainOfBase table.base -> node.interfaces = []) :
    collectConversions entries table = enterAll entries table.targets := by
  induction table using baseInduction generalizing entries with
  | step table inductionHypothesis =>
      rw [collectConversions_eq, targets, chain_eq]
      cases isBase : table.base with
      | none => rfl
      | some base =>
          rw [isBase] at flat
          change forall node, node ∈ base.chain -> node.interfaces = [] at flat
          rw [chain_eq] at flat
          rcases List.forall_mem_cons.mp flat with ⟨plain, flatAbove⟩
          change table.interfaces.foldl _ (collectConversions _ base) = _
          rw [inductionHypothesis base isBase _ flatAbove, targets, plain, List.append_nil]
          exact (List.foldl_append).symm

/-! ## Placed tables -/

theorem names_placeEach (pointerSize offset : UInt32) (tables : List Table) :
    (placeEach pointerSize offset tables).1.map name = tables.map name := by
  induction tables generalizing offset with
  | nil => rfl
  | cons table rest inductionHypothesis =>
      rw [placeEach_cons, List.map_cons, List.map_cons, inductionHypothesis, placeBelow_eq]

section Placed

variable (pointerSize : UInt32) (table : Table)

theorem conversions_convert_place :
    (table.place pointerSize).convert.conversions =
      enterAll [] (table.place pointerSize).targets := by
  apply collectConversions_eq_enterAll
  intro node member
  refine interfaces_of_mem_placeBase pointerSize
    (table.offset + table.placedSize pointerSize) table.base ?_
  exact mem_nodesOfBase_of_mem_chain member

/-- Converting changes no part, apart from the entries of the root. -/
theorem find?_targets_convert (name : String) :
    (table.convert.targets.find? (fun part => part.name == name)).map offset =
      (table.targets.find? (fun part => part.name == name)).map offset := by
  unfold targets
  rw [chain_eq, chain_eq, List.cons_append, List.cons_append, List.find?_cons, List.find?_cons]
  change Option.map offset (match table.name == name with
    | true => some table.convert
    | false => _) = _
  cases table.name == name <;> rfl

/-- A name stands for the first target that has it. -/
theorem conversion?_convert_place (label : String) :
    (table.place pointerSize).convert.conversion? label =
      ((table.place pointerSize).convert.targets.find? (fun part => part.name == label)).map
        offset := by
  rw [find?_targets_convert]
  unfold conversion?
  rw [conversions_convert_place, lookup_enterAll]
  rfl

/-- Placing leaves the names of all targets as they are. -/
theorem names_targets_place :
    (table.place pointerSize).targets.map name = table.targets.map name := by
  have ofChain : (table.place pointerSize).chain.map name = table.chain.map name := by
    have same := congrArg (List.map Content.name) (chain_placeBase pointerSize
      (table.offset + table.placedSize pointerSize) table.base)
    rw [List.map_map, List.map_map] at same
    rw [chain_eq, chain_eq, List.map_cons, List.map_cons]
    exact congrArg (table.name :: ·) same
  unfold targets
  rw [List.map_append, List.map_append, ofChain]
  exact congrArg (table.chain.map name ++ ·) (names_placeEach pointerSize _ table.interfaces)

theorem mem_nodes_of_mem_targets {part : Table} (member : part ∈ table.targets) :
    part ∈ table.nodes := by
  rcases List.mem_append.mp member with inChain | isInterface
  · exact mem_nodes_of_mem_chain inChain
  · rw [nodes_eq]
    exact List.mem_cons_of_mem _ (List.mem_append_right _ (mem_nodesOfList_of_mem isInterface))

end Placed

/-- Everything that the conversion table of a finished table promises. -/
structure Converts (table finished : Table) : Prop where
  distinct : (finished.conversions.map Prod.fst).Nodup
  /-- The names are those of the root, of its base tables and of its interfaces. -/
  listed : forall label, label ∈ finished.conversions.map Prod.fst ↔
    label ∈ (table.chain ++ table.interfaces).map name
  /-- A name stands for the first of these parts that has it. -/
  first : forall label, finished.conversion? label =
    ((finished.chain ++ finished.interfaces).find? (fun part => part.name == label)).map offset
  /-- This is where the region of that part begins. -/
  located : forall label offset, finished.conversion? label = some offset ->
    exists region, region ∈ finished.regions ∧ region.name = label ∧ region.offset = offset
  within : forall label offset, (label, offset) ∈ finished.conversions ->
    table.offset.toNat ≤ offset.toNat ∧ offset.toNat < finished.conversionOffset.toNat

theorem convert_converts (pointerSize : UInt32) (table : Table) (positive : 0 < pointerSize)
    (fits : table.offset.toNat + table.footprint pointerSize.toNat < 2 ^ 32) :
    Converts table (table.place pointerSize).convert := by
  have collected := conversions_convert_place pointerSize table
  have adjoining := adjoining_place pointerSize table fits
  refine ⟨?_, ?_, ?_, ?_, ?_⟩
  · rw [collected]
    exact nodup_enterAll _ List.nodup_nil
  · intro label
    rw [collected, mem_names_enterAll_iff, names_targets_place]
    exact or_iff_right List.not_mem_nil
  · exact conversion?_convert_place pointerSize table
  · intro label offset converts
    rw [conversion?_convert_place] at converts
    rcases Option.map_eq_some_iff.mp converts with ⟨part, selected, isOffset⟩
    have isNode := mem_nodes_of_mem_targets _ (List.mem_of_find?_eq_some selected)
    have isName := List.find?_some selected
    refine ⟨part.region, ?_, eq_of_beq isName, isOffset⟩
    rw [regions_eq_map]
    exact List.mem_map_of_mem isNode
  · intro label offset member
    rw [collected] at member
    rcases mem_enterAll member with impossible | ⟨part, among, same⟩
    · cases impossible
    · cases same
      have isNode := mem_nodes_of_mem_targets _ among
      have ends := adjoining.end_le_of_mem isNode
      have room : 0 < part.extent pointerSize.toNat :=
        Nat.mul_pos (Nat.succ_pos _) (UInt32.lt_iff_toNat_lt.mp positive)
      refine ⟨adjoining.offset_le_of_mem isNode, ?_⟩
      change part.offset.toNat < (table.place pointerSize).conversionOffset.toNat
      omega

/-- A class that lists an interface under the name of its base class. -/
def sampleNamesake : Table :=
  { sampleTable with
    interfaces := { sampleTable with name := "Figure", base := none, interfaces := [] } ::
      sampleTable.interfaces }

/-- The second `Figure` and the base of `IRound` have regions and no entries. -/
theorem convert_sampleNamesake :
    (sampleNamesake.place 8).convert.regions =
        [⟨"Disc", 16, 24⟩, ⟨"Figure", 40, 32⟩, ⟨"Figure", 72, 24⟩, ⟨"IRound", 96, 16⟩,
          ⟨"IShape", 112, 16⟩] ∧
      (sampleNamesake.place 8).convert.conversions =
        [("Disc", 16), ("Figure", 40), ("IRound", 96)] ∧
      Converts sampleNamesake (sampleNamesake.place 8).convert :=
  ⟨by decide +kernel, by decide +kernel,
    convert_converts 8 sampleNamesake (by decide) (by decide +kernel)⟩

end Table
end Dispatch
end CilGraph
