import CilGraph.Proofs.Dispatch.Slots
import Mathlib.Algebra.GroupWithZero.Nat

namespace CilGraph
namespace Dispatch

/-!
# Placement of tables

Placing a table walks over it once and hands an offset from part to part.  The
regions are collected by a second walk, which knows nothing of the first.  Both
visit the parts in the same order, so the regions that are collected lie one
after another: each has a header and one pointer for every slot of its part, and
begins where the one before it ends.

The order is that of `nodes`, which lists every part of a table.  Placing
changes the table while it walks, because the interfaces of all parts but the
root are dropped.  What is left is the root with its chain of base tables, and
each interface of the root with its own chain.  The chains are as they were.

Offsets are machine words.  `footprint` counts the bytes that the regions take
without a bound, and the statements about offsets ask that they fit.
-/

namespace Table

/-! ## Parts -/

mutual

/-- All parts of a table: the table itself, its base table with all its parts,
and each interface with all its parts. -/
def nodes : Table -> List Table
  | table@⟨_, _, _, _, base, interfaces, _, _, _, _⟩ =>
    table :: (nodesOfBase base ++ nodesOfList interfaces)

/-- All parts of a base table. -/
def nodesOfBase : Option Table -> List Table
  | none => []
  | some base => nodes base

/-- All parts of several tables. -/
def nodesOfList : List Table -> List Table
  | [] => []
  | table :: rest => nodes table ++ nodesOfList rest

end

mutual

/-- A table with its chain of base tables. -/
def chain : Table -> List Table
  | table@⟨_, _, _, _, base, _, _, _, _, _⟩ => table :: chainOfBase base

/-- The chain of a base table. -/
def chainOfBase : Option Table -> List Table
  | none => []
  | some base => chain base

end

theorem nodes_eq (table : Table) :
    table.nodes = table :: (nodesOfBase table.base ++ nodesOfList table.interfaces) := by
  cases table
  rw [nodes]

theorem chain_eq (table : Table) : table.chain = table :: chainOfBase table.base := by
  cases table
  rw [chain]

theorem mem_nodes_of_mem_chain {table node : Table} (member : node ∈ table.chain) :
    node ∈ table.nodes := by
  induction table using baseInduction with
  | step table inductionHypothesis =>
      rw [chain_eq] at member
      rw [nodes_eq]
      rcases List.mem_cons.mp member with same | above
      · exact List.mem_cons.mpr (Or.inl same)
      · refine List.mem_cons_of_mem _ (List.mem_append_left _ ?_)
        cases isBase : table.base with
        | none =>
            rw [isBase] at above
            cases above
        | some base =>
            rw [isBase] at above
            exact inductionHypothesis base isBase above

theorem mem_nodesOfBase_of_mem_chain {base : Option Table} {node : Table}
    (member : node ∈ chainOfBase base) : node ∈ nodesOfBase base := by
  cases base with
  | none => cases member
  | some base => exact mem_nodes_of_mem_chain member

theorem mem_nodesOfList_of_mem {tables : List Table} {table : Table} (member : table ∈ tables) :
    table ∈ nodesOfList tables := by
  induction tables with
  | nil => cases member
  | cons first rest inductionHypothesis =>
      rw [nodesOfList]
      rcases List.mem_cons.mp member with same | later
      · rw [same, nodes_eq]
        exact List.mem_append_left _ List.mem_cons_self
      · exact List.mem_append_right _ (inductionHypothesis later)

/-- The region that a part has. -/
def region (node : Table) : Region :=
  ⟨node.name, node.offset, node.regionSize⟩

mutual

/-- The regions of a table are those of its parts. -/
theorem regions_eq_map : (table : Table) -> table.regions = table.nodes.map region
  | ⟨_, _, _, _, base, interfaces, _, _, _, _⟩ => by
    rw [regions, nodes, regionsOfBase_eq_map base, regionsOfList_eq_map interfaces,
      List.map_cons, List.map_append]
    rfl

theorem regionsOfBase_eq_map :
    (base : Option Table) -> regionsOfBase base = (nodesOfBase base).map region
  | none => rfl
  | some base => by rw [regionsOfBase, nodesOfBase, regions_eq_map base]

theorem regionsOfList_eq_map :
    (tables : List Table) -> regionsOfList tables = (nodesOfList tables).map region
  | [] => rfl
  | table :: rest => by
    rw [regionsOfList, nodesOfList, regions_eq_map table, regionsOfList_eq_map rest,
      List.map_append]

end

/-- What a part is, apart from where it lies and what hangs below it. -/
structure Content where
  type : Token
  resolved : Token
  name : String
  members : List MethodDef
  conversions : List (String × UInt32)
deriving DecidableEq, Repr

/-- The content of a part. -/
def content (node : Table) : Content :=
  ⟨node.type, node.resolved, node.name, node.members, node.conversions⟩

/-! ## Regions one after another -/

/-- The bytes of the region of a part: a header and one pointer for each slot. -/
def extent (pointerSize : Nat) (node : Table) : Nat :=
  (node.members.length + 1) * pointerSize

/-- The bytes of the regions along a chain. -/
def chainExtent (pointerSize : Nat) (table : Table) : Nat :=
  (table.chain.map (extent pointerSize)).sum

/-- The bytes of all regions of a table once it is placed. -/
def footprint (pointerSize : Nat) (table : Table) : Nat :=
  table.chainExtent pointerSize + (table.interfaces.map (chainExtent pointerSize)).sum

theorem sum_extent_eq {first second : List Table} (same : first.map content = second.map content)
    (bytes : Nat) : (first.map (extent bytes)).sum = (second.map (extent bytes)).sum := by
  have ofContent : forall nodes : List Table, nodes.map (extent bytes) =
      (nodes.map content).map (fun content => (content.members.length + 1) * bytes) := by
    intro nodes
    rw [List.map_map]
    rfl
  rw [ofContent first, ofContent second, same]

/-- Parts whose regions lie one after another, from an offset up to a stop. -/
inductive Adjoining (pointerSize : Nat) : Nat -> List Table -> Nat -> Prop
  | nil {offset : Nat} : Adjoining pointerSize offset [] offset
  | cons {offset stop : Nat} {node : Table} {rest : List Table}
      (begins : node.offset.toNat = offset)
      (sized : node.regionSize.toNat = node.extent pointerSize)
      (follow : Adjoining pointerSize (offset + node.extent pointerSize) rest stop) :
      Adjoining pointerSize offset (node :: rest) stop

namespace Adjoining

variable {pointerSize offset middle stop : Nat} {first second nodes : List Table}

theorem append (early : Adjoining pointerSize offset first middle)
    (late : Adjoining pointerSize middle second stop) :
    Adjoining pointerSize offset (first ++ second) stop := by
  induction early with
  | nil => exact late
  | cons begins sized _ inductionHypothesis => exact .cons begins sized (inductionHypothesis late)

theorem sized_of_mem (adjoining : Adjoining pointerSize offset nodes stop) {node : Table}
    (member : node ∈ nodes) : node.regionSize.toNat = node.extent pointerSize := by
  induction adjoining with
  | nil => cases member
  | cons begins sized _ inductionHypothesis =>
      rcases List.mem_cons.mp member with same | later
      · rw [same]
        exact sized
      · exact inductionHypothesis later

theorem offset_le_of_mem (adjoining : Adjoining pointerSize offset nodes stop) {node : Table}
    (member : node ∈ nodes) : offset ≤ node.offset.toNat := by
  induction adjoining with
  | nil => cases member
  | cons begins sized _ inductionHypothesis =>
      rcases List.mem_cons.mp member with same | later
      · rw [same, begins]
      · have further := inductionHypothesis later
        omega

/-- A region ends before every later one begins. -/
theorem pairwise (adjoining : Adjoining pointerSize offset nodes stop) :
    nodes.Pairwise (fun earlier later =>
      earlier.offset.toNat + earlier.regionSize.toNat ≤ later.offset.toNat) := by
  induction adjoining with
  | nil => exact List.Pairwise.nil
  | cons begins sized follow inductionHypothesis =>
      refine List.pairwise_cons.mpr ⟨?_, inductionHypothesis⟩
      intro later member
      rw [begins, sized]
      exact follow.offset_le_of_mem member

/-- Of two different parts one ends before the other begins. -/
theorem apart (adjoining : Adjoining pointerSize offset nodes stop) {node other : Table}
    (member : node ∈ nodes) (among : other ∈ nodes) :
    node = other ∨ node.offset.toNat + node.extent pointerSize ≤ other.offset.toNat ∨
      other.offset.toNat + other.extent pointerSize ≤ node.offset.toNat := by
  induction adjoining with
  | nil => cases member
  | cons begins sized follow inductionHypothesis =>
      rcases List.mem_cons.mp member with isFirst | later
      · rcases List.mem_cons.mp among with otherFirst | otherLater
        · exact Or.inl (isFirst.trans otherFirst.symm)
        · rw [isFirst, begins]
          exact Or.inr (Or.inl (follow.offset_le_of_mem otherLater))
      · rcases List.mem_cons.mp among with otherFirst | otherLater
        · rw [otherFirst, begins]
          exact Or.inr (Or.inr (follow.offset_le_of_mem later))
        · exact inductionHypothesis later otherLater

/-- A region begins where the one before it ends. -/
theorem gapless (adjoining : Adjoining pointerSize offset nodes stop) {index : Nat}
    {node next : Table} (here : nodes[index]? = some node)
    (after : nodes[index + 1]? = some next) :
    next.offset.toNat = node.offset.toNat + node.regionSize.toNat := by
  induction adjoining generalizing index with
  | nil => cases here
  | cons begins sized follow inductionHypothesis =>
      cases index with
      | zero =>
          cases here
          cases follow with
          | nil => cases after
          | cons beginsNext _ _ =>
              cases after
              rw [beginsNext, begins, sized]
      | succ index => exact inductionHypothesis here after

theorem offset_le_stop (adjoining : Adjoining pointerSize offset nodes stop) : offset ≤ stop := by
  induction adjoining with
  | nil => exact Nat.le_refl _
  | cons begins sized _ inductionHypothesis =>
      exact Nat.le_trans (Nat.le_add_right _ _) inductionHypothesis

/-- No region reaches beyond the stop. -/
theorem end_le_of_mem (adjoining : Adjoining pointerSize offset nodes stop) {node : Table}
    (member : node ∈ nodes) : node.offset.toNat + node.extent pointerSize ≤ stop := by
  induction adjoining with
  | nil => cases member
  | cons begins sized follow inductionHypothesis =>
      rcases List.mem_cons.mp member with same | later
      · rw [same, begins]
        exact follow.offset_le_stop
      · exact inductionHypothesis later

/-- The stop is where the last region ends. -/
theorem getLast? (adjoining : Adjoining pointerSize offset nodes stop) {last : Table}
    (isLast : nodes.getLast? = some last) :
    last.offset.toNat + last.regionSize.toNat = stop := by
  induction adjoining with
  | nil => cases isLast
  | cons begins sized follow inductionHypothesis =>
      cases follow with
      | nil =>
          rw [← Option.some.inj isLast, List.getLast_singleton, begins, sized]
      | cons beginsNext sizedNext followNext =>
          rw [List.getLast?_cons_cons] at isLast
          exact inductionHypothesis isLast

end Adjoining

/-! ## Placing below the root -/

/-- A word does not wrap while its value fits. -/
theorem toNat_regionSize {count : Nat} {pointerSize : UInt32}
    (fits : (count + 1) * pointerSize.toNat < 2 ^ 32) :
    ((UInt32.ofNat count + 1) * pointerSize).toNat = (count + 1) * pointerSize.toNat := by
  have reduced : ((UInt32.ofNat count + 1) * pointerSize).toNat =
      (count + 1) * pointerSize.toNat % 2 ^ 32 := by
    simp only [UInt32.toNat_mul, UInt32.toNat_add, UInt32.toNat_ofNat', UInt32.toNat_one,
      Nat.mod_add_mod, Nat.mod_mul_mod]
  rw [reduced, Nat.mod_eq_of_lt fits]

theorem toNat_offset_add {offset size : UInt32} (fits : offset.toNat + size.toNat < 2 ^ 32) :
    (offset + size).toNat = offset.toNat + size.toNat := by
  rw [UInt32.toNat_add, Nat.mod_eq_of_lt fits]

/-- The size that a part gets. -/
def placedSize (pointerSize : UInt32) (node : Table) : UInt32 :=
  (UInt32.ofNat node.members.length + 1) * pointerSize

/-- Placing a part drops its interfaces and places its base table behind it. -/
theorem placeBelow_eq (pointerSize offset : UInt32) (table : Table) :
    placeBelow pointerSize offset table =
      ({ table with
          base := (placeBase pointerSize (offset + table.placedSize pointerSize) table.base).1
          interfaces := []
          offset := offset
          regionSize := table.placedSize pointerSize
          conversionOffset :=
            (placeBase pointerSize (offset + table.placedSize pointerSize) table.base).2 },
        (placeBase pointerSize (offset + table.placedSize pointerSize) table.base).2) := by
  cases table
  rw [placeBelow]
  rfl

/-- The base table is placed as any other part. -/
theorem placeBase_some (pointerSize offset : UInt32) (base : Table) :
    placeBase pointerSize offset (some base) =
      (some (placeBelow pointerSize offset base).1, (placeBelow pointerSize offset base).2) := by
  rw [placeBase]

theorem chainExtent_eq (bytes : Nat) (table : Table) :
    table.chainExtent bytes =
      table.extent bytes + ((chainOfBase table.base).map (extent bytes)).sum := by
  unfold chainExtent
  rw [chain_eq, List.map_cons, List.sum_cons]

/-- The regions of a part and of its base tables lie one after another. -/
theorem adjoining_placeBelow (pointerSize offset : UInt32) (table : Table)
    (fits : offset.toNat + table.chainExtent pointerSize.toNat < 2 ^ 32) :
    Adjoining pointerSize.toNat offset.toNat (placeBelow pointerSize offset table).1.nodes
        (placeBelow pointerSize offset table).2.toNat ∧
      (placeBelow pointerSize offset table).2.toNat =
        offset.toNat + table.chainExtent pointerSize.toNat := by
  induction table using baseInduction generalizing offset with
  | step table inductionHypothesis =>
      rw [chainExtent_eq] at fits ⊢
      have sized : (table.placedSize pointerSize).toNat = table.extent pointerSize.toNat :=
        toNat_regionSize (show table.extent pointerSize.toNat < 2 ^ 32 by omega)
      have next : (offset + table.placedSize pointerSize).toNat =
          offset.toNat + table.extent pointerSize.toNat := by
        rw [toNat_offset_add (by omega), sized]
      rw [placeBelow_eq, nodes_eq]
      cases isBase : table.base with
      | none =>
          rw [isBase] at fits
          refine ⟨.cons rfl sized ?_, next⟩
          change Adjoining _ _ [] (offset + table.placedSize pointerSize).toNat
          rw [next]
          exact .nil
      | some base =>
          rw [isBase] at fits
          change _ + (_ + base.chainExtent pointerSize.toNat) < _ at fits
          rcases inductionHypothesis base isBase (offset + table.placedSize pointerSize)
            (by omega) with ⟨below, stop⟩
          rw [placeBase_some]
          rw [next] at below stop
          refine ⟨.cons rfl sized ?_, ?_⟩
          · simp only [nodesOfBase, nodesOfList, List.append_nil]
            exact below
          · rw [stop, Nat.add_assoc]
            rfl

/-- No part that is placed below the root keeps interfaces. -/
theorem interfaces_of_mem_placeBelow (pointerSize offset : UInt32) (table : Table) {node : Table}
    (member : node ∈ (placeBelow pointerSize offset table).1.nodes) : node.interfaces = [] := by
  induction table using baseInduction generalizing offset with
  | step table inductionHypothesis =>
      rw [placeBelow_eq, nodes_eq] at member
      rcases List.mem_cons.mp member with same | below
      · rw [same]
      · cases isBase : table.base with
        | none =>
            rw [isBase] at below
            cases below
        | some base =>
            rw [isBase, placeBase_some] at below
            simp only [nodesOfBase, nodesOfList, List.append_nil] at below
            exact inductionHypothesis base isBase _ below

/-- Placing leaves a chain as it is. -/
theorem chain_placeBelow (pointerSize offset : UInt32) (table : Table) :
    (placeBelow pointerSize offset table).1.chain.map content = table.chain.map content := by
  induction table using baseInduction generalizing offset with
  | step table inductionHypothesis =>
      rw [placeBelow_eq, chain_eq, chain_eq, List.map_cons, List.map_cons]
      cases isBase : table.base with
      | none => rfl
      | some base =>
          rw [placeBase_some]
          exact congrArg (table.content :: ·) (inductionHypothesis base isBase _)

theorem mem_slots_of_placeBelow (pointerSize offset : UInt32) (table : Table) {slot : MethodDef}
    (member : slot ∈ (placeBelow pointerSize offset table).1.slots) : slot ∈ table.slots := by
  induction table using baseInduction generalizing offset with
  | step table inductionHypothesis =>
      rw [placeBelow_eq, slots_eq] at member
      simp only [slotsOfList, List.append_nil] at member
      rw [slots_eq]
      refine List.mem_append_left _ ?_
      rcases List.mem_append.mp member with own | below
      · exact List.mem_append_left _ own
      · refine List.mem_append_right _ ?_
        cases isBase : table.base with
        | none =>
            rw [isBase] at below
            cases below
        | some base =>
            rw [isBase, placeBase_some] at below
            exact inductionHypothesis base isBase _ below

theorem placeBelow_placeBelow (pointerSize offset : UInt32) (table : Table) :
    placeBelow pointerSize offset (placeBelow pointerSize offset table).1 =
      placeBelow pointerSize offset table := by
  induction table using baseInduction generalizing offset with
  | step table inductionHypothesis =>
      rw [placeBelow_eq pointerSize offset table, placeBelow_eq]
      cases isBase : table.base with
      | none => rfl
      | some base =>
          have again := inductionHypothesis base isBase (offset + table.placedSize pointerSize)
          rw [placeBase_some]
          change (_, (placeBase pointerSize (offset + table.placedSize pointerSize)
            (some (placeBelow pointerSize _ base).1)).2) = _
          simp only [placeBase_some, placedSize] at again ⊢
          rw [again]

theorem adjoining_placeBase (pointerSize offset : UInt32) (base : Option Table)
    (fits : offset.toNat + ((chainOfBase base).map (extent pointerSize.toNat)).sum < 2 ^ 32) :
    Adjoining pointerSize.toNat offset.toNat (nodesOfBase (placeBase pointerSize offset base).1)
        (placeBase pointerSize offset base).2.toNat ∧
      (placeBase pointerSize offset base).2.toNat =
        offset.toNat + ((chainOfBase base).map (extent pointerSize.toNat)).sum := by
  cases base with
  | none => exact ⟨.nil, rfl⟩
  | some base => exact adjoining_placeBelow pointerSize offset base fits

theorem interfaces_of_mem_placeBase (pointerSize offset : UInt32) (base : Option Table) {node : Table}
    (member : node ∈ nodesOfBase (placeBase pointerSize offset base).1) : node.interfaces = [] := by
  cases base with
  | none => cases member
  | some base => exact interfaces_of_mem_placeBelow pointerSize offset base member

theorem chain_placeBase (pointerSize offset : UInt32) (base : Option Table) :
    (chainOfBase (placeBase pointerSize offset base).1).map content =
      (chainOfBase base).map content := by
  cases base with
  | none => rfl
  | some base => exact chain_placeBelow pointerSize offset base

theorem mem_slots_of_placeBase (pointerSize offset : UInt32) (base : Option Table)
    {slot : MethodDef} (member : slot ∈ slotsOfBase (placeBase pointerSize offset base).1) :
    slot ∈ slotsOfBase base := by
  cases base with
  | none => cases member
  | some base => exact mem_slots_of_placeBelow pointerSize offset base member

theorem placeBase_placeBase (pointerSize offset : UInt32) (base : Option Table) :
    placeBase pointerSize offset (placeBase pointerSize offset base).1 =
      placeBase pointerSize offset base := by
  cases base with
  | none => rfl
  | some base =>
      rw [placeBase_some, placeBase_some, placeBelow_placeBelow]

/-! ## Placing interfaces -/

theorem placeEach_cons (pointerSize offset : UInt32) (table : Table) (rest : List Table) :
    placeEach pointerSize offset (table :: rest) =
      ((placeBelow pointerSize offset table).1 ::
          (placeEach pointerSize (placeBelow pointerSize offset table).2 rest).1,
        (placeEach pointerSize (placeBelow pointerSize offset table).2 rest).2) := by
  rw [placeEach]

theorem adjoining_placeEach (pointerSize offset : UInt32) (tables : List Table)
    (fits : offset.toNat + (tables.map (chainExtent pointerSize.toNat)).sum < 2 ^ 32) :
    Adjoining pointerSize.toNat offset.toNat
      (nodesOfList (placeEach pointerSize offset tables).1)
      (placeEach pointerSize offset tables).2.toNat := by
  induction tables generalizing offset with
  | nil => exact .nil
  | cons table rest inductionHypothesis =>
      rw [List.map_cons, List.sum_cons] at fits
      rcases adjoining_placeBelow pointerSize offset table (by omega) with ⟨first, stop⟩
      rw [placeEach_cons, nodesOfList]
      exact first.append (inductionHypothesis _ (by omega))

theorem interfaces_of_mem_placeEach (pointerSize offset : UInt32) (tables : List Table) {node : Table}
    (member : node ∈ nodesOfList (placeEach pointerSize offset tables).1) :
    node.interfaces = [] := by
  induction tables generalizing offset with
  | nil => cases member
  | cons table rest inductionHypothesis =>
      rw [placeEach_cons, nodesOfList] at member
      rcases List.mem_append.mp member with inTable | inRest
      · exact interfaces_of_mem_placeBelow pointerSize offset table inTable
      · exact inductionHypothesis _ inRest

theorem chain_placeEach (pointerSize offset : UInt32) (tables : List Table) :
    (placeEach pointerSize offset tables).1.map (fun table => table.chain.map content) =
      tables.map (fun table => table.chain.map content) := by
  induction tables generalizing offset with
  | nil => rfl
  | cons table rest inductionHypothesis =>
      rw [placeEach_cons, List.map_cons, List.map_cons, chain_placeBelow, inductionHypothesis]

theorem mem_slots_of_placeEach (pointerSize offset : UInt32) (tables : List Table)
    {slot : MethodDef} (member : slot ∈ slotsOfList (placeEach pointerSize offset tables).1) :
    slot ∈ slotsOfList tables := by
  induction tables generalizing offset with
  | nil => cases member
  | cons table rest inductionHypothesis =>
      rw [placeEach_cons, slotsOfList] at member
      rw [slotsOfList]
      rcases List.mem_append.mp member with inTable | inRest
      · exact List.mem_append_left _ (mem_slots_of_placeBelow pointerSize offset table inTable)
      · exact List.mem_append_right _ (inductionHypothesis _ inRest)

theorem placeEach_placeEach (pointerSize offset : UInt32) (tables : List Table) :
    placeEach pointerSize offset (placeEach pointerSize offset tables).1 =
      placeEach pointerSize offset tables := by
  induction tables generalizing offset with
  | nil => rfl
  | cons table rest inductionHypothesis =>
      rw [placeEach_cons pointerSize offset table rest, placeEach_cons, placeBelow_placeBelow,
        inductionHypothesis]

/-! ## Whole tables -/

section Whole

variable (pointerSize : UInt32) (table : Table)

/-- The offset behind the regions of a table and its base tables. -/
def chainStop : UInt32 :=
  (placeBase pointerSize (table.offset + table.placedSize pointerSize) table.base).2

theorem place_eq :
    table.place pointerSize = { table with
      base := (placeBase pointerSize (table.offset + table.placedSize pointerSize) table.base).1
      interfaces := (placeEach pointerSize (table.chainStop pointerSize) table.interfaces).1
      regionSize := table.placedSize pointerSize
      conversionOffset :=
        (placeEach pointerSize (table.chainStop pointerSize) table.interfaces).2 } :=
  rfl

theorem adjoining_place
    (fits : table.offset.toNat + table.footprint pointerSize.toNat < 2 ^ 32) :
    Adjoining pointerSize.toNat table.offset.toNat (table.place pointerSize).nodes
      (table.place pointerSize).conversionOffset.toNat := by
  unfold footprint at fits
  rw [chainExtent_eq] at fits
  have sized : (table.placedSize pointerSize).toNat = table.extent pointerSize.toNat :=
    toNat_regionSize (show table.extent pointerSize.toNat < 2 ^ 32 by omega)
  have next : (table.offset + table.placedSize pointerSize).toNat =
      table.offset.toNat + table.extent pointerSize.toNat := by
    rw [toNat_offset_add (by omega), sized]
  rcases adjoining_placeBase pointerSize (table.offset + table.placedSize pointerSize) table.base
    (by omega) with ⟨onBase, stop⟩
  have onInterfaces := adjoining_placeEach pointerSize (table.chainStop pointerSize)
    table.interfaces (by unfold chainStop; omega)
  rw [next] at onBase
  rw [nodes_eq, place_eq]
  exact .cons rfl sized (onBase.append onInterfaces)

theorem interfaces_of_mem_place {node : Table}
    (member : node ∈ (table.place pointerSize).nodes.tail) : node.interfaces = [] := by
  rw [nodes_eq, place_eq, List.tail_cons] at member
  rcases List.mem_append.mp member with inBase | inInterfaces
  · exact interfaces_of_mem_placeBase pointerSize _ _ inBase
  · exact interfaces_of_mem_placeEach pointerSize _ _ inInterfaces

/-- Placing and converting bring in no slot. -/
theorem mem_slots_of_convert_place {slot : MethodDef}
    (member : slot ∈ (table.place pointerSize).convert.slots) : slot ∈ table.slots := by
  rw [slots_eq] at member ⊢
  rcases List.mem_append.mp member with inTables | inInterfaces
  · refine List.mem_append_left _ ?_
    rcases List.mem_append.mp inTables with own | inBase
    · exact List.mem_append_left _ own
    · exact List.mem_append_right _ (mem_slots_of_placeBase pointerSize _ _ inBase)
  · exact List.mem_append_right _ (mem_slots_of_placeEach pointerSize _ _ inInterfaces)

/-- Placing leaves the sizes of regions as they are. -/
theorem chainExtent_convert_place (bytes : Nat) :
    (table.place pointerSize).convert.chainExtent bytes = table.chainExtent bytes := by
  have onBase := chain_placeBase pointerSize (table.offset + table.placedSize pointerSize) table.base
  rw [chainExtent_eq, chainExtent_eq]
  exact congrArg (table.extent bytes + ·) (sum_extent_eq onBase bytes)

theorem footprint_convert_place (bytes : Nat) :
    (table.place pointerSize).convert.footprint bytes = table.footprint bytes := by
  have ofContent : forall tables : List Table, tables.map (chainExtent bytes) =
      (tables.map (fun interface => interface.chain.map content)).map (fun contents =>
        (contents.map (fun content => (content.members.length + 1) * bytes)).sum) := by
    intro tables
    rw [List.map_map]
    refine List.map_congr_left (fun interface _ => ?_)
    change _ = ((interface.chain.map content).map _).sum
    rw [List.map_map]
    rfl
  have ofInterfaces : (table.place pointerSize).convert.interfaces.map (chainExtent bytes) =
      table.interfaces.map (chainExtent bytes) := by
    rw [ofContent, ofContent]
    exact congrArg _ (chain_placeEach pointerSize (table.chainStop pointerSize) table.interfaces)
  unfold footprint
  rw [chainExtent_convert_place, ofInterfaces]

theorem place_place : (table.place pointerSize).place pointerSize = table.place pointerSize := by
  have onBase := placeBase_placeBase pointerSize (table.offset + table.placedSize pointerSize)
    table.base
  have onInterfaces := placeEach_placeEach pointerSize (table.chainStop pointerSize)
    table.interfaces
  have sameStop : (table.place pointerSize).chainStop pointerSize =
      table.chainStop pointerSize := congrArg Prod.snd onBase
  rw [place_eq pointerSize (table.place pointerSize), sameStop]
  rw [place_eq pointerSize table] at *
  simp only [placedSize] at *
  rw [onBase, onInterfaces]

end Whole

/-- Everything that placing promises of a table. -/
structure Placed (pointerSize : UInt32) (table placed : Table) : Prop where
  /-- The first region begins at the offset of the table. -/
  begins : placed.regions.head?.map Region.offset = some table.offset
  /-- The regions are those of the parts, with room for a header and all slots. -/
  sized : List.Forall₂ (fun node region => region = node.region ∧
    region.size.toNat = (node.members.length + 1) * pointerSize.toNat) placed.nodes placed.regions
  /-- Each region begins where the one before it ends. -/
  gapless : forall (index : Nat) (earlier later : Region),
    placed.regions[index]? = some earlier -> placed.regions[index + 1]? = some later ->
      later.offset.toNat = earlier.offset.toNat + earlier.size.toNat
  disjoint : placed.regions.Pairwise (fun earlier later =>
    earlier.offset.toNat + earlier.size.toNat ≤ later.offset.toNat)
  /-- The conversion table lies behind the last region. -/
  stops : placed.regions.getLast?.map (fun last => last.offset.toNat + last.size.toNat) =
    some placed.conversionOffset.toNat
  /-- Only the root has interfaces. -/
  flat : forall node, node ∈ placed.nodes.tail -> node.interfaces = []
  keepsChain : placed.chain.map content = table.chain.map content
  keepsInterfaces : placed.interfaces.map (fun interface => interface.chain.map content) =
    table.interfaces.map (fun interface => interface.chain.map content)
  /-- Placing again changes nothing. -/
  settled : placed.place pointerSize = placed

theorem place_placed (pointerSize : UInt32) (table : Table)
    (fits : table.offset.toNat + table.footprint pointerSize.toNat < 2 ^ 32) :
    Placed pointerSize table (table.place pointerSize) := by
  have adjoining := adjoining_place pointerSize table fits
  have regions := regions_eq_map (table.place pointerSize)
  refine ⟨?_, ?_, ?_, ?_, ?_, ?_, ?_, ?_, place_place pointerSize table⟩
  · rw [regions, nodes_eq]
    rfl
  · rw [regions, List.forall₂_map_right_iff, List.forall₂_same]
    exact fun node member => ⟨rfl, adjoining.sized_of_mem member⟩
  · intro index earlier later here after
    rw [regions, List.getElem?_map] at here after
    rcases Option.map_eq_some_iff.mp here with ⟨node, isNode, same⟩
    rcases Option.map_eq_some_iff.mp after with ⟨next, isNext, sameNext⟩
    rw [← same, ← sameNext]
    exact adjoining.gapless isNode isNext
  · rw [regions, List.pairwise_map]
    exact adjoining.pairwise
  · rw [regions, List.getLast?_map, nodes_eq, List.getLast?_cons, Option.map_some, Option.map_some]
    rw [nodes_eq] at adjoining
    exact congrArg some (adjoining.getLast? List.getLast?_cons)
  · exact fun node member => interfaces_of_mem_place pointerSize table member
  · rw [chain_eq, chain_eq, List.map_cons, List.map_cons, place_eq, chain_placeBase]
    rfl
  · exact chain_placeEach pointerSize (table.chainStop pointerSize) table.interfaces

/-- A class with a base class and an interface.  The base class has an interface
of its own, and the interface builds on another. -/
def sampleTable : Table :=
  let part (name : String) (slots : Nat) (base : Option Table) (interfaces : List Table) : Table :=
    ⟨⟨0⟩, ⟨0⟩, name, List.replicate slots ⟨⟨0⟩, "M", ⟨0⟩, ⟨6, 0x0040, 0x0100⟩, none, [], none⟩, base,
      interfaces, 0, 0, 0, []⟩
  let shape := part "IShape" 1 none []
  { part "Disc" 2 (some (part "Figure" 3 none [shape])) [part "IRound" 1 (some shape) []] with
    offset := 16 }

theorem place_sampleTable :
    (sampleTable.place 8).regions =
        [⟨"Disc", 16, 24⟩, ⟨"Figure", 40, 32⟩, ⟨"IRound", 72, 16⟩, ⟨"IShape", 88, 16⟩] ∧
      Placed 8 sampleTable (sampleTable.place 8) :=
  ⟨by decide +kernel, place_placed 8 sampleTable (by decide +kernel)⟩

end Table
end Dispatch
end CilGraph
