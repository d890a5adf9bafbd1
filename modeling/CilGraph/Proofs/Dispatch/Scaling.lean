import CilGraph.Proofs.Dispatch.Conversions
import CilGraph.Proofs.Dispatch.Finished

namespace CilGraph
namespace Dispatch

/-!
# Tables for pointers of either size

The size of a pointer enters when tables are placed and nowhere else.  A region has
room for a number of pointers, and all offsets are sums of such regions, so with
pointers of eight bytes every offset is twice what it is with pointers of four.  The
conversion table repeats offsets, and which of several is entered depends on names
only.

Offsets are machine words.  Doubling a word is compatible with sums of words also
when these wrap, so the words of the larger table are always the doubled words of
the smaller one.  As numbers they are doubled if the regions of the larger table
fit, which `Table.footprint` tells without a bound.

A part below the root keeps the conversions that it had before it was placed.  It
had none, because a layout is made of tables that were never placed.
-/

/-- A word is twice another, and it is so without wrapping if there is room. -/
structure Doubles (fits : Prop) (small large : UInt32) : Prop where
  word : large = 2 * small
  number : fits -> large.toNat = 2 * small.toNat

namespace Table

/-- The entries of two conversion tables have the same names in the same order, and
their words are related. -/
def EntriesMatch (related : UInt32 -> UInt32 -> Prop) :
    List (String × UInt32) -> List (String × UInt32) -> Prop :=
  List.Forall₂ (fun entry other => other.1 = entry.1 ∧ related entry.2 other.2)

/-- Two tables differ in their words only, and these are related one by one. -/
inductive Corresponds (related : UInt32 -> UInt32 -> Prop) : Table -> Table -> Prop
  | intro {small large : Table} (type : large.type = small.type)
      (resolved : large.resolved = small.resolved) (name : large.name = small.name)
      (members : large.members = small.members)
      (base : Option.Rel (Corresponds related) small.base large.base)
      (interfaces : List.Forall₂ (Corresponds related) small.interfaces large.interfaces)
      (offset : related small.offset large.offset)
      (regionSize : related small.regionSize large.regionSize)
      (conversionOffset : related small.conversionOffset large.conversionOffset)
      (conversions : EntriesMatch related small.conversions large.conversions) :
      Corresponds related small large

/-- The table of a type for pointers of four bytes, and that for pointers of eight. -/
def Scales (small large : Table) : Prop :=
  Corresponds (Doubles (small.footprint 8 < 2 ^ 32)) small large

/-- No part of the chain of a table has conversions. -/
def Bare (table : Table) : Prop :=
  forall node, node ∈ table.chain -> node.conversions = []

end Table

/-! ## Words -/

section Words

variable {fits : Prop} {small large smaller larger : UInt32}

theorem doubles_zero : Doubles fits 0 0 :=
  ⟨rfl, fun _ => rfl⟩

theorem Doubles.add (first : Doubles fits small large) (second : Doubles fits smaller larger)
    (room : fits -> large.toNat + larger.toNat < 2 ^ 32) :
    Doubles fits (small + smaller) (large + larger) := by
  refine ⟨?_, ?_⟩
  · rw [first.word, second.word, UInt32.mul_add]
  · intro holds
    have wide := room holds
    have ofFirst := first.number holds
    have ofSecond := second.number holds
    rw [Table.toNat_offset_add wide, Table.toNat_offset_add (by omega), ofFirst, ofSecond,
      Nat.mul_add]

theorem doubles_placedSize (table : Table) (room : fits -> table.extent 8 < 2 ^ 32) :
    Doubles fits (table.placedSize 4) (table.placedSize 8) := by
  unfold Table.placedSize
  refine ⟨?_, ?_⟩
  · rw [show (8 : UInt32) = 4 * 2 from rfl, ← UInt32.mul_assoc, UInt32.mul_comm]
  · intro holds
    have wide : (table.members.length + 1) * 8 < 2 ^ 32 := room holds
    have ofLarge : ((UInt32.ofNat table.members.length + 1) * 8).toNat =
        (table.members.length + 1) * 8 := Table.toNat_regionSize wide
    have ofSmall : ((UInt32.ofNat table.members.length + 1) * 4).toNat =
        (table.members.length + 1) * 4 :=
      Table.toNat_regionSize (show (table.members.length + 1) * 4 < 2 ^ 32 by omega)
    rw [ofLarge, ofSmall]
    omega

end Words

namespace Table

/-! ## Placing -/

section Placing

variable {fits : Prop} {small large : UInt32}

theorem Bare.base {table base : Table} (bare : table.Bare) (isBase : table.base = some base) :
    base.Bare := by
  intro node member
  refine bare node ?_
  rw [chain_eq, isBase]
  exact List.mem_cons_of_mem table member

theorem Bare.conversions {table : Table} (bare : table.Bare) : table.conversions = [] := by
  refine bare table ?_
  rw [chain_eq]
  exact List.mem_cons_self

/-- A part of a chain begins, and what follows begins behind it. -/
theorem doubles_next (table : Table) (begins : Doubles fits small large)
    (room : fits -> large.toNat + table.extent 8 < 2 ^ 32) :
    Doubles fits (small + table.placedSize 4) (large + table.placedSize 8) ∧
      (fits -> (large + table.placedSize 8).toNat = large.toNat + table.extent 8) := by
  have extent : fits -> (table.placedSize 8).toNat = table.extent 8 := by
    intro holds
    have wide := room holds
    exact toNat_regionSize (show table.extent 8 < 2 ^ 32 by omega)
  refine ⟨begins.add (doubles_placedSize table ?_) ?_, ?_⟩
  · intro holds
    have wide := room holds
    omega
  · intro holds
    rw [extent holds]
    exact room holds
  · intro holds
    rw [toNat_offset_add (by rw [extent holds]; exact room holds), extent holds]

theorem corresponds_placeBelow (table : Table) (bare : table.Bare)
    (begins : Doubles fits small large)
    (room : fits -> large.toNat + table.chainExtent 8 < 2 ^ 32) :
    Corresponds (Doubles fits) (placeBelow 4 small table).1 (placeBelow 8 large table).1 ∧
      Doubles fits (placeBelow 4 small table).2 (placeBelow 8 large table).2 := by
  induction table using baseInduction generalizing small large with
  | step table inductionHypothesis =>
      rw [chainExtent_eq] at room
      have roomHere : fits -> large.toNat + table.extent 8 < 2 ^ 32 := by
        intro holds
        have wide := room holds
        omega
      have sized : Doubles fits (table.placedSize 4) (table.placedSize 8) := by
        refine doubles_placedSize table (fun holds => ?_)
        have wide := roomHere holds
        omega
      rcases doubles_next table begins roomHere with ⟨next, ends⟩
      have noConversions : EntriesMatch (Doubles fits) table.conversions table.conversions := by
        rw [bare.conversions]
        exact .nil
      rw [placeBelow_eq, placeBelow_eq]
      cases isBase : table.base with
      | none =>
          exact ⟨.intro rfl rfl rfl rfl .none .nil begins sized next noConversions, next⟩
      | some base =>
          rw [isBase] at room
          change fits -> _ + (_ + base.chainExtent 8) < _ at room
          have roomBelow : fits ->
              (large + table.placedSize 8).toNat + base.chainExtent 8 < 2 ^ 32 := by
            intro holds
            have wide := room holds
            rw [ends holds]
            omega
          rcases inductionHypothesis base isBase (bare.base isBase) next roomBelow with
            ⟨below, stop⟩
          rw [placeBase_some, placeBase_some]
          exact ⟨.intro rfl rfl rfl rfl (.some below) .nil begins sized stop noConversions, stop⟩

theorem corresponds_placeBase (base : Option Table)
    (bare : forall node, node ∈ chainOfBase base -> node.conversions = [])
    (begins : Doubles fits small large)
    (room : fits -> large.toNat + ((chainOfBase base).map (extent 8)).sum < 2 ^ 32) :
    Option.Rel (Corresponds (Doubles fits)) (placeBase 4 small base).1
        (placeBase 8 large base).1 ∧
      Doubles fits (placeBase 4 small base).2 (placeBase 8 large base).2 := by
  cases base with
  | none => exact ⟨.none, begins⟩
  | some base =>
      rcases corresponds_placeBelow base bare begins room with ⟨placed, stop⟩
      rw [placeBase_some, placeBase_some]
      exact ⟨.some placed, stop⟩

theorem corresponds_placeEach (tables : List Table)
    (bare : forall table, table ∈ tables -> table.Bare) (begins : Doubles fits small large)
    (room : fits -> large.toNat + (tables.map (chainExtent 8)).sum < 2 ^ 32) :
    List.Forall₂ (Corresponds (Doubles fits)) (placeEach 4 small tables).1
        (placeEach 8 large tables).1 ∧
      Doubles fits (placeEach 4 small tables).2 (placeEach 8 large tables).2 := by
  induction tables generalizing small large with
  | nil => exact ⟨.nil, begins⟩
  | cons table rest inductionHypothesis =>
      rcases List.forall_mem_cons.mp bare with ⟨ofTable, ofRest⟩
      rw [List.map_cons, List.sum_cons] at room
      have roomHere : fits -> large.toNat + table.chainExtent 8 < 2 ^ 32 := by
        intro holds
        have wide := room holds
        omega
      rcases corresponds_placeBelow table ofTable begins roomHere with ⟨placed, stop⟩
      have roomThen : fits -> (placeBelow 8 large table).2.toNat +
          (rest.map (chainExtent 8)).sum < 2 ^ 32 := by
        intro holds
        have wide := room holds
        rw [(adjoining_placeBelow 8 large table (roomHere holds)).2]
        change large.toNat + table.chainExtent 8 + _ < _
        omega
      rcases inductionHypothesis ofRest stop roomThen with ⟨others, last⟩
      rw [placeEach_cons, placeEach_cons]
      exact ⟨.cons placed others, last⟩

theorem corresponds_place (table : Table) (bare : table.Bare)
    (bareInterfaces : forall interface, interface ∈ table.interfaces -> interface.Bare)
    (isStart : table.offset = 0) :
    Corresponds (Doubles (table.footprint 8 < 2 ^ 32)) (table.place 4) (table.place 8) := by
  have room : table.footprint 8 < 2 ^ 32 -> table.extent 8 +
      ((chainOfBase table.base).map (extent 8)).sum +
      (table.interfaces.map (chainExtent 8)).sum < 2 ^ 32 := by
    intro holds
    unfold footprint at holds
    rw [chainExtent_eq] at holds
    exact holds
  have begins : Doubles (table.footprint 8 < 2 ^ 32) table.offset table.offset := by
    rw [isStart]
    exact doubles_zero
  have sized : Doubles (table.footprint 8 < 2 ^ 32) (table.placedSize 4) (table.placedSize 8) := by
    refine doubles_placedSize table (fun holds => ?_)
    have wide := room holds
    omega
  have isZero : table.offset.toNat = 0 := by rw [isStart]; rfl
  rcases doubles_next table begins (fun holds => by have wide := room holds; omega) with
    ⟨next, ends⟩
  have roomBase : table.footprint 8 < 2 ^ 32 -> (table.offset + table.placedSize 8).toNat +
      ((chainOfBase table.base).map (extent 8)).sum < 2 ^ 32 := by
    intro holds
    have wide := room holds
    rw [ends holds]
    omega
  have bareBase : forall node, node ∈ chainOfBase table.base -> node.conversions = [] := by
    intro node member
    refine bare node ?_
    rw [chain_eq]
    exact List.mem_cons_of_mem table member
  rcases corresponds_placeBase table.base bareBase next roomBase with ⟨base, stop⟩
  have roomEach : table.footprint 8 < 2 ^ 32 -> (table.chainStop 8).toNat +
      (table.interfaces.map (chainExtent 8)).sum < 2 ^ 32 := by
    intro holds
    have wide := room holds
    have placed := (adjoining_placeBase 8 _ table.base (roomBase holds)).2
    unfold chainStop
    rw [placed, ends holds]
    change _ + ((chainOfBase table.base).map (extent 8)).sum + _ < _
    omega
  rcases corresponds_placeEach table.interfaces bareInterfaces stop roomEach with
    ⟨interfaces, last⟩
  rw [place_eq, place_eq]
  refine .intro rfl rfl rfl rfl base interfaces begins sized last ?_
  rw [bare.conversions]
  exact .nil

end Placing

/-! ## Converting -/

section Converting

variable {related : UInt32 -> UInt32 -> Prop} {small large : Table}

theorem EntriesMatch.any_eq {entries others : List (String × UInt32)}
    (matched : EntriesMatch related entries others) (name : String) :
    others.any (fun entry => entry.1 == name) = entries.any (fun entry => entry.1 == name) := by
  induction matched with
  | nil => rfl
  | cons first rest inductionHypothesis =>
      rw [List.any_cons, List.any_cons, first.1, inductionHypothesis]

/-- Whether a region is entered depends on names only. -/
theorem EntriesMatch.enter {entries others : List (String × UInt32)} {offset other : UInt32}
    (matched : EntriesMatch related entries others) (name : String)
    (sameOffset : related offset other) :
    EntriesMatch related (Table.enter entries name offset) (Table.enter others name other) := by
  unfold Table.enter
  rw [matched.any_eq name]
  split
  · exact matched
  · exact List.rel_append matched (.cons ⟨rfl, sameOffset⟩ .nil)

theorem EntriesMatch.interfaces {entries others : List (String × UInt32)}
    {interfaces largeInterfaces : List Table} (matched : EntriesMatch related entries others)
    (paired : List.Forall₂ (Corresponds related) interfaces largeInterfaces) :
    EntriesMatch related
      (interfaces.foldl (fun entries part => Table.enter entries part.name part.offset) entries)
      (largeInterfaces.foldl (fun entries part => Table.enter entries part.name part.offset)
        others) := by
  induction paired generalizing entries others with
  | nil => exact matched
  | cons first rest inductionHypothesis =>
      cases first with
      | intro _ _ name _ _ _ offset _ _ _ =>
          rw [List.foldl_cons, List.foldl_cons, name]
          exact inductionHypothesis (matched.enter _ offset)

theorem EntriesMatch.collect (corresponds : Corresponds related small large)
    {entries others : List (String × UInt32)} (matched : EntriesMatch related entries others) :
    EntriesMatch related (collectConversions entries small) (collectConversions others large) := by
  induction small using baseInduction generalizing large entries others with
  | step small inductionHypothesis =>
      cases corresponds with
      | intro type resolved name members base interfaces offset regionSize _ _ =>
          rw [collectConversions_eq, collectConversions_eq, name]
          have entered := matched.enter small.name offset
          refine EntriesMatch.interfaces ?_ interfaces
          cases isBase : small.base with
          | none =>
              rw [isBase] at base
              cases isLarge : large.base with
              | none => exact entered
              | some other =>
                  rw [isLarge] at base
                  cases base
          | some below =>
              rw [isBase] at base
              cases isLarge : large.base with
              | none =>
                  rw [isLarge] at base
                  cases base
              | some other =>
                  rw [isLarge] at base
                  cases base with
                  | some paired => exact inductionHypothesis below isBase paired entered

theorem Corresponds.convert (corresponds : Corresponds related small large) :
    Corresponds related small.convert large.convert := by
  have collected : EntriesMatch related (collectConversions [] small)
      (collectConversions [] large) := EntriesMatch.collect corresponds .nil
  cases corresponds with
  | intro type resolved name members base interfaces offset regionSize conversionOffset _ =>
      exact .intro type resolved name members base interfaces offset regionSize conversionOffset
        collected

end Converting

end Table

/-! ## Tables that were never placed -/

/-- The chain of the table of a layout has no conversions, and neither have the
chains of its interfaces. -/
structure Layout.Bare (layout : Layout) : Prop where
  chain : layout.table.Bare
  interfaces : forall interface, interface ∈ layout.interfaces -> interface.Bare

namespace Table

theorem bare_iff {table : Table} : table.Bare ↔ table.conversions = [] ∧
    forall base, table.base = some base -> base.Bare := by
  constructor
  · exact fun bare => ⟨bare.conversions, fun base isBase => bare.base isBase⟩
  · rintro ⟨own, below⟩ node member
    rw [chain_eq] at member
    rcases List.mem_cons.mp member with same | inBase
    · rw [same]
      exact own
    · cases isBase : table.base with
      | none =>
          rw [isBase] at inBase
          cases inBase
      | some base =>
          rw [isBase] at inBase
          exact below base isBase node inBase

theorem Bare.replaceSlots {linkage : Linkage} {method : MethodDef} {root : Token}
    {table after : Table} {replaced : Bool} (bare : table.Bare)
    (succeeded : Table.replaceSlots linkage method root table = .ok (after, replaced)) :
    after.Bare := by
  induction table using baseInduction generalizing after replaced with
  | step table inductionHypothesis =>
      rcases replaceSlots_eq_ok succeeded with ⟨members, here, base, below, _, same, _, ofBase⟩
      rw [same, bare_iff]
      refine ⟨bare.conversions, ?_⟩
      intro changed isChanged
      rcases ofBase with ⟨_, sameBase, _⟩ | ⟨_, replacedBase⟩
      · exact bare.base (sameBase.symm.trans isChanged)
      · rcases replaceBase_eq_ok replacedBase with
          ⟨_, isNone, _⟩ | ⟨inner, result, isInner, isResult, ofInner⟩
        · exact absurd (isNone.symm.trans isChanged) (by simp)
        · rw [← Option.some.inj (isResult.symm.trans isChanged)]
          exact inductionHypothesis inner isInner (bare.base isInner) ofInner

end Table

namespace Layout

variable {linkage : Linkage} {layout next final : Layout}

theorem Bare.sorted {method : MethodDef} (bare : layout.Bare)
    (sorted : Sorted linkage layout method next) : next.Bare := by
  have ofBase : forall base, layout.base = some base -> base.Bare :=
    (Table.bare_iff.mp bare.chain).2
  rcases sorted.tables with ⟨sameInterfaces, onBase⟩
  refine ⟨Table.bare_iff.mpr ⟨rfl, ?_⟩, fun interface member =>
    bare.interfaces interface (sameInterfaces ▸ member)⟩
  change forall base, next.base = some base -> base.Bare
  rcases onBase with same | overridden
  · rw [same]
    exact ofBase
  · intro base isBase
    cases before : layout.base with
    | none =>
        rw [before] at overridden
        exact absurd ((Except.ok.inj overridden).trans isBase) (by simp)
    | some table =>
        rw [before] at overridden
        rcases Result.map_eq_ok.mp overridden with ⟨changed, overrides, same⟩
        rcases Table.override_eq_ok overrides with ⟨root, _, replaced⟩
        rw [← Option.some.inj (same.trans isBase)]
        exact (ofBase table before).replaceSlots replaced

theorem Bare.addMethods (bare : layout.Bare) (sorted : layout.addMethods linkage = .ok final) :
    final.Bare := by
  rcases Result.bind_eq_ok.mp sorted with ⟨methods, _, folded⟩
  refine foldlM_addMethod (fun _ current => current.Bare) folded bare ?_
  intro _ method current next _ _ given step
  exact given.sorted step

theorem bare_implementInterface {type : TypeDef} {interface : Token} {table after : Table}
    (bare : table.Bare) (implemented : implementInterface linkage type interface table = .ok after) :
    after.Bare := by
  unfold implementInterface at implemented
  split at implemented
  · cases implemented
    exact bare
  · rcases Result.bind_eq_ok.mp implemented with ⟨pairs, mapped, folded⟩
    cases folded
    clear implemented mapped
    induction pairs generalizing table with
    | nil => exact bare
    | cons pair rest inductionHypothesis =>
        have filled : (table.implement pair.1 pair.2).Bare :=
          Table.bare_iff.mpr ⟨bare.conversions, fun base isBase => bare.base isBase⟩
        exact inductionHypothesis filled

end Layout

namespace Registry

variable {linkage : Linkage} {registry : Registry}

/-- No layout of a registry builds on a table that was placed. -/
def Bare (registry : Registry) : Prop :=
  forall entry, entry ∈ registry.layouts -> entry.2.Bare

theorem Bare.tabled (bare : registry.Bare) {token : Token} {table : Table}
    (tabled : Tabled linkage registry token table) : table.Bare := by
  rcases tabled with ⟨type, layout, _, found, same⟩
  rw [same]
  exact (bare (type, layout) (mem_layouts_of_layout? found)).chain

theorem Bare.made (bare : registry.Bare) {token : Token} {layout : Layout}
    (made : Made linkage registry token layout) : layout.Bare := by
  rcases made with ⟨type, resolved, base, interfaces, tables, origin⟩
  refine Layout.Bare.addMethods ⟨Table.bare_iff.mpr ⟨rfl, ?_⟩, ?_⟩ origin.sorted
  · intro table isBase
    have onBase := origin.onBase
    rw [show base = some table from isBase] at onBase
    generalize type.base = parent at onBase
    cases onBase with
    | some tabled => exact bare.tabled tabled
  · intro table member
    rcases Result.exists_of_mem_right origin.onInterfaces member with
      ⟨interface, _, plain, tabled, implemented⟩
    exact Layout.bare_implementInterface (bare.tabled tabled) implemented

theorem Grows.bare (grows : Grows linkage {} registry) : registry.Bare := by
  induction grows with
  | refl => exact fun entry member => absurd member List.not_mem_nil
  | enter catalog _ _ made inductionHypothesis =>
      intro entry member
      rcases List.mem_append.mp member with earlier | added
      · exact inductionHypothesis entry earlier
      · rw [List.mem_singleton.mp added]
        exact inductionHypothesis.made made
  | catalog catalog _ inductionHypothesis => exact inductionHypothesis

end Registry

/-! ## Finished tables -/

namespace Layout

theorem scales_finished {layout : Layout} (bare : layout.Bare) :
    (layout.finished 4).Scales (layout.finished 8) := by
  unfold Table.Scales
  rw [finished, Table.footprint_convert_place]
  exact (Table.corresponds_place layout.table bare.chain bare.interfaces rfl).convert

end Layout

/-- The tables of a registry for pointers of four bytes and for pointers of eight. -/
theorem Registry.Grows.scales_compile {linkage : Linkage} {registry : Registry}
    (grown : Registry.Grows linkage {} registry) :
    List.Forall₂ Table.Scales (registry.compile 4) (registry.compile 8) := by
  refine Ordered.forall₂_sortBy ?_ ?_
  · intro small large scales
    cases scales with
    | intro _ _ name => exact name
  · rw [List.forall₂_map_left_iff, List.forall₂_map_right_iff, List.forall₂_same]
    exact fun entry member => Layout.scales_finished (grown.bare entry member)

end Dispatch
end CilGraph
