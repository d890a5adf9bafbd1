import CilGraph.Proofs.Compilation.PointerSize
import CilGraph.Proofs.Dispatch.Upcasts
import CilGraph.Report.Layout

namespace CilGraph

/-!
# Regions with their slots

A listing of a dispatch table (`Report.TableLayout`) walks through the table twice.
The regions are those of all parts, down to the base tables of interfaces.  The slots
are those of the chain of base tables and then of the interfaces alone.  The two walks
are paired in order, and the longer one is cut off, so a difference between them does
not show.

The interfaces inside a finished table have no interfaces of their own.  Therefore the
walks agree exactly if no interface has a base table either, and then every region is
listed with the slots of the part that owns it (`Report.TableLayout.regions_eq_iff`).
Otherwise all is well up to the first interface that has a base table.  The region of
that base table is listed with the slots of the next interface, which need not fit into
it, and the last regions are not listed.  `sampleHall` shows both cases.

An interface has a base table exactly if its type, or that of its innermost elements,
has a base type.  So which case a table is in depends on the program and on its
replacements alone (`Linkage.BaselessInterfaces`).
-/

namespace Dispatch
namespace Table

/-! ## Parts of a placed table -/

theorem nodesOfList_eq_flatMap (tables : List Table) :
    nodesOfList tables = tables.flatMap nodes := by
  induction tables with
  | nil => rfl
  | cons table rest inductionHypothesis =>
      rw [nodesOfList, inductionHypothesis, List.flatMap_cons]

/-- Without interfaces a table has no parts but its chain. -/
theorem nodes_eq_chain {table : Table}
    (bare : forall node, node ∈ table.nodes -> node.interfaces = []) :
    table.nodes = table.chain := by
  induction table using baseInduction with
  | step table inductionHypothesis =>
      rw [nodes_eq] at bare ⊢
      rw [chain_eq, bare table List.mem_cons_self, nodesOfList, List.append_nil]
      cases isBase : table.base with
      | none => rfl
      | some base =>
          rw [isBase] at bare
          refine congrArg (table :: ·) (inductionHypothesis base isBase ?_)
          intro node member
          exact bare node (List.mem_cons_of_mem _ (List.mem_append_left _ member))

/-- If only the root has interfaces, the parts are its chain and the chains of the
interfaces, in this order. -/
theorem nodes_eq_chains {table : Table}
    (flat : forall node, node ∈ table.nodes.tail -> node.interfaces = []) :
    table.nodes = table.chain ++ table.interfaces.flatMap chain := by
  rw [nodes_eq, List.tail_cons] at flat
  rw [nodes_eq, chain_eq, List.cons_append, nodesOfList_eq_flatMap]
  have onBase : nodesOfBase table.base = chainOfBase table.base := by
    cases isBase : table.base with
    | none => rfl
    | some base =>
        apply nodes_eq_chain
        intro node member
        apply flat
        rw [isBase]
        exact List.mem_append_left _ member
  have onInterfaces : table.interfaces.flatMap nodes = table.interfaces.flatMap chain := by
    apply List.flatMap_congr
    intro interface among
    apply nodes_eq_chain
    intro node member
    apply flat
    rw [nodesOfList_eq_flatMap]
    exact List.mem_append_right _ (List.mem_flatMap.mpr ⟨interface, among, member⟩)
  rw [onBase, onInterfaces]

/-- No interface of a table has a base table. -/
def Baseless (tables : List Table) : Prop :=
  forall table, table ∈ tables -> table.base = none

theorem chain_of_baseless {table : Table} (isNone : table.base = none) : table.chain = [table] := by
  rw [chain_eq, isNone]
  rfl

theorem flatMap_chain_of_baseless {tables : List Table} (baseless : Baseless tables) :
    tables.flatMap chain = tables := by
  induction tables with
  | nil => rfl
  | cons table rest inductionHypothesis =>
      rcases List.forall_mem_cons.mp baseless with ⟨isNone, baselessRest⟩
      rw [List.flatMap_cons, chain_of_baseless isNone, inductionHypothesis baselessRest]
      rfl

theorem length_le_flatMap_chain (tables : List Table) :
    tables.length ≤ (tables.flatMap chain).length := by
  induction tables with
  | nil => exact Nat.le_refl _
  | cons table rest inductionHypothesis =>
      rw [List.flatMap_cons, List.length_append, chain_eq, List.length_cons, List.length_cons]
      omega

/-- Every table has a chain of its own, so the chains of tables are as many as the
tables only if no table has a base table. -/
theorem baseless_of_length {tables : List Table}
    (few : (tables.flatMap chain).length ≤ tables.length) : Baseless tables := by
  induction tables with
  | nil => exact fun table impossible => absurd impossible List.not_mem_nil
  | cons table rest inductionHypothesis =>
      have atLeast := length_le_flatMap_chain rest
      rw [List.flatMap_cons, List.length_append, chain_eq, List.length_cons,
        List.length_cons] at few
      refine List.forall_mem_cons.mpr ⟨?_, inductionHypothesis (by omega)⟩
      cases isBase : table.base with
      | none => rfl
      | some base =>
          rw [isBase, chainOfBase, chain_eq, List.length_cons] at few
          omega

end Table
end Dispatch

namespace Report

open Dispatch

/-! ## Listings -/

theorem chain_eq (table : Table) : chain table = table.chain := by
  induction table using Table.baseInduction with
  | step table inductionHypothesis =>
      rw [Table.chain_eq]
      cases table
      rename_i base _ _ _ _ _
      rw [chain]
      cases base with
      | none => rfl
      | some base =>
          rw [chainOfBase, inductionHypothesis base rfl]
          rfl

namespace RegionLayout

/-- A region of one part with the slots of another. -/
def pair (program : Program) (owner listed : Table) : RegionLayout :=
  ⟨owner.region, listed.members.map (slotName program)⟩

/-- The region of a part with the slots of that part. -/
def ofPart (program : Program) (part : Table) : RegionLayout :=
  pair program part part

end RegionLayout

theorem zipWith_left {First Second : Type} (firsts : List First) (seconds : List Second) :
    List.zipWith (fun first _ => first) firsts seconds = firsts.take seconds.length := by
  induction firsts generalizing seconds with
  | nil => simp
  | cons first rest inductionHypothesis => cases seconds <;> simp [inductionHypothesis]

namespace TableLayout

variable {program : Program} {table : Table}

/-- The regions of the chain are listed with their own slots.  From there on, the parts of
the interfaces are paired with the interfaces alone. -/
theorem regions_ofTable (flat : forall node, node ∈ table.nodes.tail -> node.interfaces = []) :
    (ofTable program table).regions = table.chain.map (RegionLayout.ofPart program) ++
      List.zipWith (RegionLayout.pair program) (table.interfaces.flatMap Table.chain)
        table.interfaces := by
  change List.zipWith _ table.regions (Report.chain table ++ table.interfaces) = _
  rw [Table.regions_eq_map, Table.nodes_eq_chains flat, List.zipWith_map_left, chain_eq,
    List.zipWith_append rfl, List.zipWith_self]
  rfl

/-- The regions that are listed are the first ones of the table, one for each part of the
chain and one for each interface. -/
theorem listed_regions (program : Program) (table : Table) :
    (ofTable program table).regions.map RegionLayout.region =
      table.regions.take (table.chain.length + table.interfaces.length) := by
  change (List.zipWith _ table.regions (Report.chain table ++ table.interfaces)).map _ = _
  rw [List.map_zipWith, zipWith_left, chain_eq, List.length_append]

/-- The parts up to the first interface that has a base table are listed with their own
slots, this interface included. -/
theorem listed_upTo {front back : List Table} {interface : Table}
    (flat : forall node, node ∈ table.nodes.tail -> node.interfaces = [])
    (split : table.interfaces = front ++ interface :: back) (baseless : Table.Baseless front) :
    (table.chain ++ front ++ [interface]).map (RegionLayout.ofPart program) <+:
      (ofTable program table).regions := by
  rw [regions_ofTable flat, split, List.flatMap_append, Table.flatMap_chain_of_baseless baseless,
    List.zipWith_append rfl, List.zipWith_self, List.flatMap_cons, Table.chain_eq interface,
    List.cons_append, List.zipWith_cons_cons]
  refine ⟨List.zipWith (RegionLayout.pair program)
    (Table.chainOfBase interface.base ++ back.flatMap Table.chain) back, ?_⟩
  simp only [List.map_append, List.append_assoc]
  rfl

/-- Every region is listed with the slots of its own part exactly if no interface has a
base table. -/
theorem regions_eq_iff (program : Program)
    (flat : forall node, node ∈ table.nodes.tail -> node.interfaces = []) :
    (ofTable program table).regions = table.nodes.map (RegionLayout.ofPart program) ↔
      Table.Baseless table.interfaces := by
  rw [regions_ofTable flat, Table.nodes_eq_chains flat, List.map_append,
    List.append_cancel_left_eq]
  constructor
  · intro same
    apply Table.baseless_of_length
    have lengths := congrArg List.length same
    rw [List.length_zipWith, List.length_map] at lengths
    omega
  · intro baseless
    rw [Table.flatMap_chain_of_baseless baseless, List.zipWith_self]
    rfl

end TableLayout

/-! ## Addresses of slots -/

/-- A region has room for a header and for the slots that are listed in it, and every slot
is shown at an address behind the header and inside the region. -/
structure RegionLayout.Holds (pointerSize : UInt32) (entry : RegionLayout) : Prop where
  size : entry.region.size.toNat = (entry.slots.length + 1) * pointerSize.toNat
  rows : List.Forall₂ (fun slot row => exists address : UInt32,
      row = [Layout.offsetText address, "", slot] ∧
      entry.region.offset.toNat + pointerSize.toNat ≤ address.toNat ∧
      address.toNat + pointerSize.toNat ≤ entry.region.offset.toNat + entry.region.size.toNat)
    entry.slots
    (Layout.slotRows pointerSize (entry.region.offset + pointerSize) entry.slots)

/-- Slots are shown one pointer after another. -/
theorem slotRows_between {pointerSize offset : UInt32} {slots : List String} {low high : Nat}
    (begins : low ≤ offset.toNat)
    (ends : offset.toNat + slots.length * pointerSize.toNat ≤ high) (fits : high < 2 ^ 32) :
    List.Forall₂ (fun slot row => exists address : UInt32,
        row = [Layout.offsetText address, "", slot] ∧ low ≤ address.toNat ∧
        address.toNat + pointerSize.toNat ≤ high)
      slots (Layout.slotRows pointerSize offset slots) := by
  induction slots generalizing offset with
  | nil => exact .nil
  | cons slot rest inductionHypothesis =>
      rw [List.length_cons, Nat.succ_mul] at ends
      have next : (offset + pointerSize).toNat = offset.toNat + pointerSize.toNat :=
        Table.toNat_offset_add (by omega)
      refine .cons ⟨offset, rfl, begins, by omega⟩ (inductionHypothesis ?_ ?_)
      · omega
      · omega

/-- A part whose region fits is listed with room for its slots. -/
theorem holds_ofPart {program : Program} {pointerSize : UInt32} {part : Table}
    (sized : part.regionSize.toNat = part.extent pointerSize.toNat)
    (fits : part.offset.toNat + part.extent pointerSize.toNat < 2 ^ 32) :
    (RegionLayout.ofPart program part).Holds pointerSize := by
  have count : (RegionLayout.ofPart program part).slots.length = part.members.length :=
    List.length_map ..
  have room : part.extent pointerSize.toNat =
      part.members.length * pointerSize.toNat + pointerSize.toNat := Nat.succ_mul _ _
  have behind : (part.offset + pointerSize).toNat = part.offset.toNat + pointerSize.toNat :=
    Table.toNat_offset_add (by omega)
  constructor
  · rw [count]
    exact sized
  · apply slotRows_between
    · exact Nat.le_of_eq behind.symm
    · change (part.offset + pointerSize).toNat + _ ≤ part.offset.toNat + part.regionSize.toNat
      rw [count, sized, behind, room]
      omega
    · change part.offset.toNat + part.regionSize.toNat < _
      rw [sized]
      exact fits

end Report

/-! ## Base types of interfaces -/

/-- No interface of the type that is used in place of a type has a base type.  An array
has the table of its innermost elements, so their type is meant. -/
def Linkage.BaselessInterfaces (linkage : Linkage) (type : Token) : Prop :=
  forall resolved interfaces interface canonical definition,
    linkage.program.typeDef (linkage.resolveType type) = .ok resolved ->
    linkage.program.interfaces resolved.token = .ok interfaces -> interface ∈ interfaces ->
    linkage.program.innermost interface = .ok canonical ->
    linkage.program.typeDef canonical = .ok definition -> definition.base = none

namespace Dispatch

theorem Table.base_placeBelow (pointerSize offset : UInt32) (table : Table) :
    (placeBelow pointerSize offset table).1.base = none ↔ table.base = none := by
  rw [placeBelow_eq]
  cases table.base with
  | none => exact Iff.rfl
  | some base => simp [placeBase_some]

/-- Placing interfaces leaves none without a base table that had one. -/
theorem Table.baseless_placeEach (pointerSize offset : UInt32) (tables : List Table) :
    Baseless (placeEach pointerSize offset tables).1 ↔ Baseless tables := by
  unfold Baseless
  induction tables generalizing offset with
  | nil => exact Iff.rfl
  | cons table rest inductionHypothesis =>
      rw [placeEach_cons, List.forall_mem_cons, List.forall_mem_cons, base_placeBelow,
        inductionHypothesis]

namespace Layout

variable {linkage : Linkage} {layout final : Layout}

/-- Sorting methods keeps the interfaces, and a base table if there is one. -/
theorem tables_of_addMethods (sorted : layout.addMethods linkage = .ok final) :
    final.interfaces = layout.interfaces ∧ (final.base = none ↔ layout.base = none) := by
  rcases Result.bind_eq_ok.mp sorted with ⟨methods, _, folded⟩
  refine Layout.foldlM_addMethod (fun _ current => current.interfaces = layout.interfaces ∧
    (current.base = none ↔ layout.base = none)) folded ⟨rfl, Iff.rfl⟩ ?_
  rintro _ method current next _ _ ⟨sameInterfaces, sameBase⟩ step
  rcases step.tables with ⟨kept, unchanged | overridden⟩
  · rw [unchanged]
    exact ⟨kept.trans sameInterfaces, sameBase⟩
  · refine ⟨kept.trans sameInterfaces, Iff.trans ?_ sameBase⟩
    cases before : current.base with
    | none =>
        rw [before] at overridden
        simp [Except.ok.inj overridden.symm]
    | some table =>
        rw [before] at overridden
        rcases Result.map_eq_ok.mp overridden with ⟨changed, _, same⟩
        simp [← same]

theorem base_implementInterface {type : TypeDef} {interface : Token} {table node : Table}
    (implemented : implementInterface linkage type interface table = .ok node) :
    node.base = table.base := by
  have folds : forall (pairs : List (MethodDef × MethodDef)) (table : Table),
      (pairs.foldl (fun table pair => table.implement pair.1 pair.2) table).base = table.base := by
    intro pairs
    induction pairs with
    | nil => exact fun table => rfl
    | cons pair rest inductionHypothesis => exact fun table => inductionHypothesis _
  unfold implementInterface at implemented
  split at implemented
  · cases implemented
    rfl
  · rcases Result.bind_eq_ok.mp implemented with ⟨pairs, _, folded⟩
    cases folded
    exact folds pairs table

end Layout

namespace Registry

variable {linkage : Linkage} {registry : Registry}

/-- The table of a type has a base table if the type, or that of its innermost elements,
has a base type. -/
theorem base_of_tabled (grown : Grows linkage {} registry) {token : Token} {table : Table}
    (tabled : Tabled linkage registry token table) :
    exists canonical type, linkage.program.innermost token = .ok canonical ∧
      linkage.program.typeDef canonical = .ok type ∧ (table.base = none ↔ type.base = none) := by
  rcases tabled with ⟨canonical, layout, innermost, found, rfl⟩
  rcases grown.made found with ⟨type, resolved, base, interfaces, tables, origin⟩
  refine ⟨canonical, type, innermost, origin.declared, ?_⟩
  apply (Layout.tables_of_addMethods origin.sorted).2.trans
  change base = none ↔ type.base = none
  have onBase := origin.onBase
  generalize type.base = parent at onBase
  cases onBase <;> simp

/-- The interfaces in the table of a type have no base tables exactly if those of the type
have no base types. -/
theorem baseless_iff (grown : Grows linkage {} registry) {token : Token} {layout : Layout}
    (member : (token, layout) ∈ registry.layouts) (pointerSize : UInt32) :
    Table.Baseless (layout.finished pointerSize).interfaces ↔
      linkage.BaselessInterfaces token := by
  rcases grown.made_of_mem member with ⟨type, resolved, base, interfaces, tables, origin⟩
  have placed := Table.baseless_placeEach pointerSize (layout.table.chainStop pointerSize)
    layout.interfaces
  apply placed.trans
  rw [(Layout.tables_of_addMethods origin.sorted).1]
  change Table.Baseless tables ↔ _
  constructor
  · intro baseless used listed interface canonical definition resolves lists among innermost
      declared
    rw [origin.resolves] at resolves
    cases resolves
    rw [origin.listed] at lists
    cases lists
    rcases Result.exists_of_mem_left origin.onInterfaces among with
      ⟨table, inTables, plain, tabled, implemented⟩
    rcases base_of_tabled grown tabled with ⟨found, ownType, innermostToo, declaredToo, sameBase⟩
    rw [innermost] at innermostToo
    cases innermostToo
    rw [declared] at declaredToo
    cases declaredToo
    apply sameBase.mp
    rw [← Layout.base_implementInterface implemented]
    exact baseless table inTables
  · intro baseless table inTables
    rcases Result.exists_of_mem_right origin.onInterfaces inTables with
      ⟨interface, among, plain, tabled, implemented⟩
    rcases base_of_tabled grown tabled with ⟨canonical, definition, innermost, declared, sameBase⟩
    rw [Layout.base_implementInterface implemented]
    apply sameBase.mpr
    exact baseless resolved interfaces interface canonical definition origin.resolves origin.listed
      among innermost declared

end Registry
end Dispatch

/-! ## Compilations -/

namespace Compilation

open Dispatch Report

/-- What the listing of a finished table is worth. -/
structure Lists (linkage : Linkage) (pointerSize : UInt32) (table : Table)
    (listing : List RegionLayout) : Prop where
  /-- The regions of a table are those of its parts. -/
  parts : table.regions = table.nodes.map Table.region
  /-- Every region is listed with the slots of the part that owns it exactly if no
  interface of the type has a base type. -/
  own : listing = table.nodes.map (RegionLayout.ofPart linkage.program) ↔
    linkage.BaselessInterfaces table.type
  /-- In this case all slots are shown inside their regions. -/
  holds : linkage.BaselessInterfaces table.type ->
    table.footprint pointerSize.toNat < 2 ^ 32 ->
      forall entry, entry ∈ listing -> entry.Holds pointerSize
  /-- In any case as many regions are listed as the chain has parts and the table has
  interfaces, and these are the first ones. -/
  regions : listing.map RegionLayout.region =
    table.regions.take (table.chain.length + table.interfaces.length)
  /-- They have the right slots up to the first interface with a base table. -/
  upTo : forall front interface back, table.interfaces = front ++ interface :: back ->
    Table.Baseless front ->
      (table.chain ++ front ++ [interface]).map (RegionLayout.ofPart linkage.program) <+: listing

/-- The listing of a finished table shows every region with its own slots if no interface
of the type has a base type, and otherwise goes wrong behind the first that has one. -/
theorem compile_lists {job : Job} {compilation : Compilation}
    (compiled : job.compile = .ok compilation) {table : Table}
    (member : table ∈ compilation.tables) :
    Lists job.linkage job.options.pointerSize table
      (TableLayout.ofTable job.linkage.program table).regions := by
  rcases Job.compile_eq_ok compiled with ⟨session, closed, rfl⟩
  have grown := Session.grown_of_close closed
  rcases Registry.mem_compile.mp member with ⟨token, layout, registered, rfl⟩
  have isToken : (layout.finished job.options.pointerSize).type = token :=
    (Program.token_of_typeDef (grown.typeDef_of_mem registered)).2
  have baseless := Registry.baseless_iff grown registered job.options.pointerSize
  rw [← isToken] at baseless
  have flat : forall node, node ∈ (layout.finished job.options.pointerSize).nodes.tail ->
      node.interfaces = [] := by
    intro node inTail
    apply Table.interfaces_of_mem_place job.options.pointerSize layout.table
    rw [Table.nodes_eq] at inTail ⊢
    exact inTail
  have own := (TableLayout.regions_eq_iff job.linkage.program flat).trans baseless
  constructor
  · exact Table.regions_eq_map _
  · exact own
  · intro plain fits entry listed
    rw [own.mpr plain] at listed
    rcases List.mem_map.mp listed with ⟨part, isPart, rfl⟩
    have unplaced : layout.table.offset.toNat + layout.table.footprint
        job.options.pointerSize.toNat < 2 ^ 32 := by
      have same := Table.footprint_convert_place job.options.pointerSize layout.table
        job.options.pointerSize.toNat
      change 0 + _ < _
      rw [Nat.zero_add, ← same]
      exact fits
    have adjoining := Table.adjoining_convert
      (Table.adjoining_place job.options.pointerSize layout.table unplaced)
    have ends := adjoining.end_le_of_mem isPart
    apply holds_ofPart (adjoining.sized_of_mem isPart)
    exact Nat.lt_of_le_of_lt ends (UInt32.toNat_lt _)
  · exact TableLayout.listed_regions _ _
  · intro front interface back split plain
    exact TableLayout.listed_upTo flat split plain

/-- A table that is found by its name is one of the tables. -/
theorem mem_of_table? {compilation : Compilation} {name : String} {table : Table}
    (found : compilation.table? name = some table) : table ∈ compilation.tables := by
  obtain ⟨place, _, isTable⟩ := Option.map_eq_some_iff.mp found
  exact isTable ▸ List.get_mem _ place

/-! ## An interface with and without a base type -/

/-- A hall is a chime and a lamp.  The chime has the given base type. -/
def sampleHallSteps (base : Option Token) : List DraftStep := [
  .type none "Demo" "Device" TypeAttributes.exported none,
  .type none "Demo" "IChime" TypeAttributes.interface base,
  .type none "Demo" "ILamp" TypeAttributes.interface none,
  .type none "Demo" "Hall" TypeAttributes.exported none,
  .interface ⟨0x02000004⟩ ⟨0x02000002⟩,
  .interface ⟨0x02000004⟩ ⟨0x02000003⟩,
  .method none ⟨0x02000001⟩ "Power" ⟨6, 0x0040, 0x0100⟩ none [] (some ⟨8, true, [0x2A]⟩),
  .method none ⟨0x02000002⟩ "Ring" ⟨6, 0x0440, 0x0100⟩ none [] none,
  .method none ⟨0x02000003⟩ "On" ⟨6, 0x0440, 0x0100⟩ none [] none,
  .method none ⟨0x02000003⟩ "Off" ⟨6, 0x0440, 0x0100⟩ none [] none,
  .method none ⟨0x02000004⟩ "Ring" ⟨6, 0x0040, 0x0100⟩ none [] (some ⟨8, true, [0x2A]⟩),
  .method none ⟨0x02000004⟩ "On" ⟨6, 0x0040, 0x0100⟩ none [] (some ⟨8, true, [0x2A]⟩),
  .method none ⟨0x02000004⟩ "Off" ⟨6, 0x0040, 0x0100⟩ none [] (some ⟨8, true, [0x2A]⟩),
  .constructor none ⟨0x02000004⟩ false [] (some ⟨8, true, [0x2A]⟩)]

def sampleHall (base : Option Token) : Program :=
  (Draft.ofSteps (sampleHallSteps base)).build.toOption.getD ⟨[], [], [], [], []⟩

def sampleHallRequest (base : Option Token) : Result Job := do
  let job ← Job.new (sampleHall base) {} {}
  job.addEntryNamed "Demo.Hall" ".ctor"

def sampleHallJob (base : Option Token) : Job :=
  (sampleHallRequest base).toOption.getD ⟨⟨sampleHall base, [], []⟩, {}, []⟩

def sampleHallCompilation (base : Option Token) : Compilation :=
  (sampleHallJob base).compile.toOption.getD ⟨{}, []⟩

/-- The table of the hall. -/
def sampleHallTable (base : Option Token) : Table :=
  ((sampleHallCompilation base).table? "Demo.Hall").getD ⟨⟨0⟩, ⟨0⟩, "", [], none, [], 0, 0, 0, []⟩

/-- The regions of the hall as they are listed. -/
def sampleHallListing (base : Option Token) : List RegionLayout :=
  (TableLayout.ofTable (sampleHallJob base).linkage.program (sampleHallTable base)).regions

theorem sampleHallTable_mem {base : Option Token}
    (found : ((sampleHallCompilation base).table? "Demo.Hall").isSome) :
    sampleHallTable base ∈ (sampleHallCompilation base).tables := by
  rcases Option.isSome_iff_exists.mp found with ⟨table, isTable⟩
  have isHall : (sampleHallCompilation base).table? "Demo.Hall" = some (sampleHallTable base) := by
    rw [sampleHallTable, isTable, Option.getD_some]
  exact mem_of_table? isHall

/-- Without a base type of the chime, every region is listed with its own slots. -/
theorem sampleHall_lists :
    (exists compilation, (sampleHallJob none).compile = .ok compilation ∧
      sampleHallTable none ∈ compilation.tables) ∧
    (sampleHallJob none).linkage.BaselessInterfaces (sampleHallTable none).type ∧
    (sampleHallTable none).footprint 8 < 2 ^ 32 ∧
    Lists (sampleHallJob none).linkage 8 (sampleHallTable none) (sampleHallListing none) ∧
    forall entry, entry ∈ sampleHallListing none -> entry.Holds 8 := by
  have compiled : (sampleHallJob none).compile = .ok (sampleHallCompilation none) :=
    Result.eq_ok_getD (by decide +kernel) _
  have member : sampleHallTable none ∈ (sampleHallCompilation none).tables :=
    sampleHallTable_mem (by decide +kernel)
  have fits : (sampleHallTable none).footprint 8 < 2 ^ 32 := by decide +kernel
  have lists : Lists (sampleHallJob none).linkage 8 (sampleHallTable none)
      (sampleHallListing none) := compile_lists compiled member
  have plain := lists.own.mp (by decide +kernel)
  exact ⟨⟨_, compiled, member⟩, plain, fits, lists, lists.holds plain fits⟩

/-- With a base type of the chime, the region of that base type is listed with the slots
of the lamp, for which it is too small, and the region of the lamp is not listed. -/
theorem sampleHall_mislists :
    (exists compilation, (sampleHallJob (some ⟨0x02000001⟩)).compile = .ok compilation ∧
      sampleHallTable (some ⟨0x02000001⟩) ∈ compilation.tables) ∧
    (sampleHallListing (some ⟨0x02000001⟩)).map RegionLayout.region =
      [⟨"Demo.Hall", 0, 32⟩, ⟨"Demo.IChime", 32, 24⟩, ⟨"Demo.Device", 56, 16⟩] ∧
    (sampleHallTable (some ⟨0x02000001⟩)).regions =
      (sampleHallListing (some ⟨0x02000001⟩)).map RegionLayout.region ++
        [⟨"Demo.ILamp", 72, 24⟩] ∧
    sampleHallListing (some ⟨0x02000001⟩) ≠
      (sampleHallTable (some ⟨0x02000001⟩)).nodes.map
        (RegionLayout.ofPart (sampleHall (some ⟨0x02000001⟩))) ∧
    exists entry, entry ∈ sampleHallListing (some ⟨0x02000001⟩) ∧
      entry.region = ⟨"Demo.Device", 56, 16⟩ ∧
      entry.slots = ["System.Void____Demo.Hall.On", "System.Void____Demo.Hall.Off"] ∧
      Layout.slotRows 8 (entry.region.offset + 8) entry.slots =
        [["0x40", "", "System.Void____Demo.Hall.On"],
          ["0x48", "", "System.Void____Demo.Hall.Off"]] ∧
      ¬ entry.Holds 8 := by
  have compiled : (sampleHallJob (some ⟨0x02000001⟩)).compile =
      .ok (sampleHallCompilation (some ⟨0x02000001⟩)) := Result.eq_ok_getD (by decide +kernel) _
  have listing : sampleHallListing (some ⟨0x02000001⟩) = [
      ⟨⟨"Demo.Hall", 0, 32⟩, ["System.Void____Demo.Hall.Ring", "System.Void____Demo.Hall.On",
        "System.Void____Demo.Hall.Off"]⟩,
      ⟨⟨"Demo.IChime", 32, 24⟩,
        ["System.Void____Demo.Device.Power", "System.Void____Demo.Hall.Ring"]⟩,
      ⟨⟨"Demo.Device", 56, 16⟩,
        ["System.Void____Demo.Hall.On", "System.Void____Demo.Hall.Off"]⟩] := by
    decide +kernel
  have regions : (sampleHallTable (some ⟨0x02000001⟩)).regions =
      (sampleHallListing (some ⟨0x02000001⟩)).map RegionLayout.region ++
        [⟨"Demo.ILamp", 72, 24⟩] := by
    decide +kernel
  refine ⟨⟨_, compiled, sampleHallTable_mem (by decide +kernel)⟩, by rw [listing]; rfl, regions,
    ?_, ?_⟩
  · -- The regions of all parts are one more than those that are listed.
    intro same
    rw [same, List.map_map, Table.regions_eq_map] at regions
    have lengths := congrArg List.length regions
    simp at lengths
  · rw [listing]
    refine ⟨_, List.mem_cons_of_mem _ (List.mem_cons_of_mem _ List.mem_cons_self), rfl, rfl,
      by decide, ?_⟩
    intro holds
    exact absurd holds.size (by decide)

end Compilation
end CilGraph
