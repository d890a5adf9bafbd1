import CilGraph.Proofs.Dispatch.Compatibility
import CilGraph.Proofs.Dispatch.Conversions
import CilGraph.Proofs.Dispatch.Finished

namespace CilGraph
namespace Dispatch

/-!
# Conversions in several steps

A value may be converted to an ancestor at once, or first to a type in between
and from there on.  The offsets of the two ways come from different tables, and
these were made, patched and placed apart.  They agree because the region of an
ancestor lies behind those of the types that were passed, and the region of each
type has the same size wherever it lies: that of its own table.  So the offset of
an ancestor is the sum of the sizes of the types below it, and sums compose.

Two things could spoil this.  Overriding might change the number of slots or the
name of a part, and an interface might lie between two regions of the chain, or be
entered under the name of an ancestor before the ancestor is.  Overriding changes
what slots hold and nothing else, and interfaces are placed and entered last.

Offsets are words, so they compose also where they wrap.  As numbers they compose
where the regions of the chain fit.
-/

namespace Table

/-! ## Parts of a chain -/

/-- Replacing slots changes no name along a chain. -/
theorem names_replaceSlots {linkage : Linkage} {method : MethodDef} {root : Token}
    {table after : Table} {replaced : Bool}
    (succeeded : replaceSlots linkage method root table = .ok (after, replaced)) :
    after.chain.map name = table.chain.map name := by
  induction table using baseInduction generalizing after replaced with
  | step table inductionHypothesis =>
      rcases replaceSlots_eq_ok succeeded with ⟨members, here, base, below, _, same, _, ofBase⟩
      rw [same, chain_eq, chain_eq, List.map_cons, List.map_cons]
      refine congrArg (table.name :: ·) ?_
      rcases ofBase with ⟨_, sameBase, _⟩ | ⟨_, replacedBase⟩
      · rw [sameBase]
      · rcases replaceBase_eq_ok replacedBase with
          ⟨isNone, stays, _⟩ | ⟨inner, changed, isBase, isChanged, ofInner⟩
        · rw [isNone, stays]
        · rw [isBase, isChanged]
          exact inductionHypothesis inner isBase ofInner

/-- The level of a part. -/
def level (node : Table) : Level :=
  ⟨node.type, node.resolved, node.members⟩

theorem levels_eq_map (table : Table) : table.levels = table.chain.map level := by
  induction table using baseInduction with
  | step table inductionHypothesis =>
      rw [levels_eq, chain_eq, List.map_cons]
      refine congrArg (table.level :: ·) ?_
      cases isBase : table.base with
      | none => rfl
      | some base => exact inductionHypothesis base isBase

/-! ## Offsets along a chain -/

/-- The size of a region as a word, also where it wraps. -/
theorem placedSize_eq (pointerSize : UInt32) (node : Table) :
    node.placedSize pointerSize = UInt32.ofNat (node.extent pointerSize.toNat) := by
  unfold placedSize extent
  rw [UInt32.ofNat_mul, UInt32.ofNat_add, UInt32.ofNat_toNat]
  rfl

/-- A part begins behind all parts that come before it in its chain. -/
theorem offset_of_chain_placeBelow {pointerSize offset : UInt32} {table node : Table}
    {front back : List Table}
    (split : (placeBelow pointerSize offset table).1.chain = front ++ node :: back) :
    node.offset = offset + UInt32.ofNat (front.map (extent pointerSize.toNat)).sum := by
  induction table using baseInduction generalizing offset front with
  | step table inductionHypothesis =>
      rw [placeBelow_eq, chain_eq] at split
      cases front with
      | nil =>
          rw [← (List.cons.inj split).1]
          exact (UInt32.add_zero offset).symm
      | cons first rest =>
          rw [List.cons_append] at split
          rcases List.cons.inj split with ⟨isFirst, above⟩
          cases isBase : table.base with
          | none =>
              rw [isBase] at above
              exact absurd above.symm (List.append_ne_nil_of_right_ne_nil _ (List.cons_ne_nil _ _))
          | some base =>
              rw [isBase, placeBase_some] at above
              rw [inductionHypothesis base isBase above, placedSize_eq, UInt32.add_assoc,
                ← UInt32.ofNat_add, List.map_cons, List.sum_cons, ← isFirst]
              rfl

theorem offset_of_chain_place {pointerSize : UInt32} {table node : Table}
    {front back : List Table}
    (split : (table.place pointerSize).convert.chain = front ++ node :: back) :
    node.offset = table.offset + UInt32.ofNat (front.map (extent pointerSize.toNat)).sum := by
  rw [chain_eq] at split
  cases front with
  | nil =>
      rw [← (List.cons.inj split).1]
      exact (UInt32.add_zero table.offset).symm
  | cons first rest =>
      -- Behind the root the chain is the one that is placed below it.
      have below : (placeBelow pointerSize table.offset table).1.chain =
          (placeBelow pointerSize table.offset table).1 :: rest ++ node :: back := by
        rw [placeBelow_eq, chain_eq]
        exact congrArg (_ :: ·) (List.cons.inj split).2
      rw [offset_of_chain_placeBelow below, List.map_cons, List.map_cons, ← (List.cons.inj split).1,
        placeBelow_eq]
      rfl

/-- A finished table has the parts of the table that it was made from. -/
theorem parts_finished (pointerSize : UInt32) (table : Table) :
    (table.place pointerSize).convert.chain.map (fun node => (node.level, node.name)) =
      table.chain.map (fun node => (node.level, node.name)) := by
  have ofChain := congrArg (List.map (fun content : Content =>
      ((⟨content.type, content.resolved, content.members⟩ : Level), content.name)))
    (chain_placeBase pointerSize (table.offset + table.placedSize pointerSize) table.base)
  rw [List.map_map, List.map_map] at ofChain
  rw [chain_eq, chain_eq, List.map_cons, List.map_cons]
  exact congrArg (_ :: ·) ofChain

/-! ## Slots in memory -/

/-- A table has a method in the slot at an address.  The slots of a part follow its
header. -/
def Holds (pointerSize : Nat) (table : Table) (address : Nat) (method : MethodDef) : Prop :=
  exists node index, node ∈ table.nodes ∧ node.members[index]? = some method ∧
    address = node.offset.toNat + (index + 1) * pointerSize

/-- Filling the conversion table moves no part. -/
theorem adjoining_convert {bytes offset stop : Nat} {table : Table}
    (adjoining : Adjoining bytes offset table.nodes stop) :
    Adjoining bytes offset table.convert.nodes stop := by
  rw [nodes_eq] at adjoining ⊢
  cases adjoining with
  | cons begins sized follow => exact .cons begins sized follow

/-- A slot ends before a region begins that lies behind it. -/
theorem slot_lt_of_region_le {bytes index : Nat} {node later : Table} {method : MethodDef}
    (positive : 0 < bytes) (holds : node.members[index]? = some method)
    (behind : node.offset.toNat + node.extent bytes ≤ later.offset.toNat) :
    node.offset.toNat + (index + 1) * bytes < later.offset.toNat := by
  have inside : index < node.members.length := (List.getElem?_eq_some_iff.mp holds).1
  have within : (index + 1) * bytes < node.extent bytes :=
    Nat.mul_lt_mul_of_pos_right (Nat.succ_lt_succ inside) positive
  omega

/-- Where regions lie one after another, an address belongs to one slot. -/
theorem Adjoining.holds_unique {bytes offset stop address : Nat} {table : Table}
    {method other : MethodDef} (adjoining : Adjoining bytes offset table.nodes stop)
    (positive : 0 < bytes) (holds : table.Holds bytes address method)
    (again : table.Holds bytes address other) : method = other := by
  rcases holds with ⟨node, index, isNode, here, isAddress⟩
  rcases again with ⟨rival, position, isRival, there, sameAddress⟩
  rcases adjoining.apart isNode isRival with same | before | behind
  · rw [← same] at there sameAddress
    have sameIndex : index + 1 = position + 1 :=
      Nat.eq_of_mul_eq_mul_right positive (by omega)
    rw [Nat.succ.inj sameIndex, there] at here
    exact (Option.some.inj here).symm
  · have early := slot_lt_of_region_le positive here before
    omega
  · have early := slot_lt_of_region_le positive there behind
    omega

end Table

/-! ## Tables along a lineage -/

theorem Layout.Sorted.names {linkage : Linkage} {layout next : Layout} {method : MethodDef}
    (sorted : Layout.Sorted linkage layout method next) :
    (Table.chainOfBase next.base).map Table.name =
      (Table.chainOfBase layout.base).map Table.name := by
  rcases sorted.tables.2 with same | overridden
  · rw [same]
  · cases isBase : layout.base with
    | none =>
        rw [isBase] at overridden
        rw [← Except.ok.inj overridden]
    | some base =>
        rw [isBase] at overridden
        rcases Result.map_eq_ok.mp overridden with ⟨changed, overrides, isNext⟩
        rcases Table.override_eq_ok overrides with ⟨root, _, replaced⟩
        rw [← isNext]
        exact Table.names_replaceSlots replaced

/-- The parts of a table are named after its type and the parts of the base table. -/
theorem Layout.names_of_addMethods {linkage : Linkage} {layout final : Layout}
    (sorted : layout.addMethods linkage = .ok final) :
    final.table.chain.map Table.name =
      layout.type.fullName :: (Table.chainOfBase layout.base).map Table.name := by
  rw [Table.chain_eq, List.map_cons]
  change final.type.fullName :: (Table.chainOfBase final.base).map Table.name = _
  rw [Layout.type_of_addMethods sorted]
  refine congrArg (layout.type.fullName :: ·) ?_
  rcases Result.bind_eq_ok.mp sorted with ⟨methods, _, folded⟩
  refine Layout.foldlM_addMethod (fun _ current => (Table.chainOfBase current.base).map Table.name =
    (Table.chainOfBase layout.base).map Table.name) folded rfl ?_
  intro _ method current next _ _ kept step
  exact step.names.trans kept

namespace Registry

/-- The number of slots that a type has in its own table. -/
def width (registry : Registry) (type : TypeDef) : Nat :=
  ((registry.layout? type.token).map (fun layout => layout.table.members.length)).getD 0

/-- The bytes of the regions of types in a row. -/
def span (registry : Registry) (bytes : Nat) (types : List TypeDef) : Nat :=
  (types.map (fun type => (registry.width type + 1) * bytes)).sum

theorem span_append (registry : Registry) (bytes : Nat) (first second : List TypeDef) :
    registry.span bytes (first ++ second) =
      registry.span bytes first + registry.span bytes second := by
  unfold span
  rw [List.map_append, List.sum_append]

section Lineages

variable {linkage : Linkage} {registry : Registry} {token : Token} {chain : List TypeDef}
  {layout : Layout}

/-- The parts along the chain of a table have the names of the lineage. -/
theorem names_of_layout (grown : Grows linkage {} registry)
    (lineage : Program.Lineage linkage.program token chain)
    (plain : forall type, type ∈ chain -> type.isArray = false)
    (found : registry.layout? token = some layout) :
    layout.table.chain.map Table.name = chain.map TypeDef.fullName := by
  induction lineage generalizing layout with
  | @root token type declared noBase =>
      rcases grown.made found with ⟨other, resolved, base, interfaces, tables, origin⟩
      cases Except.ok.inj (declared.symm.trans origin.declared)
      have onBase := origin.onBase
      rw [noBase] at onBase
      cases onBase
      rw [Layout.names_of_addMethods origin.sorted]
      rfl
  | @derived token parent type ancestors declared hasBase above inductionHypothesis =>
      rcases grown.made found with ⟨other, resolved, base, interfaces, tables, origin⟩
      cases Except.ok.inj (declared.symm.trans origin.declared)
      have onBase := origin.onBase
      rw [hasBase] at onBase
      cases onBase with
      | some tabled =>
          rcases tabled with ⟨canonical, ofParent, innermost, isLayout, same⟩
          have plainAbove : forall other, other ∈ ancestors -> other.isArray = false :=
            fun other member => plain other (List.mem_cons_of_mem _ member)
          rw [innermost_of_lineage above plainAbove] at innermost
          cases innermost
          rw [Layout.names_of_addMethods origin.sorted]
          refine congrArg (type.fullName :: ·) ?_
          rw [← inductionHypothesis plainAbove isLayout, ← same]
          rfl

end Lineages

/-- Each level has as many slots as its type has in a table of its own. -/
theorem LevelsMatch.widths {registry : Registry}
    {related : List TypeDef -> MethodDef -> MethodDef -> Prop} {below rest : List TypeDef}
    {levels : List Level} (levelsMatch : LevelsMatch registry related below rest levels) :
    levels.map (fun level => level.members.length) = rest.map registry.width := by
  induction levelsMatch with
  | nil => rfl
  | @cons below rest type level levels layout _ _ found slots above inductionHypothesis =>
      rw [List.map_cons, List.map_cons, inductionHypothesis]
      refine congrArg (· :: rest.map registry.width) ?_
      unfold width
      rw [found]
      exact slots.length_eq.symm

end Registry

/-! ## Conversion to an ancestor -/

/-- The part of an ancestor in the table of a type begins at an offset.  The types
`passed` lie below the ancestor. -/
structure Upcast (program : Program) (bytes : Nat) (passed : List TypeDef)
    (derived top : Table) (offset : UInt32) : Prop where
  converts : derived.conversion? top.name = some offset
  /-- The part has the slots of the ancestor, apart from what the passed types override. -/
  part : exists node, node ∈ derived.chain ∧ node.type = top.type ∧ node.offset = offset ∧
    List.Forall₂ (fun declared slot => program.Dispatched declared passed slot)
      top.members node.members
  /-- They lie behind the header in the order of the ancestor. -/
  reads : forall index declared, top.members[index]? = some declared -> exists slot,
    program.Dispatched declared passed slot ∧
      derived.Holds bytes (offset.toNat + (index + 1) * bytes) slot

section Conversion

variable {linkage : Linkage} {registry : Registry} {token : Token} {below above : List TypeDef}
  {ancestor : TypeDef} {layout top : Layout} (wellFormed : linkage.program.WellFormed)
  (unreplaced : linkage.substitutions = []) (grown : Registry.Grows linkage {} registry)
  (lineage : Program.Lineage linkage.program token (below ++ ancestor :: above))
  (plain : forall type, type ∈ below ++ ancestor :: above -> type.isArray = false)
  (found : registry.layout? token = some layout)
  (isTop : registry.layout? ancestor.token = some top)

include wellFormed unreplaced grown lineage plain found isTop

/-- The part of an ancestor comes behind one part for each type below the ancestor. -/
theorem exists_part (pointerSize : UInt32) (bytes : Nat) :
    exists front node back, (layout.finished pointerSize).chain = front ++ node :: back ∧
      front.map Table.name = below.map TypeDef.fullName ∧ node.name = ancestor.fullName ∧
      node.type = ancestor.token ∧
      (front.map (Table.extent bytes)).sum = registry.span bytes below ∧
      List.Forall₂ (fun declared slot => linkage.program.Dispatched declared below slot)
        top.table.members node.members := by
  have compatible := compatible_of_layout wellFormed unreplaced grown lineage plain found
  have parts := Table.parts_finished pointerSize layout.table
  have levels : (layout.finished pointerSize).chain.map Table.level = layout.table.levels := by
    have ofParts := congrArg (List.map Prod.fst) parts
    rw [List.map_map, List.map_map] at ofParts
    exact ofParts.trans (Table.levels_eq_map layout.table).symm
  have names : (layout.finished pointerSize).chain.map Table.name =
      (below ++ ancestor :: above).map TypeDef.fullName := by
    have ofParts := congrArg (List.map Prod.snd) parts
    rw [List.map_map, List.map_map] at ofParts
    exact ofParts.trans (Registry.names_of_layout grown lineage plain found)
  rw [List.map_append, List.map_cons] at names
  rcases List.map_eq_append_iff.mp names with ⟨front, rest, split, ofFront, ofRest⟩
  rcases List.map_eq_cons_iff.mp ofRest with ⟨node, back, isRest, isName, _⟩
  rw [isRest] at split
  rw [split, List.map_append, List.map_cons] at levels
  rw [← levels] at compatible
  have sameLength : (front.map Table.level).length = below.length := by
    rw [List.length_map, ← List.length_map Table.name, ofFront, List.length_map]
  have isAncestor : (below ++ ancestor :: above)[below.length]? = some ancestor := by
    rw [List.getElem?_append_right (Nat.le_refl _), Nat.sub_self, List.getElem?_cons_zero]
  have isLevel : (front.map Table.level ++ node.level :: back.map Table.level)[below.length]? =
      some node.level := by
    rw [← sameLength, List.getElem?_append_right (Nat.le_refl _), Nat.sub_self,
      List.getElem?_cons_zero]
  have isType : node.type = ancestor.token := by
    have sameType := congrArg (fun types => types[below.length]?) compatible.types
    simp only [List.getElem?_map, isLevel, isAncestor, Option.map_some] at sameType
    exact Option.some.inj sameType
  have sizes : front.map (fun node => node.members.length) = below.map registry.width := by
    have widths := Registry.LevelsMatch.widths compatible
    rw [List.map_append, List.map_append, List.map_map] at widths
    refine (List.append_inj widths ?_).1
    rw [List.length_map, List.length_map, ← sameLength, List.length_map]
  refine ⟨front, node, back, split, ofFront, isName, isType, ?_, ?_⟩
  · have ofSizes := congrArg (List.map (fun size => (size + 1) * bytes)) sizes
    rw [List.map_map, List.map_map] at ofSizes
    exact congrArg List.sum ofSizes
  · rcases compatible.slots_at isAncestor isLevel with ⟨own, isLayout, slots⟩
    rw [isTop] at isLayout
    cases isLayout
    rw [List.nil_append, List.take_left] at slots
    exact slots

/-- The regions below an ancestor lie in the chain. -/
theorem span_le_chainExtent (pointerSize : UInt32) :
    registry.span pointerSize.toNat below ≤
      (layout.finished pointerSize).chainExtent pointerSize.toNat := by
  rcases exists_part wellFormed unreplaced grown lineage plain found isTop pointerSize
    pointerSize.toNat with ⟨front, node, back, split, _, _, _, size, _⟩
  unfold Table.chainExtent
  rw [split, List.map_append, List.sum_append, size]
  exact Nat.le_add_right _ _

theorem upcast_of_lineage (apart : linkage.program.TellsApart) (pointerSize : UInt32) :
    Upcast linkage.program pointerSize.toNat below (layout.finished pointerSize)
      (top.finished pointerSize) (UInt32.ofNat (registry.span pointerSize.toNat below)) := by
  rcases exists_part wellFormed unreplaced grown lineage plain found isTop pointerSize
    pointerSize.toNat with ⟨front, node, back, split, ofFront, isName, isType, size, slots⟩
  have ofTop : top.type = ancestor := by
    have declared := grown.typeDef_of_mem (Registry.mem_layouts_of_layout? isTop)
    rw [lineage.typeDef_of_mem (List.mem_append_right _ List.mem_cons_self)] at declared
    exact (Except.ok.inj declared).symm
  have isOffset : node.offset = UInt32.ofNat (registry.span pointerSize.toNat below) := by
    rw [Table.offset_of_chain_place split, size]
    exact UInt32.zero_add _
  have earlier : forall part, part ∈ front -> ¬ (part.name == ancestor.fullName) = true := by
    intro part member same
    have distinct := Program.Lineage.nodup_names apart lineage
    rw [List.map_append, List.map_cons, ← ofFront] at distinct
    refine (List.nodup_append.mp distinct).2.2 part.name (List.mem_map_of_mem member)
      ancestor.fullName List.mem_cons_self (eq_of_beq same)
  refine ⟨?_, ⟨node, ?_, ?_, isOffset, slots⟩, ?_⟩
  · have selected : (layout.finished pointerSize).targets.find?
        (fun part => part.name == ancestor.fullName) = some node := by
      unfold Table.targets
      rw [split, List.append_assoc, List.find?_append, List.find?_eq_none.mpr earlier,
        Option.none_or, List.cons_append, List.find?_cons, isName, beq_self_eq_true]
    rw [Layout.name_finished, ofTop, ← isOffset]
    exact (Table.conversion?_convert_place pointerSize layout.table _).trans
      (congrArg (Option.map Table.offset) selected)
  · rw [split]
    exact List.mem_append_right _ List.mem_cons_self
  · rw [isType, Layout.type_finished, ofTop]
  · intro index declared isDeclared
    rcases List.getElem?_eq_some_iff.mp isDeclared with ⟨inside, isHere⟩
    have insideNode : index < node.members.length := by
      rw [← slots.length_eq]
      exact inside
    refine ⟨node.members[index], ?_, node, index, ?_, List.getElem?_eq_getElem insideNode, ?_⟩
    · rw [← isHere]
      exact slots.get inside insideNode
    · refine Table.mem_nodes_of_mem_chain ?_
      rw [split]
      exact List.mem_append_right _ List.mem_cons_self
    · rw [isOffset]

end Conversion

namespace Registry

theorem exists_layout_of_compile {linkage : Linkage} {registry : Registry}
    (grown : Grows linkage {} registry) {pointerSize : UInt32} {table : Table}
    (member : table ∈ registry.compile pointerSize) :
    exists layout, registry.layout? table.type = some layout ∧
      layout.finished pointerSize = table := by
  rcases mem_compile.mp member with ⟨token, layout, among, same⟩
  have isToken := (Program.token_of_typeDef (grown.typeDef_of_mem among)).2
  refine ⟨layout, ?_, same⟩
  rw [← same, Layout.type_finished, isToken]
  exact grown.layout?_of_mem among

/-- A conversion in two steps leads to the same place as one in a single step. -/
theorem compile_upcasts {steps : List DraftStep} {linkage : Linkage} {registry : Registry}
    {pointerSize : UInt32} {derived middle top : Table} {below between above : List TypeDef}
    {inner outer : TypeDef}
    (built : (Draft.ofSteps steps).build = .ok linkage.program)
    (unreplaced : linkage.substitutions = []) (reachable : Reachable linkage registry)
    (isDerived : derived ∈ registry.compile pointerSize)
    (isMiddle : middle ∈ registry.compile pointerSize)
    (isTop : top ∈ registry.compile pointerSize)
    (lineage : Program.Lineage linkage.program derived.type
      (below ++ inner :: between ++ outer :: above))
    (ofMiddle : middle.type = inner.token) (ofTop : top.type = outer.token)
    (plain : forall type, type ∈ below ++ inner :: between ++ outer :: above ->
      type.isArray = false) :
    exists toMiddle onward toTop : UInt32,
      Upcast linkage.program pointerSize.toNat below derived middle toMiddle ∧
      Upcast linkage.program pointerSize.toNat (inner :: between) middle top onward ∧
      Upcast linkage.program pointerSize.toNat (below ++ inner :: between) derived top toTop ∧
      toTop = toMiddle + onward ∧
      (derived.chainExtent pointerSize.toNat < 2 ^ 32 ->
        toTop.toNat = toMiddle.toNat + onward.toNat) ∧
      (0 < pointerSize -> derived.footprint pointerSize.toNat < 2 ^ 32 ->
        forall address method other, derived.Holds pointerSize.toNat address method ->
          derived.Holds pointerSize.toNat address other -> method = other) := by
  have wellFormed := Draft.wellFormed_of_build (Draft.listsOwn_ofSteps steps) built
  have apart := Draft.tellsApart_of_build built
  have grown := reachable.grows
  rcases exists_layout_of_compile grown isDerived with ⟨layout, found, same⟩
  rcases exists_layout_of_compile grown isMiddle with ⟨middleLayout, middleFound, sameMiddle⟩
  rcases exists_layout_of_compile grown isTop with ⟨topLayout, topFound, sameTop⟩
  rw [ofMiddle] at middleFound
  rw [ofTop] at topFound
  -- The lineage may be cut at either ancestor.
  have cutInner : below ++ inner :: between ++ outer :: above =
      below ++ inner :: (between ++ outer :: above) := by
    rw [List.append_assoc, List.cons_append]
  have lineageInner := lineage.suffix cutInner
  have plainInner : forall type, type ∈ inner :: between ++ outer :: above ->
      type.isArray = false := by
    intro type member
    refine plain type ?_
    rw [cutInner]
    exact List.mem_append_right _ member
  have toMiddle := upcast_of_lineage wellFormed unreplaced grown (cutInner ▸ lineage)
    (cutInner ▸ plain) found middleFound apart pointerSize
  have onward : Upcast _ _ (inner :: between) _ _ _ := upcast_of_lineage wellFormed unreplaced grown
    lineageInner plainInner middleFound topFound apart pointerSize
  have toTop := upcast_of_lineage wellFormed unreplaced grown lineage plain found topFound apart
    pointerSize
  have bound := span_le_chainExtent wellFormed unreplaced grown lineage plain found topFound
    pointerSize
  rw [same, sameMiddle] at toMiddle
  rw [sameMiddle, sameTop] at onward
  rw [same, sameTop] at toTop
  rw [same] at bound
  refine ⟨_, _, _, toMiddle, onward, toTop, ?_, ?_, ?_⟩
  · rw [span_append, UInt32.ofNat_add]
  · intro fits
    have room : derived.chainExtent pointerSize.toNat < UInt32.size := fits
    rw [span_append] at bound ⊢
    rw [UInt32.toNat_ofNat_of_lt' (by omega), UInt32.toNat_ofNat_of_lt' (by omega),
      UInt32.toNat_ofNat_of_lt' (by omega)]
  · intro positive fits address method other holds again
    rw [← same, Layout.finished, Table.footprint_convert_place] at fits
    rw [← same] at holds again
    have room : layout.table.offset.toNat + layout.table.footprint pointerSize.toNat < 2 ^ 32 := by
      rw [show layout.table.offset.toNat = 0 from rfl, Nat.zero_add]
      exact fits
    have adjoining := Table.adjoining_convert (Table.adjoining_place pointerSize layout.table room)
    exact adjoining.holds_unique (UInt32.lt_iff_toNat_lt.mp positive) holds again

/-! The types of `sampleHierarchy` as they are built. -/

def sampleAnimal : TypeDef :=
  ⟨⟨0x02000001⟩, "Demo", "Animal", TypeAttributes.exported, none, none, [], [],
    [⟨0x06000001⟩, ⟨0x06000002⟩], []⟩

def sampleDog : TypeDef :=
  ⟨⟨0x02000002⟩, "Demo", "Dog", TypeAttributes.exported, some ⟨0x02000001⟩, none, [], [],
    [⟨0x06000003⟩], []⟩

def samplePuppy : TypeDef :=
  ⟨⟨0x02000003⟩, "Demo", "Puppy", TypeAttributes.exported, some ⟨0x02000002⟩, none, [], [],
    [⟨0x06000004⟩], []⟩

theorem lineage_samplePuppy : Program.Lineage sampleLinkage.program ⟨0x02000003⟩
    [samplePuppy, sampleDog, sampleAnimal] :=
  .derived (by decide +kernel) rfl
    (.derived (by decide +kernel) rfl (.root (by decide +kernel) rfl))

theorem compile_samplePuppy : exists animal dog puppy,
    (Registry.table sampleLinkage ⟨0x02000003⟩ {}).2.compile 8 = [animal, dog, puppy] ∧
      (animal.type, dog.type, puppy.type) =
        (⟨0x02000001⟩, ⟨0x02000002⟩, ⟨0x02000003⟩) ∧
      puppy.conversions = [("Demo.Puppy", 0), ("Demo.Dog", 24), ("Demo.Animal", 48)] ∧
      dog.conversions = [("Demo.Dog", 0), ("Demo.Animal", 24)] := by
  have computed : ((Registry.table sampleLinkage ⟨0x02000003⟩ {}).2.compile 8).map
      (fun table => (table.type, table.conversions)) =
        [(⟨0x02000001⟩, [("Demo.Animal", 0)]),
          (⟨0x02000002⟩, [("Demo.Dog", 0), ("Demo.Animal", 24)]),
          (⟨0x02000003⟩, [("Demo.Puppy", 0), ("Demo.Dog", 24), ("Demo.Animal", 48)])] := by
    decide +kernel
  rcases List.map_eq_cons_iff.mp computed with ⟨animal, rest, compiled, ofAnimal, others⟩
  rcases List.map_eq_cons_iff.mp others with ⟨dog, last, isRest, ofDog, another⟩
  rcases List.map_eq_cons_iff.mp another with ⟨puppy, none, isLast, ofPuppy, nothing⟩
  rw [List.map_eq_nil_iff.mp nothing] at isLast
  rw [isRest, isLast] at compiled
  rw [Prod.mk.injEq] at ofAnimal ofDog ofPuppy
  refine ⟨animal, dog, puppy, compiled, ?_, ofPuppy.2, ofDog.2⟩
  rw [ofAnimal.1, ofDog.1, ofPuppy.1]

/-- From a puppy to a dog and on to an animal is twice 24 bytes. -/
theorem samplePuppy_upcasts : exists animal dog puppy,
    (Registry.table sampleLinkage ⟨0x02000003⟩ {}).2.compile 8 = [animal, dog, puppy] ∧
      puppy.conversions = [("Demo.Puppy", 0), ("Demo.Dog", 24), ("Demo.Animal", 48)] ∧
      dog.conversions = [("Demo.Dog", 0), ("Demo.Animal", 24)] ∧
      exists toMiddle onward toTop : UInt32,
        Upcast sampleLinkage.program 8 [samplePuppy] puppy dog toMiddle ∧
        Upcast sampleLinkage.program 8 [sampleDog] dog animal onward ∧
        Upcast sampleLinkage.program 8 [samplePuppy, sampleDog] puppy animal toTop ∧
        toTop = toMiddle + onward ∧
        (puppy.chainExtent 8 < 2 ^ 32 -> toTop.toNat = toMiddle.toNat + onward.toNat) ∧
        ((0 : UInt32) < 8 -> puppy.footprint 8 < 2 ^ 32 -> forall address method other,
          puppy.Holds 8 address method -> puppy.Holds 8 address other -> method = other) := by
  rcases compile_samplePuppy with ⟨animal, dog, puppy, compiled, types, ofPuppy, ofDog⟩
  rcases Prod.mk.inj types with ⟨isAnimal, others⟩
  rcases Prod.mk.inj others with ⟨isDog, isPuppy⟩
  refine ⟨animal, dog, puppy, compiled, ofPuppy, ofDog, ?_⟩
  have lineage : Program.Lineage sampleLinkage.program puppy.type
      ([samplePuppy] ++ sampleDog :: [] ++ sampleAnimal :: []) := by
    rw [isPuppy]
    exact lineage_samplePuppy
  have among : forall table, table ∈ [animal, dog, puppy] ->
      table ∈ (Registry.table sampleLinkage ⟨0x02000003⟩ {}).2.compile 8 :=
    fun table member => compiled ▸ member
  exact compile_upcasts build_sampleHierarchy rfl (.table ⟨0x02000003⟩ .empty)
    (among puppy (by simp)) (among dog (by simp)) (among animal (by simp)) lineage isDog isAnimal
    (by decide +kernel)

end Registry
end Dispatch
end CilGraph
