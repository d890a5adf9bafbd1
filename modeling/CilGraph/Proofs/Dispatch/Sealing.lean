import CilGraph.Proofs.Dispatch.Implementations
import CilGraph.Proofs.Dispatch.Refusals
import CilGraph.Proofs.Program.Sealing

namespace CilGraph

/-!
# Overriding a sealed method

A method that overrides has to find a slot, and a final method has none of its
own.  So a type that overrides a final method is refused if that method is the
root of its slot: nothing else among the base types has a slot that descends
from it.

A final method that itself overrides an older one was put into the slots of that
one.  There nothing tells it from a method that is not final.  A type further
down that overrides it finds these slots and takes them over.
-/

/-- A method that has a slot on the types that show it. -/
def MethodDef.TakesSlot (method : MethodDef) : Prop :=
  method.isAbstract = true ∨ (method.isVirtual = true ∧ method.isFinal = false)

namespace Dispatch

/-! ## Slots that are taken -/

section Taking

variable {linkage : Linkage} {registry : Registry} {token : Token} {layout next final : Layout}
  {slot method : MethodDef}

theorem Layout.mem_members_addVirtual (member : slot ∈ (layout.addVirtual method).table.members) :
    slot ∈ layout.table.members ∨ slot = method := by
  change slot ∈ (layout.virtuals ++ [method]) ++ layout.abstracts at member
  change slot ∈ layout.virtuals ++ layout.abstracts ∨ slot = method
  simp only [List.mem_append, List.mem_singleton] at member ⊢
  tauto

theorem Layout.mem_members_addAbstract
    (member : slot ∈ (layout.addAbstract method).table.members) :
    slot ∈ layout.table.members ∨ slot = method := by
  change slot ∈ layout.virtuals ++ (layout.abstracts ++ [method]) at member
  change slot ∈ layout.virtuals ++ layout.abstracts ∨ slot = method
  simp only [List.mem_append, List.mem_singleton] at member ⊢
  tauto

/-- Sorting a method gives it a slot only if it takes one. -/
theorem Layout.mem_members_of_addMethod
    (added : Layout.addMethod linkage layout method = .ok next)
    (member : slot ∈ next.table.members) :
    slot ∈ layout.table.members ∨ (slot = method ∧ method.TakesSlot) := by
  rcases Result.bind_eq_ok.mp added with ⟨root, _, sorted⟩
  dsimp only at sorted
  split at sorted
  · rename_i isAbstract
    cases sorted
    exact (Layout.mem_members_addAbstract member).imp_right (fun same => ⟨same, Or.inl isAbstract⟩)
  · split at sorted
    · rename_i overrides
      simp only [Bool.and_eq_true] at overrides
      rcases Result.bind_eq_ok.mp sorted with ⟨changed, replaced, assembled⟩
      rcases Result.bind_eq_ok.mp replaced with ⟨base, _, rebased⟩
      cases rebased
      cases isFinal : method.isFinal with
      | true =>
          rw [isFinal] at assembled
          cases assembled
          exact Or.inl member
      | false =>
          rw [isFinal] at assembled
          cases assembled
          exact (Layout.mem_members_addVirtual member).imp_right
            (fun same => ⟨same, Or.inr ⟨overrides.1.2, isFinal⟩⟩)
    · split at sorted
      · rename_i isOpen
        simp only [Bool.and_eq_true, Bool.not_eq_true'] at isOpen
        cases sorted
        exact (Layout.mem_members_addVirtual member).imp_right
          (fun same => ⟨same, Or.inr isOpen⟩)
      · split at sorted <;> cases sorted <;> exact Or.inl member

theorem Layout.takesSlot_of_foldlM {methods : List MethodDef}
    (folded : methods.foldlM (Layout.addMethod linkage) layout = .ok final)
    (given : forall slot, slot ∈ layout.table.members -> slot.TakesSlot)
    (member : slot ∈ final.table.members) : slot.TakesSlot := by
  induction methods generalizing layout with
  | nil =>
      cases folded
      exact given slot member
  | cons method rest inductionHypothesis =>
      rw [List.foldlM_cons] at folded
      rcases Result.bind_eq_ok.mp folded with ⟨next, added, continued⟩
      refine inductionHypothesis continued ?_
      intro other inNext
      rcases Layout.mem_members_of_addMethod added inNext with earlier | ⟨same, takes⟩
      · exact given other earlier
      · rw [same]
        exact takes

theorem Registry.Made.takesSlot (made : Registry.Made linkage registry token layout)
    (member : slot ∈ layout.table.members) : slot.TakesSlot := by
  rcases made with ⟨type, resolved, base, interfaces, tables, origin⟩
  rcases Result.bind_eq_ok.mp origin.sorted with ⟨methods, _, folded⟩
  exact Layout.takesSlot_of_foldlM folded (fun _ impossible => absurd impossible List.not_mem_nil)
    member

end Taking

/-! ## Slots that are found -/

section Finding

variable {linkage : Linkage} {registry : Registry} {token : Token} {own : TypeDef}
  {ancestors : List TypeDef} {layout : Layout} {method root : MethodDef}

theorem exists_fits_of_slotReplaced {target : Token} {slots after : List MethodDef}
    (change : Table.SlotReplaced linkage method target slots after true) :
    exists slot, slot ∈ slots ∧ Table.Fits linkage method target slot := by
  cases change with
  | replaced first fits => exact ⟨_, List.mem_append_right _ List.mem_cons_self, fits⟩

/-- Slots are replaced only if some level has one that the method fits. -/
theorem exists_fits_of_replaceSlots {table after : Table} {target : Token}
    (succeeded : Table.replaceSlots linkage method target table = .ok (after, true)) :
    exists level slot, level ∈ table.levels ∧ slot ∈ level.members ∧
      Table.Fits linkage method target slot := by
  induction table using Table.baseInduction generalizing after with
  | step table inductionHypothesis =>
      rcases Table.replaceSlots_eq_ok succeeded with
        ⟨members, here, base, below, change, _, flags, ofBase⟩
      rw [Table.levels_eq]
      cases here with
      | true =>
          rcases exists_fits_of_slotReplaced change with ⟨slot, member, fits⟩
          exact ⟨_, slot, List.mem_cons_self, member, fits⟩
      | false =>
          rw [Bool.false_or] at flags
          rw [← flags] at ofBase
          rcases ofBase with ⟨_, _, impossible⟩ | ⟨_, replacedBase⟩
          · cases impossible
          · rcases Table.replaceBase_eq_ok replacedBase with
              ⟨_, _, impossible⟩ | ⟨inner, changed, isBase, _, ofInner⟩
            · cases impossible
            · rcases inductionHypothesis inner isBase ofInner with
                ⟨level, slot, isLevel, member, fits⟩
              refine ⟨level, slot, List.mem_cons_of_mem _ ?_, member, fits⟩
              rw [isBase]
              exact isLevel

/-- A slot of a level is that of a type of the lineage. -/
theorem LevelsMatch.exists_slotAt {related : List TypeDef -> MethodDef -> MethodDef -> Prop}
    {chain below rest : List TypeDef} {levels : List Level}
    (levelsMatch : LevelsMatch registry related below rest levels) (whole : chain = below ++ rest)
    {level : Level} {slot : MethodDef} (isLevel : level ∈ levels) (member : slot ∈ level.members) :
    exists passed declared, SlotAt registry chain passed declared ∧
      related passed declared slot := by
  induction levelsMatch with
  | nil => cases isLevel
  | @cons below rest type head levels layout _ _ found slots above inductionHypothesis =>
      rcases List.mem_cons.mp isLevel with same | later
      · rw [same] at member
        rcases Result.exists_of_mem_right slots member with ⟨declared, among, given⟩
        exact ⟨below, declared, ⟨type, rest, layout, whole, found, among⟩, given⟩
      · refine inductionHypothesis ?_ later
        rw [whole, List.append_assoc, List.singleton_append]

theorem LevelsMatch.exists_level {related : List TypeDef -> MethodDef -> MethodDef -> Prop}
    {below rest : List TypeDef} {levels : List Level}
    (levelsMatch : LevelsMatch registry related below rest levels) {depth : Nat} {type : TypeDef}
    (isType : rest[depth]? = some type) : exists level, levels[depth]? = some level := by
  have types := congrArg (fun types => types[depth]?) levelsMatch.types
  simp only [List.getElem?_map, isType, Option.map_some] at types
  rcases Option.map_eq_some_iff.mp types with ⟨level, isLevel, _⟩
  exact ⟨level, isLevel⟩

theorem LevelsMatch.exists_type {related : List TypeDef -> MethodDef -> MethodDef -> Prop}
    {below rest : List TypeDef} {levels : List Level}
    (levelsMatch : LevelsMatch registry related below rest levels) {depth : Nat} {level : Level}
    (isLevel : levels[depth]? = some level) : exists type, rest[depth]? = some type := by
  have types := congrArg (fun types => types[depth]?) levelsMatch.types
  simp only [List.getElem?_map, isLevel, Option.map_some] at types
  rcases Option.map_eq_some_iff.mp types.symm with ⟨type, isType, _⟩
  exact ⟨type, isType⟩

/-- A slot of a type of the lineage is found in its level. -/
theorem LevelsMatch.exists_slot {related : List TypeDef -> MethodDef -> MethodDef -> Prop}
    {chain passed : List TypeDef} {levels : List Level} {declared : MethodDef}
    (levelsMatch : LevelsMatch registry related [] chain levels)
    (place : SlotAt registry chain passed declared) :
    exists level slot, levels[passed.length]? = some level ∧ slot ∈ level.members ∧
      related passed declared slot := by
  rcases place with ⟨type, ahead, layout, split, found, among⟩
  have isType : chain[passed.length]? = some type := by
    rw [split, List.getElem?_append_right (Nat.le_refl _), Nat.sub_self]
    rfl
  rcases levelsMatch.exists_level isType with ⟨level, isLevel⟩
  rcases levelsMatch.slots_at isType isLevel with ⟨again, foundAgain, slots⟩
  rw [found] at foundAgain
  cases foundAgain
  rcases Result.exists_of_mem_left slots among with ⟨slot, member, given⟩
  rw [List.nil_append, split, List.take_left] at given
  exact ⟨level, slot, isLevel, member, given⟩

/-- The base table of a layout is that of the lineage above its type. -/
theorem compatible_base (wellFormed : linkage.program.WellFormed)
    (unreplaced : linkage.substitutions = []) (grown : Registry.Grows linkage {} registry)
    (lineage : Program.Lineage linkage.program token (own :: ancestors))
    (plain : forall type, type ∈ ancestors -> type.isArray = false) {base : Option Table}
    (onBase : Option.Rel (Registry.Tabled linkage registry) own.base base) :
    Compatible linkage.program registry ancestors (Table.levelsOfBase base) := by
  cases lineage with
  | root declared noBase =>
      rw [noBase] at onBase
      cases onBase
      exact .nil
  | derived declared hasBase above =>
      rw [hasBase] at onBase
      cases onBase with
      | some tabled =>
          rcases tabled with ⟨canonical, ofParent, innermost, isLayout, same⟩
          rw [innermost_of_lineage above plain] at innermost
          cases innermost
          rw [same]
          exact compatible_of_layout wellFormed unreplaced grown above plain isLayout

/-- A method of a registered type that is not its own root overrides a slot of a base
type. -/
theorem Assembled.exists_slotAt (wellFormed : linkage.program.WellFormed)
    (unreplaced : linkage.substitutions = []) (grown : Registry.Grows linkage {} registry)
    (lineage : Program.Lineage linkage.program token (own :: ancestors))
    (plain : forall type, type ∈ ancestors -> type.isArray = false) (isDerived : ancestors ≠ [])
    {base : Option Table} {tables : List Table} {methods ownMethods : List MethodDef}
    (assembled : Assembled linkage registry own ancestors layout base tables methods ownMethods)
    (member : method ∈ methods) (isOwn : method.declaring = own.token)
    (isVirtual : method.isVirtual = true) (isConcrete : method.isAbstract = false)
    (follows : linkage.program.rootDeclaration method = .ok root)
    (differs : root.token ≠ method.token) :
    exists passed declared, SlotAt registry ancestors passed declared ∧
      declared.sameSignature method = true ∧
      linkage.program.RootedAt declared root.declaring := by
  have below := compatible_base wellFormed unreplaced grown lineage plain assembled.onBase
  rcases List.append_of_mem member with ⟨front, back, split⟩
  have folded := assembled.folded
  rw [split, List.foldlM_append] at folded
  rcases Result.bind_eq_ok.mp folded with ⟨current, sorted, continued⟩
  rw [List.foldlM_cons] at continued
  rcases Result.bind_eq_ok.mp continued with ⟨next, added, _⟩
  have included : front ⊆ methods := by
    rw [split]
    exact List.subset_append_left _ _
  rcases levelsMatch_of_foldlM wellFormed unreplaced grown lineage assembled.visible
    assembled.listed included rfl rfl below sorted with ⟨_, isResolved, before⟩
  cases Layout.addMethod_eq_ok added with
  | abstract isAbstract =>
      rw [isConcrete] at isAbstract
      cases isAbstract
  | apart declares _ overridesNothing _ =>
      rw [follows] at declares
      cases declares
      exact absurd ⟨isOwn.trans isResolved.symm, isVirtual, differs⟩ overridesNothing
  | overriding declares _ _ _ _ replaced =>
      cases isBase : current.base with
      | none =>
          rw [isBase] at before
          cases before
          exact absurd rfl isDerived
      | some table =>
          rw [isBase] at replaced before
          rcases Result.map_eq_ok.mp replaced with ⟨changed, overrides, _⟩
          rcases Table.override_eq_ok overrides with ⟨target, ofMethod, ofTable⟩
          rw [(rootType_iff unreplaced).mpr ⟨root, follows, rfl⟩] at ofMethod
          cases ofMethod
          rcases exists_fits_of_replaceSlots ofTable with ⟨level, slot, isLevel, inLevel, fits⟩
          rcases before.exists_slotAt (List.nil_append ancestors).symm isLevel inLevel with
            ⟨passed, declared, place, patched⟩
          refine ⟨passed, declared, place, ?_, ?_⟩
          · exact MethodDef.sameSignature_trans
              (MethodDef.sameSignature_symm patched.signature) fits.2
          · exact patched.rootedAt_iff.mp ((rootType_iff unreplaced).mp fits.1)

/-- A slot of an ancestor is an instance method that some ancestor declares. -/
theorem SlotAt.exists_level (wellFormed : linkage.program.WellFormed)
    (unreplaced : linkage.substitutions = []) (grown : Registry.Grows linkage {} registry)
    (lineage : Program.Lineage linkage.program token (own :: ancestors))
    {passed : List TypeDef} {declared : MethodDef}
    (place : SlotAt registry ancestors passed declared) :
    exists level inLevel, level ∈ ancestors ∧
      linkage.program.declaredMethods level = .ok inLevel ∧ declared ∈ inLevel ∧
      declared.isStatic = false ∧ declared.TakesSlot := by
  rcases place with ⟨type, ahead, layout, split, found, among⟩
  have whole : own :: ancestors = (own :: passed) ++ type :: ahead := by
    rw [split, List.cons_append]
  have upwards := lineage.suffix whole
  have made := grown.made found
  rcases assembled_of_made wellFormed unreplaced upwards made with
    ⟨base, tables, methods, ownMethods, assembled⟩
  rcases Layout.members_of_addMethods rfl assembled.visible.distinct assembled.folded with
    ⟨_, included, _⟩
  rcases Program.exists_offers_of_mem upwards assembled.listed (included declared among) with
    ⟨level, isLevel, offers⟩
  rcases offers.listed with ⟨inLevel, listed, member⟩
  refine ⟨level, inLevel, ?_, listed, member, offers.isInstance, made.takesSlot among⟩
  rw [split]
  exact List.mem_append_right _ isLevel

end Finding

/-! ## A sealed root -/

section Sealed

variable {linkage : Linkage} {registry : Registry} {own : TypeDef} {ancestors : List TypeDef}
  {method sealed : MethodDef} {layout : Layout}

/-- A type that overrides a sealed root is never registered. -/
theorem layout?_eq_none_of_sealed (wellFormed : linkage.program.WellFormed)
    (unreplaced : linkage.substitutions = []) (grown : Registry.Grows linkage {} registry)
    (plain : forall type, type ∈ ancestors -> type.isArray = false)
    (overrides : linkage.program.OverridesSealed own ancestors method sealed)
    (isRoot : linkage.program.rootDeclaration sealed = .ok sealed) :
    registry.layout? own.token = none := by
  cases found : registry.layout? own.token with
  | none => rfl
  | some layout =>
      have lineage := overrides.lineage
      rcases assembled_of_made wellFormed unreplaced lineage (grown.made found) with
        ⟨base, tables, methods, ownMethods, assembled⟩
      rcases overrides.first with ⟨declared, listed, first⟩
      rw [assembled.visible.listed] at listed
      cases listed
      rcases (assembled.visible.ownMethods method).mpr first with ⟨member, isOwn⟩
      have follows : linkage.program.rootDeclaration method = .ok sealed :=
        (overrides.sameRoot wellFormed).trans isRoot
      rcases assembled.exists_slotAt wellFormed unreplaced grown lineage plain
        (overrides.isDerived wellFormed) member isOwn overrides.isVirtual overrides.isConcrete
        follows (overrides.token_ne wellFormed) with
        ⟨passed, slot, ofSlot, signature, root, slotRoot, sameType⟩
      rcases ofSlot.exists_level wellFormed unreplaced grown lineage with
        ⟨level, inLevel, isLevel, listed, among, isInstance, takes⟩
      -- The slot that was found could only be that of the sealed method, which takes none.
      rw [overrides.eq_of_rooted wellFormed isLevel listed among isInstance signature slotRoot
        sameType] at takes
      rcases takes with isAbstract | ⟨_, isOpen⟩
      · rw [overrides.hasBody] at isAbstract
        cases isAbstract
      · rw [overrides.isFinal] at isOpen
        cases isOpen

end Sealed

/-! ## A sealed override -/

section Replaced

variable {linkage : Linkage} {registry : Registry} {own : TypeDef}
  {ancestors passed : List TypeDef} {method sealed declared : MethodDef} {layout : Layout}

/-- Whatever holds a sealed method is overridden by the method that overrides it. -/
theorem overrides_of_sealed (wellFormed : linkage.program.WellFormed)
    (connected : linkage.program.Connected) (lists : linkage.program.ListsMethods)
    (overrides : linkage.program.OverridesSealed own ancestors method sealed)
    (holds : linkage.program.Dispatched declared passed sealed) :
    linkage.program.Overrides declared own method := by
  rcases overrides.exists_sealedAt wellFormed with ⟨_, _, _, _, _, stands⟩
  have signature : method.sameSignature declared = true :=
    MethodDef.sameSignature_trans (MethodDef.sameSignature_symm stands.signature) holds.signature
  rcases Program.exists_rootDeclaration wellFormed connected lists overrides.known with
    ⟨root, follows⟩
  have sealedFollows := (overrides.sameRoot wellFormed).symm.trans follows
  rcases holds.rootedAt_iff.mp ⟨root, sealedFollows, rfl⟩ with ⟨other, ofDeclared, same⟩
  rcases overrides.first with ⟨inOwn, listed, first⟩
  rw [Program.firstInstance?_congr signature] at first
  exact ⟨⟨inOwn, listed, first⟩, overrides.isVirtual, overrides.isConcrete, root, other, follows,
    ofDeclared, same.symm⟩

theorem exists_other_root (wellFormed : linkage.program.WellFormed)
    (connected : linkage.program.Connected) (lists : linkage.program.ListsMethods)
    (known : linkage.program.Known (.method method))
    (notRoot : linkage.program.rootDeclaration method ≠ .ok method) :
    exists root next, linkage.program.rootDeclaration method = .ok root ∧
      root.token ≠ method.token ∧ linkage.program.overridden? method = .ok (some next) := by
  rcases Program.exists_rootDeclaration wellFormed connected lists known with ⟨root, follows⟩
  have isOther : root ≠ method := by
    intro same
    rw [same] at follows
    exact notRoot follows
  have differs : root.token ≠ method.token := fun sameToken => isOther (Callable.method.inj
    ((Program.known_of_rootDeclarationWith known follows).eq_of_token known sameToken))
  rcases connected.declaring _ known.mem_callables with ⟨type, declared⟩
  have rooted := Program.rooted_rootDeclaration wellFormed declared
  rw [follows] at rooted
  rcases Program.exists_overridden_of_root rooted isOther with ⟨next, searched⟩
  exact ⟨root, next, follows, differs, searched⟩

/-- A sealed method that is not the root of its slot has taken over a slot. -/
theorem exists_slotAt_of_sealed (wellFormed : linkage.program.WellFormed)
    (connected : linkage.program.Connected) (lists : linkage.program.ListsMethods)
    (unreplaced : linkage.substitutions = []) (grown : Registry.Grows linkage {} registry)
    (plain : forall type, type ∈ ancestors -> type.isArray = false)
    (overrides : linkage.program.OverridesSealed own ancestors method sealed)
    (notRoot : linkage.program.rootDeclaration sealed ≠ .ok sealed)
    {between above : List TypeDef} {place : TypeDef} {inPlace : List MethodDef}
    (split : ancestors = between ++ place :: above)
    (stands : linkage.program.SealedAt method sealed between place inPlace)
    (found : registry.layout? place.token = some layout) :
    exists passed declared, SlotAt registry above passed declared ∧
      linkage.program.Overrides declared place sealed := by
  have isAncestor : place ∈ ancestors := by
    rw [split]
    exact List.mem_append_right _ List.mem_cons_self
  have whole : own :: ancestors = (own :: between) ++ place :: above := by
    rw [split, List.cons_append]
  have lineage := overrides.lineage.suffix whole
  have known := Program.known_of_mem_declaredMethods stands.listed stands.member
  rcases exists_other_root wellFormed connected lists known notRoot with
    ⟨root, next, follows, differs, searched⟩
  have isDerived : above ≠ [] := by
    rw [← stands.declares] at lineage
    rcases Program.declaring_of_overridden? wellFormed lineage searched with ⟨level, isAbove, _⟩
    exact List.ne_nil_of_mem isAbove
  rcases assembled_of_made wellFormed unreplaced lineage (grown.made found) with
    ⟨base, tables, methods, ownMethods, assembled⟩
  have visible := assembled.visible
  have listed := visible.listed
  rw [stands.listed] at listed
  cases listed
  rcases (visible.ownMethods sealed).mpr (overrides.firstInstance isAncestor stands) with
    ⟨member, isOwn⟩
  have plainAbove : forall type, type ∈ above -> type.isArray = false := by
    intro type isAbove
    refine plain type ?_
    rw [split]
    exact List.mem_append_right _ (List.mem_cons_of_mem _ isAbove)
  rcases assembled.exists_slotAt wellFormed unreplaced grown lineage plainAbove isDerived member
    isOwn stands.isVirtual overrides.hasBody follows differs with
    ⟨passed, declared, ofSlot, signature, rooted⟩
  exact ⟨passed, declared, ofSlot, overrides_of_rootedAt visible member isOwn stands.isVirtual
    overrides.hasBody (MethodDef.sameSignature_symm signature) follows rooted⟩

/-- A sealed method that is not the root of its slot stands in the table of the base
type. -/
theorem exists_sealed_slot (wellFormed : linkage.program.WellFormed)
    (connected : linkage.program.Connected) (lists : linkage.program.ListsMethods)
    (unreplaced : linkage.substitutions = []) (grown : Registry.Grows linkage {} registry)
    (plain : forall type, type ∈ ancestors -> type.isArray = false)
    (overrides : linkage.program.OverridesSealed own ancestors method sealed)
    (notRoot : linkage.program.rootDeclaration sealed ≠ .ok sealed) {levels : List Level}
    (ofBase : Compatible linkage.program registry ancestors levels) :
    exists (depth : Nat) (level : Level), levels[depth]? = some level ∧ sealed ∈ level.members := by
  rcases overrides.exists_sealedAt wellFormed with ⟨between, place, above, inPlace, split, stands⟩
  have isPlace : ancestors[between.length]? = some place := by
    rw [split, List.getElem?_append_right (Nat.le_refl _), Nat.sub_self]
    rfl
  rcases ofBase.exists_level isPlace with ⟨placeLevel, isPlaceLevel⟩
  rcases ofBase.slots_at isPlace isPlaceLevel with ⟨layout, found, _⟩
  rcases exists_slotAt_of_sealed wellFormed connected lists unreplaced grown plain overrides notRoot
    split stands found with
    ⟨passed, declared, ⟨type, ahead, older, within, isOlder, among⟩, replaces⟩
  have whole : ancestors = (between ++ place :: passed) ++ type :: ahead := by
    rw [split, within, List.append_assoc, List.cons_append]
  rcases ofBase.exists_slot ⟨type, ahead, older, whole, isOlder, among⟩ with
    ⟨level, slot, isLevel, member, dispatched⟩
  -- Its own type put the sealed method there, and no type in between has put in another.
  have untouched : forall lower, lower ∈ between -> forall other,
      ¬ linkage.program.Overrides declared lower other := by
    intro lower isLower other rival
    rcases stands.below lower isLower with ⟨inLower, listed, none⟩
    rcases rival.first with ⟨listedThere, again, first⟩
    rw [listed] at again
    cases again
    exact none other (List.mem_of_find?_eq_some first) rival.isVirtual
      (MethodDef.sameSignature_trans rival.signature (MethodDef.sameSignature_trans
        (MethodDef.sameSignature_symm replaces.signature) stands.signature))
  have holds : linkage.program.Dispatched declared (between ++ place :: passed) sealed :=
    Program.Dispatched.below (Or.inl replaces) untouched
  rw [dispatched.unique holds] at member
  exact ⟨_, level, isLevel, member⟩

/-- Every slot that holds a sealed method below the base type is taken over. -/
theorem replaced_of_layout (wellFormed : linkage.program.WellFormed)
    (connected : linkage.program.Connected) (lists : linkage.program.ListsMethods)
    (overrides : linkage.program.OverridesSealed own ancestors method sealed)
    {levels ownLevels : List Level} (ofBase : Compatible linkage.program registry ancestors levels)
    (ofOwn : Compatible linkage.program registry (own :: ancestors) ownLevels) {depth : Nat}
    {level ownLevel : Level} (isLevel : levels[depth]? = some level)
    (isOwnLevel : ownLevels[depth + 1]? = some ownLevel) :
    List.Forall₂ (fun before after => before = sealed -> after = method) level.members
      ownLevel.members := by
  rcases ofBase.exists_type isLevel with ⟨type, isType⟩
  rcases ofBase.slots_at isType isLevel with ⟨layout, found, inLevel⟩
  have isOwnType : (own :: ancestors)[depth + 1]? = some type := isType
  rcases ofOwn.slots_at isOwnType isOwnLevel with ⟨again, foundAgain, inOwnLevel⟩
  rw [found] at foundAgain
  cases foundAgain
  refine forall₂_of_shared ?_ inLevel inOwnLevel
  intro declared before after dispatched dispatchedBelow isSealed
  rw [isSealed] at dispatched
  have replaces := overrides_of_sealed wellFormed connected lists overrides dispatched
  rw [List.nil_append, List.take_succ_cons] at dispatchedBelow
  rcases dispatchedBelow with same | ⟨none, _⟩
  · exact same.unique replaces
  · exact absurd replaces (none method)

end Replaced

namespace Registry

/-- The base type of a registered type is registered, and its table is that of the
lineage above. -/
theorem exists_parent {linkage : Linkage} {registry : Registry} {token : Token} {own : TypeDef}
    {ancestors : List TypeDef} {layout : Layout} (wellFormed : linkage.program.WellFormed)
    (unreplaced : linkage.substitutions = []) (grown : Grows linkage {} registry)
    (lineage : Program.Lineage linkage.program token (own :: ancestors))
    (plain : forall type, type ∈ ancestors -> type.isArray = false) (isDerived : ancestors ≠ [])
    (found : registry.layout? token = some layout) :
    exists parent inherited, own.base = some parent ∧
      Registry.table linkage parent registry = (.ok inherited, registry) ∧
      Compatible linkage.program registry ancestors inherited.levels := by
  rcases assembled_of_made wellFormed unreplaced lineage (grown.made found) with
    ⟨base, tables, methods, ownMethods, assembled⟩
  have onBase := assembled.onBase
  have below := compatible_base wellFormed unreplaced grown lineage plain onBase
  cases lineage with
  | root _ _ => exact absurd rfl isDerived
  | @derived _ parent _ _ _ hasBase above =>
      rw [hasBase] at onBase
      cases onBase with
      | @some _ inherited tabled =>
          rcases tabled with ⟨canonical, ofParent, innermost, isLayout, same⟩
          have innermostParent := innermost_of_lineage above plain
          rw [innermostParent] at innermost
          cases innermost
          refine ⟨parent, inherited, hasBase, ?_, below⟩
          rw [same]
          exact table_of_layout innermostParent isLayout

/-- A type overrides a sealed method.  If this is the root of its slot, the type is
refused, and if nothing else stands in the way, for the reason that one of its methods
overrides nothing.  If the sealed method overrides an older one itself, it stands in the
table of the base type, and the type takes over all slots in which it stands. -/
theorem refused_or_replaced {steps : List DraftStep} {linkage : Linkage} {registry : Registry}
    {own : TypeDef} {ancestors : List TypeDef} {method sealed : MethodDef}
    (built : (Draft.ofSteps steps).build = .ok linkage.program)
    (unreplaced : linkage.substitutions = []) (reachable : Reachable linkage registry)
    (plain : forall type, type ∈ own :: ancestors -> type.isArray = false)
    (overrides : linkage.program.OverridesSealed own ancestors method sealed) :
    (linkage.program.rootDeclaration sealed = .ok sealed ->
      (exists error, (add linkage own.token registry).1 = .error error) ∧
      own.token ∉ (add linkage own.token registry).2.types ∧
      (Obtainable linkage registry own ->
        exists inOwn failing, linkage.program.declaredMethods own = .ok inOwn ∧
          failing ∈ inOwn ∧ failing.isVirtual = true ∧
          (add linkage own.token registry).1 =
            .error (.unresolvedOverride own.fullName failing.name))) ∧
    (linkage.program.rootDeclaration sealed ≠ .ok sealed ->
      forall table after, Registry.table linkage own.token registry = (.ok table, after) ->
        exists parent inherited, own.base = some parent ∧
          Registry.table linkage parent after = (.ok inherited, after) ∧
          (exists (depth : Nat) (level : Level), inherited.levels[depth]? = some level ∧
            sealed ∈ level.members) ∧
          forall (depth : Nat) (level ownLevel : Level), inherited.levels[depth]? = some level ->
            table.levels[depth + 1]? = some ownLevel ->
              List.Forall₂ (fun before after => before = sealed -> after = method)
                level.members ownLevel.members) := by
  have wellFormed := Draft.wellFormed_of_build (Draft.listsOwn_ofSteps steps) built
  have connected := Draft.connected_of_build (Draft.listsFields_ofSteps steps) built
  have lists := Program.listsMethods_of_build built
  have grounded := grounded_of_unreplaced wellFormed connected unreplaced
  rcases List.forall_mem_cons.mp plain with ⟨notArray, plainAbove⟩
  have declared := overrides.lineage.typeDef_of_mem List.mem_cons_self
  have innermost := innermost_of_not_isArray declared notArray
  constructor
  · intro isRoot
    have absent : forall later, Grows linkage {} later -> later.layout? own.token = none :=
      fun later grown => layout?_eq_none_of_sealed wellFormed unreplaced grown plainAbove overrides
        isRoot
    have absentThen := absent _ (reachable.grows.trans (grows_add linkage own.token registry))
    exact ⟨exists_error_of_absent innermost absentThen, layout?_eq_none_iff.mp absentThen,
      fun obtainable => add_of_obtainable grounded reachable.grows declared absent lists
        unreplaced notArray obtainable⟩
  · intro notRoot table after obtained
    have outcome := ensures_table linkage own.token registry trivial
    rw [obtained] at outcome
    rcases outcome with ⟨growsLater, onSuccess⟩
    rcases onSuccess table rfl with ⟨canonical, layout, isCanonical, found, isTable⟩
    rw [innermost] at isCanonical
    cases isCanonical
    have grown := reachable.grows.trans growsLater
    have ofOwn := compatible_of_layout wellFormed unreplaced grown overrides.lineage plain found
    rcases exists_parent wellFormed unreplaced grown overrides.lineage plainAbove
      (overrides.isDerived wellFormed) found with ⟨parent, inherited, isBase, isInherited, ofParent⟩
    rw [isTable]
    exact ⟨parent, inherited, isBase, isInherited,
      exists_sealed_slot wellFormed connected lists unreplaced grown plainAbove overrides notRoot
        ofParent,
      fun _ _ _ isLevel isOwnLevel => replaced_of_layout wellFormed connected lists overrides
        ofParent ofOwn isLevel isOwnLevel⟩

/-- A gate opens in its own way and forbids others to do so.  A lock does it all the
same.  A safe does so too, where nothing older than the vault opens. -/
def sampleDoors : List DraftStep := [
  .type none "Demo" "Door" TypeAttributes.exported none,
  .method none ⟨0x02000001⟩ "Open" ⟨6, 0x0040, 0x0100⟩ none [] (some ⟨8, true, [0x2A]⟩),
  .type none "Demo" "Gate" TypeAttributes.exported (some ⟨0x02000001⟩),
  .method none ⟨0x02000002⟩ "Open" ⟨6, 0x0060, 0⟩ none [] (some ⟨8, true, [0x2A]⟩),
  .type none "Demo" "Lock" TypeAttributes.exported (some ⟨0x02000002⟩),
  .method none ⟨0x02000003⟩ "Open" ⟨6, 0x0040, 0⟩ none [] (some ⟨8, true, [0x2A]⟩),
  .type none "Demo" "Vault" TypeAttributes.exported none,
  .method none ⟨0x02000004⟩ "Open" ⟨6, 0x0060, 0x0100⟩ none [] (some ⟨8, true, [0x2A]⟩),
  .type none "Demo" "Safe" TypeAttributes.exported (some ⟨0x02000004⟩),
  .method none ⟨0x02000005⟩ "Open" ⟨6, 0x0040, 0⟩ none [] (some ⟨8, true, [0x2A]⟩)]

def sampleDoorsProgram : Program :=
  (Draft.ofSteps sampleDoors).build.toOption.getD ⟨[], [], [], [], []⟩

theorem build_sampleDoors : (Draft.ofSteps sampleDoors).build = .ok sampleDoorsProgram :=
  Result.eq_ok_getD (by decide +kernel) _

def sampleDoorsLinkage : Linkage :=
  ⟨sampleDoorsProgram, [], []⟩

/-- A type with its way to open. -/
def sampleOpening (type method : Token) (name : String) (base : Option Token) : TypeDef :=
  ⟨type, "Demo", name, TypeAttributes.exported, base, none, [], [], [method], []⟩

def sampleOpen (type method : Token) (attributes : MethodAttributes) : MethodDef :=
  ⟨method, "Open", type, attributes, none, [], some ⟨8, true, [0x2A]⟩⟩

def sampleDoor : TypeDef := sampleOpening ⟨0x02000001⟩ ⟨0x06000001⟩ "Door" none

def sampleGate : TypeDef := sampleOpening ⟨0x02000002⟩ ⟨0x06000002⟩ "Gate" (some ⟨0x02000001⟩)

def sampleLock : TypeDef := sampleOpening ⟨0x02000003⟩ ⟨0x06000003⟩ "Lock" (some ⟨0x02000002⟩)

def sampleVault : TypeDef := sampleOpening ⟨0x02000004⟩ ⟨0x06000004⟩ "Vault" none

def sampleSafe : TypeDef := sampleOpening ⟨0x02000005⟩ ⟨0x06000005⟩ "Safe" (some ⟨0x02000004⟩)

def sampleGateOpen : MethodDef := sampleOpen ⟨0x02000002⟩ ⟨0x06000002⟩ ⟨6, 0x0060, 0⟩

def sampleLockOpen : MethodDef := sampleOpen ⟨0x02000003⟩ ⟨0x06000003⟩ ⟨6, 0x0040, 0⟩

def sampleVaultOpen : MethodDef := sampleOpen ⟨0x02000004⟩ ⟨0x06000004⟩ ⟨6, 0x0060, 0x0100⟩

def sampleSafeOpen : MethodDef := sampleOpen ⟨0x02000005⟩ ⟨0x06000005⟩ ⟨6, 0x0040, 0⟩

theorem sampleLock_overrides :
    sampleDoorsProgram.OverridesSealed sampleLock [sampleGate, sampleDoor] sampleLockOpen
      sampleGateOpen where
  lineage := .derived (by decide +kernel) rfl (.derived (by decide +kernel) rfl
    (.root (by decide +kernel) rfl))
  first := ⟨[sampleLockOpen], by decide +kernel, by decide +kernel⟩
  isVirtual := by decide
  isConcrete := by decide
  continues := by decide
  nearest := by decide +kernel
  isFinal := by decide
  hasBody := by decide
  isInstance := by decide
  alone := by
    intro level declared other isAncestor declares listed among _ _
    rcases List.mem_cons.mp isAncestor with isGate | isDoor
    · have only : sampleDoorsProgram.declaredMethods sampleGate = .ok [sampleGateOpen] := by
        decide +kernel
      rw [isGate, only] at listed
      cases listed
      exact List.mem_singleton.mp among
    · rw [List.mem_singleton.mp isDoor] at declares
      exact absurd declares (by decide)

theorem sampleSafe_overrides :
    sampleDoorsProgram.OverridesSealed sampleSafe [sampleVault] sampleSafeOpen
      sampleVaultOpen where
  lineage := .derived (by decide +kernel) rfl (.root (by decide +kernel) rfl)
  first := ⟨[sampleSafeOpen], by decide +kernel, by decide +kernel⟩
  isVirtual := by decide
  isConcrete := by decide
  continues := by decide
  nearest := by decide +kernel
  isFinal := by decide
  hasBody := by decide
  isInstance := by decide
  alone := by
    intro level declared other isAncestor _ listed among _ _
    have only : sampleDoorsProgram.declaredMethods sampleVault = .ok [sampleVaultOpen] := by
      decide +kernel
    rw [List.mem_singleton.mp isAncestor, only] at listed
    cases listed
    exact List.mem_singleton.mp among

theorem obtainable_sampleSafe : Obtainable sampleDoorsLinkage {} sampleSafe := by
  have found : sampleDoorsLinkage.program.typeDef sampleSafe.token = .ok sampleSafe := by
    decide +kernel
  have noInterfaces : sampleDoorsLinkage.program.interfaces sampleSafe.token = .ok [] := by
    decide +kernel
  constructor
  · intro other needs
    cases needs with
    | base declared isBase =>
        rw [found] at declared
        cases declared
        cases isBase
        exact ⟨_, Result.eq_ok_getD (by decide +kernel)
          (Table.unplaced sampleVault sampleVault.token [] none [])⟩
    | interface resolves listed among =>
        rw [resolveType_of_unreplaced rfl, found] at resolves
        cases resolves
        rw [noInterfaces] at listed
        cases listed
        cases among
  · intro _ interfaces interface listed among
    rw [noInterfaces] at listed
    cases listed
    cases among

/-- The safe is refused, and the lock opens wherever the gate did. -/
theorem sampleSafe_refused_sampleLock_replaces :
    (add sampleDoorsLinkage sampleSafe.token {}).1 =
      .error (.unresolvedOverride "Demo.Safe" "Open") ∧
    exists table after inherited,
      Registry.table sampleDoorsLinkage sampleLock.token {} = (.ok table, after) ∧
      Registry.table sampleDoorsLinkage sampleGate.token after = (.ok inherited, after) ∧
      (exists (depth : Nat) (level : Level), inherited.levels[depth]? = some level ∧
        sampleGateOpen ∈ level.members) ∧
      forall (depth : Nat) (level ownLevel : Level), inherited.levels[depth]? = some level ->
        table.levels[depth + 1]? = some ownLevel ->
          List.Forall₂ (fun before after => before = sampleGateOpen -> after = sampleLockOpen)
            level.members ownLevel.members := by
  have noArrays : forall type, type ∈ sampleDoorsProgram.types -> type.isArray = false := by
    decide +kernel
  constructor
  · have isRoot : sampleDoorsLinkage.program.rootDeclaration sampleVaultOpen =
        .ok sampleVaultOpen := by
      decide +kernel
    rcases ((refused_or_replaced build_sampleDoors
      (show sampleDoorsLinkage.substitutions = [] from rfl) .empty
      (fun type member => noArrays type (sampleSafe_overrides.lineage.mem_types member))
      sampleSafe_overrides).1 isRoot).2.2 obtainable_sampleSafe with
      ⟨inOwn, failing, listed, among, _, failed⟩
    have only : sampleDoorsLinkage.program.declaredMethods sampleSafe = .ok [sampleSafeOpen] := by
      decide +kernel
    rw [only] at listed
    cases listed
    rw [List.mem_singleton.mp among] at failed
    exact failed
  · have notRoot : sampleDoorsLinkage.program.rootDeclaration sampleGateOpen ≠
        .ok sampleGateOpen := by
      decide +kernel
    have succeeds : (Registry.table sampleDoorsLinkage sampleLock.token {}).1.isOk = true := by
      decide +kernel
    cases obtained : Registry.table sampleDoorsLinkage sampleLock.token {} with
    | mk result after =>
        rw [obtained] at succeeds
        cases result with
        | error error => cases succeeds
        | ok table =>
            rcases (refused_or_replaced build_sampleDoors
              (show sampleDoorsLinkage.substitutions = [] from rfl) .empty
              (fun type member => noArrays type (sampleLock_overrides.lineage.mem_types member))
              sampleLock_overrides).2 notRoot table after obtained with
              ⟨parent, inherited, isBase, ofGate, holds, replaced⟩
            cases isBase
            exact ⟨table, after, inherited, rfl, ofGate, holds, replaced⟩

/-- The lock is registered although the gate's way to open is final, and in the slot of
the door it takes the place of that way. -/
theorem sampleLock_registered :
    sampleDoorsProgram.OverridesSealed sampleLock [sampleGate, sampleDoor] sampleLockOpen
      sampleGateOpen ∧
    (add sampleDoorsLinkage sampleLock.token {}).1 = .ok () ∧
    (Registry.table sampleDoorsLinkage sampleGate.token {}).1.map
        (fun table => table.levels.map Level.members) = .ok [[], [sampleGateOpen]] ∧
    (Registry.table sampleDoorsLinkage sampleLock.token {}).1.map
        (fun table => table.levels.map Level.members) =
      .ok [[sampleLockOpen], [], [sampleLockOpen]] :=
  ⟨sampleLock_overrides, by decide +kernel, by decide +kernel, by decide +kernel⟩

end Registry
end Dispatch
end CilGraph
