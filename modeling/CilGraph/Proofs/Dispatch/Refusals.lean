import CilGraph.Proofs.Dispatch.Compatibility
import CilGraph.Proofs.Dispatch.Transparency
import CilGraph.Proofs.Program.Sound

namespace CilGraph
namespace Dispatch

/-!
# Why a type is refused

A layout is made from the tables of other types by sorting methods.  In a program
that was built most of this cannot fail: what a method overrides can be searched
for, and every slot of a registered table is a known method, so the root of every
slot is found.  Sorting therefore fails in one way only, at a method of the type
itself that is to take over a slot and finds none.

For the type as a whole this is a statement about registries.  If the tables can
be had and the interfaces are implemented, and the type can nevertheless never be
registered, then the request for it fails in just this way.
-/

/-! ## Sorting -/

section Failing

variable {linkage : Linkage} {method : MethodDef} {target : Token}

theorem exists_replaceSlot {slots : List MethodDef}
    (rooted : forall slot, slot ∈ slots -> exists root, Table.rootType linkage slot = .ok root) :
    exists outcome, Table.replaceSlot linkage method target slots = .ok outcome := by
  induction slots with
  | nil => exact ⟨_, rfl⟩
  | cons slot rest inductionHypothesis =>
      rcases List.forall_mem_cons.mp rooted with ⟨⟨root, ofSlot⟩, ofRest⟩
      rcases inductionHypothesis ofRest with ⟨outcome, replaced⟩
      refine Result.exists_bind ofSlot ?_
      split
      · exact ⟨_, rfl⟩
      · exact Result.exists_bind replaced ⟨_, rfl⟩

theorem exists_replaceSlots {table : Table}
    (rooted : forall slot, slot ∈ table.slots -> exists root,
      Table.rootType linkage slot = .ok root) :
    exists outcome, Table.replaceSlots linkage method target table = .ok outcome := by
  induction table using Table.baseInduction with
  | step table inductionHypothesis =>
      cases table
      rename_i type resolved name members base interfaces offset regionSize conversionOffset
        conversions
      rw [Table.slots_eq] at rooted
      rcases exists_replaceSlot (fun slot member => rooted slot
        (List.mem_append_left _ (List.mem_append_left _ member))) with ⟨outcome, ofMembers⟩
      unfold Table.replaceSlots
      refine Result.exists_bind ofMembers ?_
      dsimp only
      split
      · exact ⟨_, rfl⟩
      · cases base with
        | none => exact ⟨_, rfl⟩
        | some base =>
            rcases inductionHypothesis base rfl (fun slot member => rooted slot
              (List.mem_append_left _ (List.mem_append_right _ member))) with ⟨changed, replaced⟩
            exact Result.exists_bind (Result.bind_eq_ok.mpr ⟨changed, replaced, rfl⟩) ⟨_, rfl⟩

theorem exists_rootType (wellFormed : linkage.program.WellFormed)
    (connected : linkage.program.Connected) (lists : linkage.program.ListsMethods)
    (known : linkage.program.Known (.method method)) :
    exists root, Table.rootType linkage method = .ok root := by
  rcases Program.exists_rootDeclaration wellFormed connected lists known with ⟨root, follows⟩
  exact ⟨_, Result.bind_eq_ok.mpr ⟨root, follows, rfl⟩⟩

/-- An override that finds no slot says which method of which type it is. -/
theorem override_eq_error {table : Table} {type : TypeDef} {error : Error}
    (rooted : forall slot, slot ∈ method :: table.slots -> exists root,
      Table.rootType linkage slot = .ok root)
    (declared : linkage.program.typeDef method.declaring = .ok type)
    (failed : Table.override linkage method true table = .error error) :
    error = .unresolvedOverride type.fullName method.name := by
  rcases List.forall_mem_cons.mp rooted with ⟨⟨root, ofMethod⟩, ofSlots⟩
  have replaces : exists outcome, Table.replaceSlots linkage method root table = .ok outcome :=
    exists_replaceSlots ofSlots
  rcases replaces with ⟨⟨after, replaced⟩, ofTable⟩
  have named : linkage.program.typeName method.declaring = .ok type.fullName :=
    Result.map_eq_ok.mpr ⟨type, declared, rfl⟩
  rcases Result.bind_eq_error.mp failed with impossible | ⟨_, found, failedThen⟩
  · rw [ofMethod] at impossible
    cases impossible
  · rw [ofMethod] at found
    cases found
    rcases Result.bind_eq_error.mp failedThen with impossible | ⟨_, changed, checked⟩
    · rw [ofTable] at impossible
      cases impossible
    · rw [ofTable] at changed
      cases changed
      cases replaced with
      | true => cases checked
      | false =>
          simp only [named] at checked
          exact (Except.error.inj checked).symm

/-- Sorting fails only at a method of the type itself that overrides nothing. -/
theorem addMethod_eq_error {layout : Layout} {type : TypeDef} {error : Error}
    (rooted : forall slot, slot ∈ method :: layout.table.slots -> exists root,
      Table.rootType linkage slot = .ok root)
    (declared : linkage.program.typeDef layout.resolved = .ok type)
    (failed : Layout.addMethod linkage layout method = .error error) :
    method.declaring = layout.resolved ∧ method.isVirtual = true ∧
      error = .unresolvedOverride type.fullName method.name := by
  rcases rooted method List.mem_cons_self with ⟨_, ofMethod⟩
  rcases Result.bind_eq_ok.mp ofMethod with ⟨root, follows, _⟩
  rcases Result.bind_eq_error.mp failed with impossible | ⟨_, _, sorting⟩
  · rw [follows] at impossible
    cases impossible
  · dsimp only at sorting
    split at sorting
    · cases sorting
    · split at sorting
      · rename_i overrides
        simp only [Bool.and_eq_true, beq_iff_eq] at overrides
        refine ⟨overrides.1.1, overrides.1.2, ?_⟩
        rcases Result.bind_eq_error.mp sorting with fails | ⟨changed, _, impossible⟩
        · rcases Result.bind_eq_error.mp fails with failsThere | ⟨base, _, impossible⟩
          · cases isBase : layout.base with
            | none =>
                rw [isBase] at failsThere
                cases failsThere
            | some table =>
                rw [isBase] at failsThere
                change (Table.override linkage method true table).map some = _ at failsThere
                rw [← overrides.1.1] at declared
                have ofSlots : forall slot, slot ∈ method :: table.slots -> exists root,
                    Table.rootType linkage slot = .ok root := by
                  intro slot member
                  refine rooted slot (List.cons_subset_cons method ?_ member)
                  intro inTable among
                  rw [Layout.mem_slots_table, isBase]
                  exact Or.inr (Or.inr (Or.inl among))
                cases outcome : Table.override linkage method true table with
                | ok changed =>
                    rw [outcome] at failsThere
                    cases failsThere
                | error other =>
                    rw [outcome] at failsThere
                    cases failsThere
                    exact override_eq_error ofSlots declared outcome
          · cases impossible
        · split at impossible <;> cases impossible
      · split at sorting
        · cases sorting
        · split at sorting <;> cases sorting

/-- All methods are sorted, unless one that the type declares overrides nothing. -/
theorem addMethods_eq_error (wellFormed : linkage.program.WellFormed)
    (connected : linkage.program.Connected) (lists : linkage.program.ListsMethods)
    {layout : Layout} {own : TypeDef} {error : Error}
    (declared : linkage.program.typeDef layout.resolved = .ok own)
    (known : layout.table.Known linkage.program)
    (failed : layout.addMethods linkage = .error error) :
    exists inOwn failing, linkage.program.declaredMethods own = .ok inOwn ∧ failing ∈ inOwn ∧
      failing.isVirtual = true ∧ error = .unresolvedOverride own.fullName failing.name := by
  rcases Program.exists_instanceMethods wellFormed lists declared with ⟨methods, listed⟩
  unfold Layout.addMethods at failed
  rw [listed] at failed
  rcases Result.exists_of_foldlM_error failed with
    ⟨front, failing, back, current, split, folded, failsHere⟩
  have knownMethods : forall method, method ∈ front ++ failing :: back ->
      linkage.program.Known (.method method) := by
    rw [← split]
    exact fun method member => Program.known_of_mem_instanceMethods listed member
  rcases List.forall_mem_append.mp knownMethods with ⟨knownFront, knownRest⟩
  have knownThen := Layout.known_foldlM_addMethod knownFront folded known
  have rooted : forall slot, slot ∈ failing :: current.table.slots -> exists root,
      Table.rootType linkage slot = .ok root := by
    refine List.forall_mem_cons.mpr ⟨?_, fun slot member => ?_⟩
    · exact exists_rootType wellFormed connected lists (knownRest failing List.mem_cons_self)
    · exact exists_rootType wellFormed connected lists (knownThen slot member)
  have isResolved : current.resolved = layout.resolved := by
    refine Layout.foldlM_addMethod (fun _ other => other.resolved = layout.resolved) folded rfl ?_
    intro _ method other next _ _ kept step
    exact step.kept.2.trans kept
  rw [← isResolved] at declared
  rcases addMethod_eq_error rooted declared failsHere with ⟨isOwn, isVirtual, reason⟩
  rcases wellFormed.lineages _ own declared with ⟨chain, lineage⟩
  rcases lineage.exists_cons with ⟨first, ancestors, whole, found⟩
  rw [declared] at found
  cases found
  rw [whole] at lineage
  rw [← isResolved] at listed
  rcases Program.visible_of_instanceMethods wellFormed lineage listed with ⟨inOwn, visible⟩
  refine ⟨inOwn, failing, visible.listed, ?_, isVirtual, reason⟩
  have member : failing ∈ methods := by
    rw [split]
    exact List.mem_append_right _ List.mem_cons_self
  exact List.mem_of_find?_eq_some ((visible.ownMethods failing).mp
    ⟨member, isOwn.trans (Program.token_of_typeDef declared).2.symm⟩)

end Failing

/-! ## Registering -/

namespace Registry

/-- The tables that the layout of a type is made from can be had, and the type
implements its interfaces. -/
structure Obtainable (linkage : Linkage) (registry : Registry) (own : TypeDef) : Prop where
  tables : forall other, Needs linkage own.token other -> exists table,
    (Registry.table linkage other registry).1 = .ok table
  implemented : own.isInterface = false -> forall interfaces interface,
    linkage.program.interfaces own.token = .ok interfaces -> interface ∈ interfaces ->
      exists pairs, linkage.program.interfaceMap own interface = .ok pairs

/-- Get a table while a type waits for it. -/
def obtainFor (linkage : Linkage) (waits other : Token) : Action Table := do
  addWith linkage linkage.program.types.length [waits] other
  tableOf linkage other

section Obtaining

variable {linkage : Linkage} {registry : Registry} {own : TypeDef}

section Unregistered

variable (grounded : linkage.Grounded) (grown : Grows linkage {} registry)
  (declared : linkage.program.typeDef own.token = .ok own)
  (absent : forall later, Grows linkage {} later -> later.layout? own.token = none)
include grounded grown declared absent

/-- A table that can be had is also had for a type that is never registered. -/
theorem yields_obtainFor {other : Token} {table : Table}
    (obtained : (Registry.table linkage other registry).1 = .ok table) :
    table.Known linkage.program ∧
      Yields (Ready linkage [own.token]) (obtainFor linkage own.token other) table := by
  rcases ensures_table linkage other registry trivial with ⟨grows, reached⟩
  have tabled := reached table obtained
  have grownThen := grown.trans grows
  have nothing : Known linkage.program {} :=
    fun _ impossible => absurd impossible List.not_mem_nil
  refine ⟨(nothing.grows grownThen).tabled tabled, yields_obtain grownThen tabled ?_⟩
  rcases tabled with ⟨type, layout, canonical, found, _⟩
  have readyModel : Ready linkage [own.token] (Registry.table linkage other registry).2 :=
    ⟨grownThen, List.forall_mem_singleton.mpr (absent _ grownThen)⟩
  have isType := Program.mem_tokens_of_typeDef declared
  intro current ready
  have added := addWith_of_layout_elsewhere grounded (List.nodup_singleton own.token)
    (List.cons_subset.mpr ⟨isType, List.nil_subset _⟩) (Nat.lt_succ_self _) canonical readyModel
    found ready
  exact ⟨_, Prod.ext added rfl, ready.addWith added⟩

theorem Obtainable.exists_base (obtainable : Obtainable linkage registry own) :
    exists base, Option.Rel (fun other =>
        Yields (Ready linkage [own.token]) (obtainFor linkage own.token other)) own.base base ∧
      forall slot, slot ∈ Table.slotsOfBase base -> linkage.program.Known (.method slot) := by
  cases isBase : own.base with
  | none => exact ⟨none, .none, fun _ impossible => absurd impossible List.not_mem_nil⟩
  | some parent =>
      rcases obtainable.tables parent (.base declared isBase) with ⟨table, obtained⟩
      rcases yields_obtainFor grounded grown declared absent obtained with ⟨known, yields⟩
      exact ⟨some table, .some yields, known⟩

theorem Obtainable.exists_interfaces {interfaces : List Token}
    (resolves : linkage.program.typeDef (linkage.resolveType own.token) = .ok own)
    (listed : linkage.program.interfaces own.token = .ok interfaces)
    (obtainable : Obtainable linkage registry own) :
    exists tables, List.Forall₂ (fun interface table => exists plain,
        Yields (Ready linkage [own.token]) (obtainFor linkage own.token interface) plain ∧
          Layout.implementInterface linkage own interface plain = .ok table) interfaces tables ∧
      forall slot, slot ∈ Table.slotsOfList tables -> linkage.program.Known (.method slot) := by
  have each : forall interface, interface ∈ interfaces -> exists node, (do
      let plain ← (Registry.table linkage interface registry).1
      Layout.implementInterface linkage own interface plain) = .ok node := by
    intro interface among
    rcases obtainable.tables interface (.interface resolves listed among) with ⟨plain, obtained⟩
    refine Result.exists_bind obtained ?_
    unfold Layout.implementInterface
    split
    · exact ⟨plain, rfl⟩
    · rename_i isClass
      rcases obtainable.implemented (Bool.eq_false_iff.mpr isClass) interfaces interface listed
        among with ⟨pairs, mapped⟩
      exact Result.exists_bind mapped ⟨_, rfl⟩
  rcases Result.exists_mapM each with ⟨tables, made⟩
  refine ⟨tables, (Result.mapM_eq_ok made).imp ?_, ?_⟩
  · intro interface node taken
    rcases Result.bind_eq_ok.mp taken with ⟨plain, obtained, implemented⟩
    exact ⟨plain, (yields_obtainFor grounded grown declared absent obtained).2, implemented⟩
  · intro slot inTables
    rcases Table.mem_slotsOfList.mp inTables with ⟨node, among, inNode⟩
    rcases Result.exists_of_mem_mapM made among with ⟨interface, _, taken⟩
    rcases Result.bind_eq_ok.mp taken with ⟨plain, obtained, implemented⟩
    exact Layout.known_implementInterface implemented
      (yields_obtainFor grounded grown declared absent obtained).1 slot inNode

/-- If all that a type needs can be had and still it cannot be registered, then one of
its methods overrides nothing. -/
theorem add_of_obtainable (lists : linkage.program.ListsMethods)
    (unreplaced : linkage.substitutions = []) (notArray : own.isArray = false)
    (obtainable : Obtainable linkage registry own) :
    exists inOwn failing, linkage.program.declaredMethods own = .ok inOwn ∧ failing ∈ inOwn ∧
      failing.isVirtual = true ∧
      (add linkage own.token registry).1 =
        .error (.unresolvedOverride own.fullName failing.name) := by
  have innermost := innermost_of_not_isArray declared notArray
  have resolves : linkage.program.typeDef (linkage.resolveType own.token) = .ok own := by
    rw [resolveType_of_unreplaced unreplaced]
    exact declared
  rcases Program.exists_interfaces grounded.wellFormed grounded.connected declared with
    ⟨_, interfaces, _, _, listed⟩
  rcases obtainable.exists_base grounded grown declared absent with ⟨base, onBase, knownBase⟩
  rcases obtainable.exists_interfaces grounded grown declared absent resolves listed with
    ⟨tables, onInterfaces, knownTables⟩
  have ready : Ready linkage [own.token] registry :=
    ⟨grown, List.forall_mem_singleton.mpr (absent registry grown)⟩
  have parts : Parts linkage (fun other =>
      Yields (Ready linkage [own.token]) (obtainFor linkage own.token other)) own.token own own
        base interfaces tables :=
    ⟨declared, resolves, onBase, listed, onInterfaces⟩
  rcases makeLayout_apply parts ready with ⟨later, made, _⟩
  have adds : add linkage own.token registry =
      (makeLayout linkage (obtainFor linkage own.token) own.token >>= enter linkage own.token)
        registry :=
    addWith_of_missing innermost (absent registry grown) List.not_mem_nil
  rw [Stateful.bind_apply, made] at adds
  cases sorted : (Layout.start own own.token base tables).addMethods linkage with
  | ok layout =>
      -- Entering a layout does not fail, so the type would be registered.
      rw [sorted] at adds
      rcases Catalog.add_of_describable (Catalog.describable_of_grounded grounded declared)
        later.catalog with ⟨catalog, entered⟩
      dsimp only at adds
      rw [enter_of_add entered] at adds
      rcases exists_error_of_absent innermost
        (absent _ (grown.trans (grows_add linkage own.token registry))) with ⟨failure, failed⟩
      rw [adds] at failed
      cases failed
  | error error =>
      rw [sorted] at adds
      have known : (Layout.start own own.token base tables).table.Known linkage.program := by
        intro slot member
        rcases Layout.mem_slots_table.mp member with impossible | impossible | inBase | inTables
        · cases impossible
        · cases impossible
        · exact knownBase slot inBase
        · exact knownTables slot inTables
      rcases addMethods_eq_error grounded.wellFormed grounded.connected lists declared known sorted
        with ⟨inOwn, failing, ofOwn, among, isVirtual, reason⟩
      refine ⟨inOwn, failing, ofOwn, among, isVirtual, ?_⟩
      rw [adds, reason]

end Unregistered
end Obtaining

end Registry
end Dispatch
end CilGraph
