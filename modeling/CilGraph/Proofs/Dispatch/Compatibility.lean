import CilGraph.Proofs.Dispatch.Overriding

namespace CilGraph
namespace Dispatch

/-!
# Tables along a lineage

The table of a type has one level for each type of its lineage, and each level
has the slots that its type has in a table of its own.  Code that knows only the
ancestor may therefore read a slot at the position at which the ancestor has it,
and finds there the method that the lineage dispatches to.

Two facts about roots carry the proof.  The root of a slot is declared by the
type of the slot or above it, so it is none of the types below.  Hence an
override that stops at the level of its root has missed no slot that it fits,
and a method that is its own root overrides nothing.
-/

section Sorting

variable {linkage : Linkage} {registry : Registry} {token : Token} {own : TypeDef}
  {ancestors passed : List TypeDef} {methods ownMethods sorted : List MethodDef}
  {declared slot method : MethodDef} {layout next : Layout}

theorem distinct_of_made (wellFormed : linkage.program.WellFormed)
    (unreplaced : linkage.substitutions = [])
    (lineage : Program.Lineage linkage.program token (own :: ancestors))
    (made : Registry.Made linkage registry token layout) :
    Program.Distinct layout.table.members := by
  rcases assembled_of_made wellFormed unreplaced lineage made with
    ⟨base, tables, methods, ownMethods, assembled⟩
  exact (Layout.members_of_addMethods rfl assembled.visible.distinct assembled.folded).1

/-- The root of a slot is not declared below the type of the slot. -/
theorem SlotAt.root_not_below (wellFormed : linkage.program.WellFormed)
    (unreplaced : linkage.substitutions = []) (grown : Registry.Grows linkage {} registry)
    (lineage : Program.Lineage linkage.program token (own :: ancestors))
    (place : SlotAt registry ancestors passed declared) {root : Token}
    (rooted : linkage.program.RootedAt declared root) :
    root ∉ (own :: passed).map TypeDef.token := by
  rcases place with ⟨type, ahead, found, split, isLayout, member⟩
  have whole : own :: ancestors = (own :: passed) ++ type :: ahead := by
    rw [split, List.cons_append]
  have above : root ∈ (type :: ahead).map TypeDef.token :=
    rootedAt_mem_lineage wellFormed unreplaced (lineage.suffix whole) (grown.made isLayout) member
      rooted
  have nodup := lineage.nodup
  rw [whole, List.map_append] at nodup
  intro below
  exact (List.nodup_append.mp nodup).2.2 root below root above rfl

/-- A method of a type overrides whatever it has the signature and the root of. -/
theorem overrides_of_rootedAt
    (visible : Program.Visible linkage.program own ancestors methods ownMethods)
    (member : method ∈ methods) (isOwn : method.declaring = own.token)
    (isVirtual : method.isVirtual = true) (isConcrete : method.isAbstract = false)
    (signature : method.sameSignature declared = true) {root : MethodDef}
    (declares : linkage.program.rootDeclaration method = .ok root)
    (rooted : linkage.program.RootedAt declared root.declaring) :
    linkage.program.Overrides declared own method := by
  rcases rooted with ⟨other, ofDeclared, same⟩
  refine ⟨⟨ownMethods, visible.listed, ?_⟩, isVirtual, isConcrete,
    root, other, declares, ofDeclared, same.symm⟩
  rw [← Program.firstInstance?_congr signature]
  exact (visible.ownMethods method).mp ⟨member, isOwn⟩

/-- A method that is its own root overrides no slot of an ancestor. -/
theorem SlotAt.not_overrides_of_own_root (wellFormed : linkage.program.WellFormed)
    (unreplaced : linkage.substitutions = []) (grown : Registry.Grows linkage {} registry)
    (lineage : Program.Lineage linkage.program token (own :: ancestors))
    (place : SlotAt registry ancestors passed declared)
    (known : linkage.program.Known (.method method)) (isOwn : method.declaring = own.token)
    {root : MethodDef} (declares : linkage.program.rootDeclaration method = .ok root)
    (isRoot : root.token = method.token) : ¬ linkage.program.Overrides declared own method := by
  intro overrides
  have rootKnown := Program.known_of_rootDeclarationWith known declares
  have same : root = method := Callable.method.inj (rootKnown.eq_of_token known isRoot)
  have rooted : linkage.program.RootedAt method own.token := by
    refine ⟨root, declares, ?_⟩
    rw [same]
    exact isOwn
  have outside := place.root_not_below wellFormed unreplaced grown lineage
    (overrides.rootedAt_iff.mp rooted)
  exact outside List.mem_cons_self

theorem LevelsMatch.skip {levels : List Level}
    (before : LevelsMatch registry (linkage.program.Patched own sorted) [] ancestors levels)
    (harmless : forall passed declared, SlotAt registry ancestors passed declared ->
      ¬ linkage.program.Overrides declared own method) :
    LevelsMatch registry (linkage.program.Patched own (sorted ++ [method])) [] ancestors
      levels := by
  refine before.imp (List.nil_append ancestors).symm ?_
  intro passed declared slot place _ patched
  exact patched.skip (fun _ => harmless passed declared place)

/-- Where slots are replaced, exactly those that the method overrides get it. -/
theorem LevelsMatch.override (wellFormed : linkage.program.WellFormed)
    (unreplaced : linkage.substitutions = []) (grown : Registry.Grows linkage {} registry)
    (lineage : Program.Lineage linkage.program token (own :: ancestors)) {levels after : List Level}
    {root : Token} (rooted : linkage.program.RootedAt method root)
    (overrides : forall declared, method.sameSignature declared = true ->
      linkage.program.RootedAt declared root -> linkage.program.Overrides declared own method)
    (before : LevelsMatch registry (linkage.program.Patched own sorted) [] ancestors levels)
    (change : LevelsReplaced linkage method root levels after) :
    LevelsMatch registry (linkage.program.Patched own (sorted ++ [method])) [] ancestors
      after := by
  refine before.replaced change (List.nil_append ancestors).symm ?_
    (fun _ _ _ patched => patched.signature) ?_ ?_
  · intro type found isAncestor isLayout
    rcases lineage.of_mem (List.mem_cons_of_mem own isAncestor) with ⟨back, above⟩
    exact distinct_of_made wellFormed unreplaced above (grown.made isLayout)
  · intro passed declared slot place patched untouched
    refine patched.skip ?_
    intro dispatched given
    have declaredRooted := given.rootedAt_iff.mp rooted
    rcases untouched with fails | isBelow
    · apply fails
      refine ⟨(rootType_iff unreplaced).mpr (dispatched.rootedAt_iff.mpr declaredRooted), ?_⟩
      exact MethodDef.sameSignature_trans dispatched.signature
        (MethodDef.sameSignature_symm given.signature)
    · have outside := place.root_not_below wellFormed unreplaced grown lineage declaredRooted
      exact outside (List.mem_cons_of_mem _ isBelow)
  · intro passed declared slot place patched fits
    have signature : method.sameSignature declared = true :=
      MethodDef.sameSignature_trans (MethodDef.sameSignature_symm fits.2) patched.signature
    have declaredRooted : linkage.program.RootedAt declared root :=
      patched.rootedAt_iff.mp ((rootType_iff unreplaced).mp fits.1)
    exact Or.inl ⟨List.mem_append_right _ List.mem_cons_self,
      overrides declared signature declaredRooted⟩

/-- Sorting one method keeps the levels of the base table as they should be. -/
theorem Layout.Sorted.levelsMatch (wellFormed : linkage.program.WellFormed)
    (unreplaced : linkage.substitutions = []) (grown : Registry.Grows linkage {} registry)
    (lineage : Program.Lineage linkage.program token (own :: ancestors))
    (visible : Program.Visible linkage.program own ancestors methods ownMethods)
    (listed : linkage.program.instanceMethods own.token = .ok methods)
    (member : method ∈ methods) (isResolved : layout.resolved = own.token)
    (before : LevelsMatch registry (linkage.program.Patched own sorted) [] ancestors
      (Table.levelsOfBase layout.base))
    (step : Layout.Sorted linkage layout method next) :
    LevelsMatch registry (linkage.program.Patched own (sorted ++ [method])) [] ancestors
      (Table.levelsOfBase next.base) := by
  cases step with
  | abstract isAbstract =>
      refine before.skip ?_
      intro passed declared _ overrides
      rw [overrides.isConcrete] at isAbstract
      cases isAbstract
  | @apart root _ declares isConcrete overridesNothing added =>
      have sameBase : next.base = layout.base := by
        rcases added with same | same | same <;> rw [same] <;> rfl
      rw [sameBase]
      refine before.skip ?_
      intro passed declared place overrides
      have isOwn : method.declaring = own.token := (overrides.mem_methods visible).2
      have isRoot : root.token = method.token := by
        by_contra differs
        exact overridesNothing ⟨isOwn.trans isResolved.symm, overrides.isVirtual, differs⟩
      exact place.not_overrides_of_own_root wellFormed unreplaced grown lineage
        (Program.known_of_mem_instanceMethods listed member) isOwn declares isRoot overrides
  | @overriding root base declares isConcrete isOwn isVirtual differs replaced =>
      have rooted : linkage.program.RootedAt method root.declaring := ⟨root, declares, rfl⟩
      have change := levelsReplaced_of_override ((rootType_iff unreplaced).mpr rooted) replaced
      have after := before.override wellFormed unreplaced grown lineage rooted
        (fun declared signature declaredRooted => overrides_of_rootedAt visible member
          (isOwn.trans isResolved) isVirtual isConcrete signature declares declaredRooted) change
      cases method.isFinal with
      | true => exact after
      | false => exact after

end Sorting

/-! ## Whole lineages -/

section Lineages

variable {linkage : Linkage} {registry : Registry} {token : Token} {own : TypeDef}
  {ancestors chain : List TypeDef} {layout : Layout}

/-- The levels of a table hold what the lineage of its type dispatches to. -/
def Compatible (program : Program) (registry : Registry) (chain : List TypeDef)
    (levels : List Level) : Prop :=
  LevelsMatch registry (fun passed declared slot => program.Dispatched declared passed slot) []
    chain levels

/-- While the methods of a type are being sorted, the levels of the base table are as
they should be. -/
theorem levelsMatch_of_foldlM (wellFormed : linkage.program.WellFormed)
    (unreplaced : linkage.substitutions = []) (grown : Registry.Grows linkage {} registry)
    (lineage : Program.Lineage linkage.program token (own :: ancestors))
    {methods ownMethods sorted : List MethodDef}
    (visible : Program.Visible linkage.program own ancestors methods ownMethods)
    (listed : linkage.program.instanceMethods own.token = .ok methods)
    (included : sorted ⊆ methods) {start : Layout} (isType : start.type = own)
    (isResolved : start.resolved = own.token)
    (below : Compatible linkage.program registry ancestors (Table.levelsOfBase start.base))
    (folded : sorted.foldlM (Layout.addMethod linkage) start = .ok layout) :
    layout.type = own ∧ layout.resolved = own.token ∧
      LevelsMatch registry (linkage.program.Patched own sorted) [] ancestors
        (Table.levelsOfBase layout.base) := by
  refine Layout.foldlM_addMethod (fun sorted current => current.type = own ∧
    current.resolved = own.token ∧ LevelsMatch registry (linkage.program.Patched own sorted) []
      ancestors (Table.levelsOfBase current.base)) folded ?_ ?_
  · refine ⟨isType, isResolved, below.imp (List.nil_append ancestors).symm ?_⟩
    intro passed declared slot _ _ dispatched
    exact Or.inr ⟨fun method impossible => absurd impossible List.not_mem_nil, dispatched⟩
  · rintro sorted method current next member _ ⟨isType, isResolved, before⟩ step
    rcases step.kept with ⟨typeKept, resolvedKept⟩
    exact ⟨typeKept.trans isType, resolvedKept.trans isResolved,
      step.levelsMatch wellFormed unreplaced grown lineage visible listed (included member)
        isResolved before⟩

theorem Assembled.compatible (wellFormed : linkage.program.WellFormed)
    (unreplaced : linkage.substitutions = []) (grown : Registry.Grows linkage {} registry)
    (lineage : Program.Lineage linkage.program token (own :: ancestors))
    {base : Option Table} {tables : List Table} {methods ownMethods : List MethodDef}
    (assembled : Assembled linkage registry own ancestors layout base tables methods ownMethods)
    (found : registry.layout? own.token = some layout)
    (below : Compatible linkage.program registry ancestors (Table.levelsOfBase base)) :
    Compatible linkage.program registry (own :: ancestors) layout.table.levels := by
  have visible := assembled.visible
  rcases levelsMatch_of_foldlM wellFormed unreplaced grown lineage visible assembled.listed
    (List.Subset.refl methods) rfl rfl below assembled.folded with ⟨isType, isResolved, patched⟩
  have above : LevelsMatch registry (fun passed declared slot =>
      linkage.program.Dispatched declared (own :: passed) slot) [] ancestors
        (Table.levelsOfBase layout.base) := by
    refine patched.imp (List.nil_append ancestors).symm ?_
    intro passed declared slot _ _ given
    exact given.dispatched visible
  rw [Table.levels_eq]
  refine .cons (congrArg TypeDef.token isType) isResolved found ?_ above.under
  exact List.forall₂_same.mpr (fun slot _ => rfl)

theorem innermost_of_not_isArray {program : Program} {type : TypeDef}
    (found : program.typeDef token = .ok type) (plain : type.isArray = false) :
    program.innermost token = .ok token := by
  have noElement : type.element = none :=
    Option.isNone_iff_eq_none.mp (Option.isSome_eq_false_iff.mp plain)
  refine Result.bind_eq_ok.mpr ⟨type, found, ?_⟩
  rw [noElement]

theorem innermost_of_lineage {program : Program} (lineage : Program.Lineage program token chain)
    (plain : forall type, type ∈ chain -> type.isArray = false) :
    program.innermost token = .ok token := by
  rcases lineage.exists_cons with ⟨first, others, split, found⟩
  refine innermost_of_not_isArray found (plain first ?_)
  rw [split]
  exact List.mem_cons_self

theorem compatible_of_layout (wellFormed : linkage.program.WellFormed)
    (unreplaced : linkage.substitutions = []) (grown : Registry.Grows linkage {} registry)
    (lineage : Program.Lineage linkage.program token chain)
    (plain : forall type, type ∈ chain -> type.isArray = false)
    (found : registry.layout? token = some layout) :
    Compatible linkage.program registry chain layout.table.levels := by
  induction lineage generalizing layout with
  | @root token type declared noBase =>
      have isToken := (Program.token_of_typeDef declared).2
      have whole : Program.Lineage linkage.program token [type] := .root declared noBase
      rcases assembled_of_made wellFormed unreplaced whole (grown.made found) with
        ⟨base, tables, methods, ownMethods, assembled⟩
      rw [← isToken] at found
      refine assembled.compatible wellFormed unreplaced grown whole found ?_
      have onBase := assembled.onBase
      rw [noBase] at onBase
      cases onBase
      exact .nil
  | @derived token parent type ancestors declared hasBase above inductionHypothesis =>
      have isToken := (Program.token_of_typeDef declared).2
      have whole : Program.Lineage linkage.program token (type :: ancestors) :=
        .derived declared hasBase above
      rcases assembled_of_made wellFormed unreplaced whole (grown.made found) with
        ⟨base, tables, methods, ownMethods, assembled⟩
      rw [← isToken] at found
      refine assembled.compatible wellFormed unreplaced grown whole found ?_
      have onBase := assembled.onBase
      rw [hasBase] at onBase
      cases onBase with
      | some tabled =>
          rcases tabled with ⟨canonical, ofParent, innermost, isLayout, same⟩
          have plainAbove : forall other, other ∈ ancestors -> other.isArray = false :=
            fun other member => plain other (List.mem_cons_of_mem _ member)
          rw [innermost_of_lineage above plainAbove] at innermost
          cases innermost
          rw [same]
          exact inductionHypothesis plainAbove isLayout

theorem LevelsMatch.types {related : List TypeDef -> MethodDef -> MethodDef -> Prop}
    {below rest : List TypeDef} {levels : List Level}
    (levelsMatch : LevelsMatch registry related below rest levels) :
    levels.map Level.type = rest.map TypeDef.token := by
  induction levelsMatch with
  | nil => rfl
  | cons isType isResolved found slots above inductionHypothesis =>
      rw [List.map_cons, List.map_cons, isType, inductionHypothesis]

theorem LevelsMatch.slots_at {related : List TypeDef -> MethodDef -> MethodDef -> Prop}
    {below rest : List TypeDef} {levels : List Level}
    (levelsMatch : LevelsMatch registry related below rest levels) {depth : Nat} {type : TypeDef}
    {level : Level} (isType : rest[depth]? = some type) (isLevel : levels[depth]? = some level) :
    exists layout, registry.layout? type.token = some layout ∧
      List.Forall₂ (related (below ++ rest.take depth)) layout.table.members level.members := by
  induction levelsMatch generalizing depth with
  | nil => cases isType
  | @cons below rest first head levels layout _ _ found slots above inductionHypothesis =>
      cases depth with
      | zero =>
          cases isType
          cases isLevel
          refine ⟨layout, found, ?_⟩
          rw [List.take_zero, List.append_nil]
          exact slots
      | succ depth =>
          rcases inductionHypothesis isType isLevel with ⟨later, isLayout, matched⟩
          refine ⟨later, isLayout, ?_⟩
          rw [List.take_succ_cons, ← List.singleton_append, ← List.append_assoc]
          exact matched

end Lineages

/-! ## Registries -/

namespace Registry

/-- The registries that a user can come to.  An action that fails may still have
changed the registry, and the records of fields may be changed at will. -/
inductive Reachable (linkage : Linkage) : Registry -> Prop
  | empty : Reachable linkage {}
  | add {registry : Registry} (token : Token) (earlier : Reachable linkage registry) :
      Reachable linkage (Registry.add linkage token registry).2
  | table {registry : Registry} (token : Token) (earlier : Reachable linkage registry) :
      Reachable linkage (Registry.table linkage token registry).2
  | fields {registry : Registry} (catalog : Catalog) (earlier : Reachable linkage registry) :
      Reachable linkage { registry with catalog := catalog }

theorem Reachable.grows {linkage : Linkage} {registry : Registry}
    (reachable : Reachable linkage registry) : Grows linkage {} registry := by
  induction reachable with
  | empty => exact .refl
  | add token _ inductionHypothesis => exact inductionHypothesis.trans (grows_add linkage token _)
  | table token _ inductionHypothesis =>
      exact inductionHypothesis.trans (ensures_table linkage token _ trivial).1
  | fields catalog _ inductionHypothesis => exact .catalog catalog inductionHypothesis

/-- In the table of a type, each ancestor has as many slots as in its own table,
and each slot holds the method of the most derived type below the ancestor that
overrides the method which the ancestor has there. -/
theorem table_dispatches {steps : List DraftStep} {linkage : Linkage}
    {registry after : Registry} {token : Token} {table : Table}
    (built : (Draft.ofSteps steps).build = .ok linkage.program)
    (unreplaced : linkage.substitutions = []) (reachable : Reachable linkage registry)
    (plain : forall chain, Program.Lineage linkage.program token chain ->
      forall type, type ∈ chain -> type.isArray = false)
    (obtained : Registry.table linkage token registry = (.ok table, after)) :
    exists chain, Program.Lineage linkage.program token chain ∧
      table.levels.map Level.type = chain.map TypeDef.token ∧
      forall depth ancestor level, chain[depth]? = some ancestor ->
        table.levels[depth]? = some level -> exists own,
          Registry.table linkage ancestor.token after = (.ok own, after) ∧
          List.Forall₂ (fun declared slot =>
            linkage.program.Dispatched declared (chain.take depth) slot)
            own.members level.members := by
  have wellFormed := Draft.wellFormed_of_build (Draft.listsOwn_ofSteps steps) built
  have outcome := ensures_table linkage token registry trivial
  rw [obtained] at outcome
  rcases outcome with ⟨growsLater, onSuccess⟩
  rcases onSuccess table rfl with ⟨canonical, layout, innermost, found, isTable⟩
  have grown : Grows linkage {} after := reachable.grows.trans growsLater
  rcases Result.bind_eq_ok.mp innermost with ⟨type, declared, _⟩
  rcases wellFormed.lineages token type declared with ⟨chain, lineage⟩
  have plainChain := plain chain lineage
  -- A type of the lineage is its own innermost type, so its layout stands under its token.
  have ownInnermost : forall ancestor, ancestor ∈ chain ->
      linkage.program.innermost ancestor.token = .ok ancestor.token := by
    intro ancestor member
    exact innermost_of_not_isArray (lineage.typeDef_of_mem member) (plainChain ancestor member)
  have isToken : canonical = token := by
    rw [innermost_of_lineage lineage plainChain] at innermost
    exact (Except.ok.inj innermost).symm
  rw [isToken] at found
  have compatible := compatible_of_layout wellFormed unreplaced grown lineage plainChain found
  rw [← isTable] at compatible
  refine ⟨chain, lineage, compatible.types, ?_⟩
  intro depth ancestor level isAncestor isLevel
  rcases compatible.slots_at isAncestor isLevel with ⟨own, isLayout, slots⟩
  refine ⟨own.table, ?_, slots⟩
  exact table_of_layout (ownInnermost ancestor (List.mem_of_getElem? isAncestor)) isLayout

/-- An animal speaks and rests, a dog speaks in its own way, and a puppy rests
in its own way. -/
def sampleHierarchy : List DraftStep := [
  .type none "Demo" "Animal" TypeAttributes.exported none,
  .method none ⟨0x02000001⟩ "Speak" ⟨6, 0x0040, 0x0100⟩ none [] (some ⟨8, true, [0x2A]⟩),
  .method none ⟨0x02000001⟩ "Rest" ⟨6, 0x0040, 0x0100⟩ none [] (some ⟨8, true, [0x2A]⟩),
  .type none "Demo" "Dog" TypeAttributes.exported (some ⟨0x02000001⟩),
  .method none ⟨0x02000002⟩ "Speak" ⟨6, 0x0040, 0⟩ none [] (some ⟨8, true, [0x2A]⟩),
  .type none "Demo" "Puppy" TypeAttributes.exported (some ⟨0x02000002⟩),
  .method none ⟨0x02000003⟩ "Rest" ⟨6, 0x0040, 0⟩ none [] (some ⟨8, true, [0x2A]⟩)]

def sampleLinkage : Linkage where
  program := match (Draft.ofSteps sampleHierarchy).build with
    | .ok program => program
    | .error _ => ⟨[], [], [], [], []⟩
  substitutions := []
  natives := []

theorem build_sampleHierarchy :
    (Draft.ofSteps sampleHierarchy).build = .ok sampleLinkage.program := by
  decide +kernel

theorem table_samplePuppy : exists table after,
    Registry.table sampleLinkage ⟨0x02000003⟩ {} = (.ok table, after) ∧
      table.levels.map (fun level => level.members.map MethodDef.token) =
        [[⟨0x06000004⟩, ⟨0x06000003⟩], [⟨0x06000003⟩, ⟨0x06000004⟩],
          [⟨0x06000003⟩, ⟨0x06000004⟩]] := by
  have computed : (match Registry.table sampleLinkage ⟨0x02000003⟩ {} with
      | (.ok table, _) => decide (table.levels.map (fun level =>
          level.members.map MethodDef.token) =
            [[⟨0x06000004⟩, ⟨0x06000003⟩], [⟨0x06000003⟩, ⟨0x06000004⟩],
              [⟨0x06000003⟩, ⟨0x06000004⟩]])
      | (.error _, _) => false) = true := by
    decide +kernel
  split at computed
  · rename_i table after obtained
    exact ⟨table, after, obtained, of_decide_eq_true computed⟩
  · cases computed

/-- The puppy has the dog's way of speaking in the place of the animal's. -/
theorem samplePuppy_dispatches : exists table after,
    Registry.table sampleLinkage ⟨0x02000003⟩ {} = (.ok table, after) ∧
      table.levels.map (fun level => level.members.map MethodDef.token) =
        [[⟨0x06000004⟩, ⟨0x06000003⟩], [⟨0x06000003⟩, ⟨0x06000004⟩],
          [⟨0x06000003⟩, ⟨0x06000004⟩]] ∧
      exists chain, Program.Lineage sampleLinkage.program ⟨0x02000003⟩ chain ∧
        table.levels.map Level.type = chain.map TypeDef.token ∧
        forall depth ancestor level, chain[depth]? = some ancestor ->
          table.levels[depth]? = some level -> exists own,
            Registry.table sampleLinkage ancestor.token after = (.ok own, after) ∧
            List.Forall₂ (fun declared slot =>
              sampleLinkage.program.Dispatched declared (chain.take depth) slot)
              own.members level.members := by
  have plainTypes : forall type, type ∈ sampleLinkage.program.types ->
      type.isArray = false := by
    decide +kernel
  rcases table_samplePuppy with ⟨table, after, obtained, slots⟩
  refine ⟨table, after, obtained, slots, ?_⟩
  exact table_dispatches build_sampleHierarchy rfl .empty
    (fun chain lineage type member => plainTypes type (lineage.mem_types member)) obtained

end Registry
end Dispatch
end CilGraph
