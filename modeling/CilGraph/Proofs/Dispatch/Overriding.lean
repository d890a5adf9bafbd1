import CilGraph.Proofs.Dispatch.Levels

namespace CilGraph

/-!
# Which method a slot holds

The table of a type is made from that of its base type by patching a copy, and
the copy was itself made by patching.  After all of that a slot holds what one
would look for directly: the method of the most derived type that overrides the
method which the slot was declared with, or that method itself.

A type overrides a method if its first instance method with that signature is
virtual, not abstract, and descends from a root declared by the same type.

The argument goes along the lineage.  For one type it goes through the methods
in the order in which they are sorted, and the state between two of them is
`Program.Patched`: a slot whose override has been sorted holds it, and any other
slot is as the base type left it.  Signatures differ within a level, so no
override can land in a wrong slot, and a root is declared above all levels that
it reaches, so none is missed.
-/

namespace Program

/-- A method of a type overrides a declared method. -/
structure Overrides (program : Program) (declared : MethodDef) (type : TypeDef)
    (method : MethodDef) : Prop where
  first : exists methods, program.declaredMethods type = .ok methods ∧
    firstInstance? methods declared = some method
  isVirtual : method.isVirtual = true
  isConcrete : method.isAbstract = false
  sameRoot : exists root other, program.rootDeclaration method = .ok root ∧
    program.rootDeclaration declared = .ok other ∧ root.declaring = other.declaring

/-- The method in the slot of a declared method, seen from below a list of types:
that of the first type which overrides it, or the declared method itself. -/
def Dispatched (program : Program) (declared : MethodDef) : List TypeDef -> MethodDef -> Prop
  | [], slot => slot = declared
  | type :: others, slot => program.Overrides declared type slot ∨
      ((forall method, ¬ program.Overrides declared type method) ∧
        program.Dispatched declared others slot)

section Dispatch

variable {program : Program} {declared slot method : MethodDef} {type : TypeDef}
  {types : List TypeDef}

theorem Overrides.signature (overrides : program.Overrides declared type method) :
    method.sameSignature declared = true := by
  rcases overrides.first with ⟨methods, _, found⟩
  have selected := List.find?_some found
  simp only [Bool.and_eq_true] at selected
  exact selected.2

theorem Dispatched.signature (dispatched : program.Dispatched declared types slot) :
    slot.sameSignature declared = true := by
  induction types with
  | nil =>
      have same : slot = declared := dispatched
      rw [same]
      exact MethodDef.sameSignature_refl declared
  | cons type others inductionHypothesis =>
      rcases dispatched with overrides | ⟨_, further⟩
      · exact overrides.signature
      · exact inductionHypothesis further

/-- The root of a method is declared by a type. -/
def RootedAt (program : Program) (method : MethodDef) (token : Token) : Prop :=
  exists root, program.rootDeclaration method = .ok root ∧ root.declaring = token

theorem Overrides.rootedAt_iff (overrides : program.Overrides declared type method)
    {token : Token} : program.RootedAt method token ↔ program.RootedAt declared token := by
  rcases overrides.sameRoot with ⟨root, other, ofMethod, ofDeclared, same⟩
  constructor
  · rintro ⟨found, follows, declares⟩
    rw [ofMethod] at follows
    cases follows
    exact ⟨other, ofDeclared, same.symm.trans declares⟩
  · rintro ⟨found, follows, declares⟩
    rw [ofDeclared] at follows
    cases follows
    exact ⟨root, ofMethod, same.trans declares⟩

theorem Dispatched.rootedAt_iff (dispatched : program.Dispatched declared types slot)
    {token : Token} : program.RootedAt slot token ↔ program.RootedAt declared token := by
  induction types with
  | nil =>
      have same : slot = declared := dispatched
      rw [same]
  | cons type others inductionHypothesis =>
      rcases dispatched with overrides | ⟨_, further⟩
      · exact overrides.rootedAt_iff
      · exact inductionHypothesis further

theorem Overrides.unique {other : MethodDef} (overrides : program.Overrides declared type method)
    (rival : program.Overrides declared type other) : method = other := by
  rcases overrides.first with ⟨methods, listed, found⟩
  rcases rival.first with ⟨methodsAgain, listedAgain, rivalFound⟩
  rw [listed] at listedAgain
  cases listedAgain
  rw [found] at rivalFound
  exact Option.some.inj rivalFound

/-- A slot holds one method. -/
theorem Dispatched.unique {other : MethodDef} (dispatched : program.Dispatched declared types slot)
    (rival : program.Dispatched declared types other) : slot = other := by
  induction types with
  | nil => exact Eq.trans dispatched (Eq.symm rival)
  | cons type others inductionHypothesis =>
      rcases dispatched with overrides | ⟨none, further⟩
      · rcases rival with rivalOverrides | ⟨rivalNone, _⟩
        · exact overrides.unique rivalOverrides
        · exact absurd overrides (rivalNone slot)
      · rcases rival with rivalOverrides | ⟨_, rivalFurther⟩
        · exact absurd rivalOverrides (none other)
        · exact inductionHypothesis further rivalFurther

/-- Types that override nothing leave a slot alone. -/
theorem Dispatched.below {lower : List TypeDef}
    (dispatched : program.Dispatched declared types slot)
    (none : forall type, type ∈ lower -> forall method, ¬ program.Overrides declared type method) :
    program.Dispatched declared (lower ++ types) slot := by
  induction lower with
  | nil => exact dispatched
  | cons type rest inductionHypothesis =>
      rcases List.forall_mem_cons.mp none with ⟨noneHere, noneFurther⟩
      exact Or.inr ⟨noneHere, inductionHypothesis noneFurther⟩

theorem firstInstance?_congr {methods : List MethodDef}
    (same : method.sameSignature declared = true) :
    firstInstance? methods method = firstInstance? methods declared := by
  unfold firstInstance?
  have samePredicate : (fun candidate : MethodDef =>
      !candidate.isStatic && candidate.sameSignature method) =
        fun candidate => !candidate.isStatic && candidate.sameSignature declared := by
    funext candidate
    rw [MethodDef.sameSignature_congr same]
  rw [samePredicate]

/-- The overriding method of a type is visible on it and declared by it. -/
theorem Overrides.mem_methods {ancestors : List TypeDef} {methods ownMethods : List MethodDef}
    (overrides : program.Overrides declared type method)
    (visible : Visible program type ancestors methods ownMethods) :
    method ∈ methods ∧ method.declaring = type.token := by
  apply (visible.ownMethods method).mpr
  rcases overrides.first with ⟨found, listed, first⟩
  rw [visible.listed] at listed
  cases listed
  rw [firstInstance?_congr overrides.signature]
  exact first

/-! ## Between two methods -/

/-- The slots of a table while the methods of a type are being sorted, where
`sorted` are those that have been. -/
def Patched (program : Program) (type : TypeDef) (sorted : List MethodDef)
    (below : List TypeDef) (declared slot : MethodDef) : Prop :=
  (slot ∈ sorted ∧ program.Overrides declared type slot) ∨
    ((forall method, method ∈ sorted -> ¬ program.Overrides declared type method) ∧
      program.Dispatched declared below slot)

theorem Patched.signature {sorted : List MethodDef}
    (patched : program.Patched type sorted types declared slot) :
    slot.sameSignature declared = true := by
  rcases patched with ⟨_, overrides⟩ | ⟨_, dispatched⟩
  · exact overrides.signature
  · exact dispatched.signature

theorem Patched.rootedAt_iff {sorted : List MethodDef}
    (patched : program.Patched type sorted types declared slot) {token : Token} :
    program.RootedAt slot token ↔ program.RootedAt declared token := by
  rcases patched with ⟨_, overrides⟩ | ⟨_, dispatched⟩
  · exact overrides.rootedAt_iff
  · exact dispatched.rootedAt_iff

/-- A method that overrides nothing in a slot leaves it as it is. -/
theorem Patched.skip {sorted : List MethodDef}
    (patched : program.Patched type sorted types declared slot)
    (harmless : program.Dispatched declared types slot ->
      ¬ program.Overrides declared type method) :
    program.Patched type (sorted ++ [method]) types declared slot := by
  rcases patched with ⟨member, overrides⟩ | ⟨none, dispatched⟩
  · exact Or.inl ⟨List.mem_append_left _ member, overrides⟩
  · refine Or.inr ⟨?_, dispatched⟩
    intro other member
    rcases List.mem_append.mp member with earlier | isMethod
    · exact none other earlier
    · rw [List.mem_singleton.mp isMethod]
      exact harmless dispatched

/-- Once all methods are sorted, nothing is left out. -/
theorem Patched.dispatched {ancestors : List TypeDef} {methods ownMethods : List MethodDef}
    (patched : program.Patched type methods types declared slot)
    (visible : Visible program type ancestors methods ownMethods) :
    program.Dispatched declared (type :: types) slot := by
  rcases patched with ⟨_, overrides⟩ | ⟨none, dispatched⟩
  · exact Or.inl overrides
  · exact Or.inr ⟨fun method overrides => none method (overrides.mem_methods visible).1 overrides,
      dispatched⟩

theorem known_of_rootDeclarationWith {fuel : Nat} {root : MethodDef}
    (known : program.Known (.method method))
    (followed : program.rootDeclarationWith fuel method = .ok root) :
    program.Known (.method root) := by
  induction fuel generalizing method with
  | zero =>
      cases followed
      exact known
  | succ fuel inductionHypothesis =>
      unfold rootDeclarationWith at followed
      split at followed
      · cases followed
        exact known
      · rcases Result.bind_eq_ok.mp followed with ⟨overridden, overrides, continued⟩
        cases overridden with
        | none =>
            cases continued
            exact known
        | some next =>
            refine inductionHypothesis ?_ continued
            rcases Result.bind_eq_ok.mp overrides with ⟨_, _, searching⟩
            rcases findSomeM?_eq_some searching with ⟨level, _, selected⟩
            rcases Result.bind_eq_ok.mp selected with ⟨listed, declares, chosen⟩
            exact known_of_mem_declaredMethods declares
              (List.mem_of_find?_eq_some (Except.ok.inj chosen))

end Dispatch
end Program

namespace Dispatch

/-! ## The slots of a layout -/

theorem Layout.Sorted.kept {linkage : Linkage} {layout next : Layout} {method : MethodDef}
    (sorted : Layout.Sorted linkage layout method next) :
    next.type = layout.type ∧ next.resolved = layout.resolved := by
  cases sorted with
  | abstract isAbstract => exact ⟨rfl, rfl⟩
  | overriding declares isConcrete own isVirtual differs replaced =>
      cases method.isFinal <;> exact ⟨rfl, rfl⟩
  | apart declares isConcrete overridesNothing added =>
      rcases added with same | same | same <;> rw [same] <;> exact ⟨rfl, rfl⟩

/-- Sorting a method adds it to the slots or leaves them alone. -/
theorem Layout.Sorted.members_perm {linkage : Linkage} {layout next : Layout}
    {method : MethodDef} (sorted : Layout.Sorted linkage layout method next) :
    next.table.members = layout.table.members ∨
      next.table.members.Perm (method :: layout.table.members) := by
  have virtual : forall current : Layout, current.virtuals = layout.virtuals ->
      current.abstracts = layout.abstracts ->
      (current.addVirtual method).table.members.Perm (method :: layout.table.members) := by
    intro current sameVirtuals sameAbstracts
    change ((current.virtuals ++ [method]) ++ current.abstracts).Perm _
    rw [sameVirtuals, sameAbstracts, List.append_assoc]
    exact List.perm_middle
  cases sorted with
  | abstract isAbstract =>
      refine Or.inr ?_
      change (layout.virtuals ++ (layout.abstracts ++ [method])).Perm _
      rw [← List.append_assoc]
      exact List.perm_append_singleton method _
  | overriding declares isConcrete own isVirtual differs replaced =>
      cases method.isFinal with
      | true => exact Or.inl rfl
      | false => exact Or.inr (virtual _ rfl rfl)
  | apart declares isConcrete overridesNothing added =>
      rcases added with same | same | same
      · rw [same]
        exact Or.inr (virtual layout rfl rfl)
      · rw [same]
        exact Or.inl rfl
      · rw [same]
        exact Or.inl rfl

theorem distinct_of_perm_cons {method : MethodDef} {members after : List MethodDef}
    (distinct : Program.Distinct members)
    (fresh : forall earlier, earlier ∈ members -> ¬ earlier.sameSignature method = true)
    (perm : after.Perm (method :: members)) : Program.Distinct after := by
  have symm : forall {first second : MethodDef}, ¬ first.sameSignature second = true ->
      ¬ second.sameSignature first = true :=
    fun differs same => differs (MethodDef.sameSignature_symm same)
  refine (perm.pairwise_iff symm).mpr (List.pairwise_cons.mpr ⟨?_, distinct⟩)
  exact fun earlier member => symm (fresh earlier member)

/-- The slots of a layout are visible methods with different signatures. -/
theorem Layout.members_of_addMethods {linkage : Linkage} {layout final : Layout}
    {methods : List MethodDef} (none : layout.table.members = [])
    (distinct : Program.Distinct methods)
    (folded : methods.foldlM (Layout.addMethod linkage) layout = .ok final) :
    Program.Distinct final.table.members ∧
      (forall slot, slot ∈ final.table.members -> slot ∈ methods) ∧
      final.type = layout.type ∧ final.resolved = layout.resolved := by
  refine Layout.foldlM_addMethod (fun sorted current => Program.Distinct current.table.members ∧
    (forall slot, slot ∈ current.table.members -> slot ∈ sorted) ∧ current.type = layout.type ∧
      current.resolved = layout.resolved) folded ?_ ?_
  · rw [none]
    exact ⟨List.Pairwise.nil, fun slot impossible => impossible, rfl, rfl⟩
  · rintro sorted method current next _ order ⟨distinctNow, included, sameType, sameResolved⟩ step
    have fresh : forall earlier, earlier ∈ current.table.members ->
        ¬ earlier.sameSignature method = true :=
      fun earlier member => List.pairwise_iff_forall_sublist.mp distinct
        (order earlier (included earlier member))
    rcases step.kept with ⟨typeKept, resolvedKept⟩
    rcases step.members_perm with same | perm
    · rw [same]
      exact ⟨distinctNow, fun slot member => List.mem_append_left _ (included slot member),
        typeKept.trans sameType, resolvedKept.trans sameResolved⟩
    · refine ⟨distinct_of_perm_cons distinctNow fresh perm, ?_, typeKept.trans sameType,
        resolvedKept.trans sameResolved⟩
      intro slot member
      rcases List.mem_cons.mp (perm.mem_iff.mp member) with isMethod | earlier
      · exact List.mem_append_right _ (List.mem_singleton.mpr isMethod)
      · exact List.mem_append_left _ (included slot earlier)

/-! ## Layouts without replacements -/

section Unreplaced

variable {linkage : Linkage} {registry : Registry} {token : Token} {own : TypeDef}
  {ancestors : List TypeDef} {layout : Layout}

theorem resolveType_of_unreplaced (unreplaced : linkage.substitutions = []) (token : Token) :
    linkage.resolveType token = token := by
  unfold Linkage.resolveType
  rw [unreplaced]
  rfl

theorem rootType_iff (unreplaced : linkage.substitutions = []) {method : MethodDef}
    {root : Token} :
    Table.rootType linkage method = .ok root ↔ linkage.program.RootedAt method root := by
  constructor
  · intro found
    rcases Result.bind_eq_ok.mp found with ⟨declared, follows, resolves⟩
    rw [resolveType_of_unreplaced unreplaced] at resolves
    exact ⟨declared, follows, Except.ok.inj resolves⟩
  · rintro ⟨declared, follows, declares⟩
    refine Result.bind_eq_ok.mpr ⟨declared, follows, ?_⟩
    rw [resolveType_of_unreplaced unreplaced, declares]

/-- How the layout of a type comes about. -/
structure Assembled (linkage : Linkage) (registry : Registry) (own : TypeDef)
    (ancestors : List TypeDef) (layout : Layout) (base : Option Table) (tables : List Table)
    (methods ownMethods : List MethodDef) : Prop where
  onBase : Option.Rel (Registry.Tabled linkage registry) own.base base
  listed : linkage.program.instanceMethods own.token = .ok methods
  visible : Program.Visible linkage.program own ancestors methods ownMethods
  folded : methods.foldlM (Layout.addMethod linkage) (Layout.start own own.token base tables) =
    .ok layout

theorem assembled_of_made (wellFormed : linkage.program.WellFormed)
    (unreplaced : linkage.substitutions = [])
    (lineage : Program.Lineage linkage.program token (own :: ancestors))
    (made : Registry.Made linkage registry token layout) :
    exists base tables methods ownMethods,
      Assembled linkage registry own ancestors layout base tables methods ownMethods := by
  rcases made with ⟨type, resolved, base, interfaces, tables, origin⟩
  rcases lineage.exists_cons with ⟨first, rest, split, found⟩
  cases split
  have isType : type = own := by
    have declared := origin.declared
    rw [found] at declared
    exact (Except.ok.inj declared).symm
  have isResolved : resolved = own := by
    have resolves := origin.resolves
    rw [resolveType_of_unreplaced unreplaced, found] at resolves
    exact (Except.ok.inj resolves).symm
  have onBase := origin.onBase
  have sorted := origin.sorted
  rw [isType] at onBase sorted
  rw [isResolved] at sorted
  rcases Result.bind_eq_ok.mp sorted with ⟨methods, listed, folded⟩
  have isToken : own.token = token := (Program.token_of_typeDef found).2
  have listedHere : linkage.program.instanceMethods own.token = .ok methods := listed
  rw [← isToken] at lineage
  rcases Program.visible_of_instanceMethods wellFormed lineage listedHere with
    ⟨ownMethods, visible⟩
  exact ⟨base, tables, methods, ownMethods, onBase, listedHere, visible, folded⟩

/-- A slot of a type is rooted at that type or at an ancestor. -/
theorem rootedAt_mem_lineage (wellFormed : linkage.program.WellFormed)
    (unreplaced : linkage.substitutions = [])
    (lineage : Program.Lineage linkage.program token (own :: ancestors))
    (made : Registry.Made linkage registry token layout) {declared : MethodDef}
    (member : declared ∈ layout.table.members) {root : Token}
    (rooted : linkage.program.RootedAt declared root) :
    root ∈ (own :: ancestors).map TypeDef.token := by
  rcases assembled_of_made wellFormed unreplaced lineage made with
    ⟨base, tables, methods, ownMethods, assembled⟩
  have visible := assembled.visible
  rcases Layout.members_of_addMethods rfl visible.distinct assembled.folded with
    ⟨_, included, _⟩
  rcases visible.levels declared (included declared member) with ⟨level, isLevel, declares⟩
  rcases List.append_of_mem isLevel with ⟨front, back, split⟩
  have above : Program.Lineage linkage.program declared.declaring (level :: back) := by
    rw [declares]
    exact lineage.suffix split
  rcases rooted with ⟨rootMethod, follows, rootDeclares⟩
  rcases Program.declaring_of_rootDeclaration wellFormed above follows with
    ⟨rootLevel, isRootLevel, same⟩
  rw [← rootDeclares, same, split]
  exact List.mem_map.mpr ⟨rootLevel, List.mem_append_right front isRootLevel, rfl⟩

end Unreplaced

end Dispatch
end CilGraph
