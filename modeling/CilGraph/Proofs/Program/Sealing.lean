import CilGraph.Proofs.Program.Sound

namespace CilGraph
namespace Program

/-!
# Sealed methods

A final method is sealed: no type further down may override it.  A method that
does so all the same is one whose nearest virtual method on the way up is final.

What such a method descends from depends on the sealed one.  If that is the root
of its slot, then it is the only method from which the slot could descend: the
types in between have no virtual method with its signature, and those above it
come after the root.  If it overrides an older method itself, then both have the
same root, and this lies above the sealed method.
-/

/-- A method of a type overrides a sealed method of a base type.  The type of the
sealed method has no other instance method with its signature. -/
structure OverridesSealed (program : Program) (own : TypeDef) (ancestors : List TypeDef)
    (method sealed : MethodDef) : Prop where
  lineage : Lineage program own.token (own :: ancestors)
  first : exists declared, program.declaredMethods own = .ok declared ∧
    firstInstance? declared method = some method
  isVirtual : method.isVirtual = true
  isConcrete : method.isAbstract = false
  continues : method.startsSlot = false
  nearest : program.overridden? method = .ok (some sealed)
  isFinal : sealed.isFinal = true
  hasBody : sealed.isAbstract = false
  isInstance : sealed.isStatic = false
  alone : forall level declared other, level ∈ ancestors -> sealed.declaring = level.token ->
    program.declaredMethods level = .ok declared -> other ∈ declared -> other.isStatic = false ->
      other.sameSignature sealed = true -> other = sealed

/-- A method that is not its own root overrides another. -/
theorem exists_overridden_of_root {program : Program} {method root : MethodDef}
    (rooted : Rooted program method (.ok root)) (differs : root ≠ method) :
    exists next, program.overridden? method = .ok (some next) := by
  cases rooted with
  | own starts => exact absurd rfl differs
  | first overrides searched => exact absurd rfl differs
  | follows overrides searched walks => exact ⟨_, searched⟩

/-- A method that is not virtual is its own root. -/
theorem rootDeclaration_of_not_virtual {program : Program} (wellFormed : program.WellFormed)
    {method : MethodDef} {type : TypeDef}
    (declared : program.typeDef method.declaring = .ok type)
    (notVirtual : method.isVirtual = false) :
    program.rootDeclaration method = .ok method :=
  (rooted_rootDeclaration wellFormed declared).unique (.own (by rw [notVirtual]; rfl))

/-- The base type on which a sealed method stands.  No type below it has a virtual
method with that signature. -/
structure SealedAt (program : Program) (method sealed : MethodDef) (between : List TypeDef)
    (place : TypeDef) (inPlace : List MethodDef) : Prop where
  listed : program.declaredMethods place = .ok inPlace
  member : sealed ∈ inPlace
  declares : sealed.declaring = place.token
  isVirtual : sealed.isVirtual = true
  signature : sealed.sameSignature method = true
  below : forall lower, lower ∈ between -> exists inLower,
    program.declaredMethods lower = .ok inLower ∧
      forall other, other ∈ inLower -> other.isVirtual = true ->
        ¬ other.sameSignature method = true

section Sealed

variable {program : Program} {own : TypeDef} {ancestors : List TypeDef}
  {method sealed : MethodDef}

theorem OverridesSealed.declaring (overrides : program.OverridesSealed own ancestors method sealed)
    (wellFormed : program.WellFormed) : method.declaring = own.token := by
  rcases overrides.first with ⟨declared, listed, first⟩
  exact wellFormed.declares own (overrides.lineage.mem_types List.mem_cons_self) declared listed
    method (List.mem_of_find?_eq_some first)

theorem OverridesSealed.known (overrides : program.OverridesSealed own ancestors method sealed) :
    program.Known (.method method) := by
  rcases overrides.first with ⟨declared, listed, first⟩
  exact known_of_mem_declaredMethods listed (List.mem_of_find?_eq_some first)

theorem OverridesSealed.exists_sealedAt
    (overrides : program.OverridesSealed own ancestors method sealed)
    (wellFormed : program.WellFormed) :
    exists between place above inPlace, ancestors = between ++ place :: above ∧
      program.SealedAt method sealed between place inPlace := by
  rcases Result.bind_eq_ok.mp overrides.nearest with ⟨walked, walking, searching⟩
  rw [overrides.declaring wellFormed, overrides.lineage.lineage_eq] at walking
  cases walking
  rcases exists_first_of_findSomeM? searching with ⟨between, place, above, within, none, found⟩
  have split : ancestors = between ++ place :: above := within
  rcases Result.bind_eq_ok.mp found with ⟨inPlace, listed, selected⟩
  have chosen := Except.ok.inj selected
  have member := List.mem_of_find?_eq_some chosen
  have holds := List.find?_some chosen
  simp only [Bool.and_eq_true] at holds
  have ofPlace : place ∈ program.types := by
    refine overrides.lineage.mem_types (List.mem_cons_of_mem own ?_)
    rw [split]
    exact List.mem_append_right _ List.mem_cons_self
  refine ⟨between, place, above, inPlace, split, listed, member,
    wellFormed.declares place ofPlace inPlace listed sealed member, holds.1, holds.2, ?_⟩
  intro lower isLower
  rcases Result.bind_eq_ok.mp (none lower isLower) with ⟨inLower, listedLower, selectsNone⟩
  refine ⟨inLower, listedLower, ?_⟩
  intro other among isVirtual signature
  have fails := List.find?_eq_none.mp (Except.ok.inj selectsNone) other among
  exact fails (by rw [isVirtual, signature]; rfl)

theorem OverridesSealed.isDerived
    (overrides : program.OverridesSealed own ancestors method sealed)
    (wellFormed : program.WellFormed) : ancestors ≠ [] := by
  rcases overrides.exists_sealedAt wellFormed with ⟨between, place, above, inPlace, split, _⟩
  rw [split]
  exact List.append_ne_nil_of_right_ne_nil _ (List.cons_ne_nil _ _)

theorem OverridesSealed.token_ne (overrides : program.OverridesSealed own ancestors method sealed)
    (wellFormed : program.WellFormed) : sealed.token ≠ method.token := by
  intro sameToken
  rcases overrides.exists_sealedAt wellFormed with ⟨between, place, above, inPlace, split, stands⟩
  have same : sealed = method := Callable.method.inj
    ((known_of_mem_declaredMethods stands.listed stands.member).eq_of_token overrides.known
      sameToken)
  have sameType : place.token = own.token := by
    rw [← stands.declares, same, overrides.declaring wellFormed]
  have twice := (List.nodup_cons.mp overrides.lineage.nodup).1
  rw [split, ← sameType] at twice
  exact twice (List.mem_map_of_mem (List.mem_append_right _ List.mem_cons_self))

/-- The sealed method is the first of its type with its signature. -/
theorem OverridesSealed.firstInstance
    (overrides : program.OverridesSealed own ancestors method sealed) {between : List TypeDef}
    {place : TypeDef} {inPlace : List MethodDef} (isAncestor : place ∈ ancestors)
    (stands : program.SealedAt method sealed between place inPlace) :
    firstInstance? inPlace sealed = some sealed := by
  cases found : firstInstance? inPlace sealed with
  | none =>
      have fails := List.find?_eq_none.mp found sealed stands.member
      rw [overrides.isInstance, MethodDef.sameSignature_refl] at fails
      exact absurd rfl fails
  | some other =>
      have holds := List.find?_some found
      simp only [Bool.and_eq_true, Bool.not_eq_true'] at holds
      exact congrArg some (overrides.alone place inPlace other isAncestor stands.declares
        stands.listed (List.mem_of_find?_eq_some found) holds.1 holds.2)

/-- Both methods have the same root. -/
theorem OverridesSealed.sameRoot (overrides : program.OverridesSealed own ancestors method sealed)
    (wellFormed : program.WellFormed) :
    program.rootDeclaration method = program.rootDeclaration sealed := by
  have declared := overrides.lineage.typeDef_of_mem List.mem_cons_self
  rw [← overrides.declaring wellFormed] at declared
  refine rootDeclaration_eq_of_overridden? wellFormed declared ?_ overrides.nearest
  rw [overrides.isVirtual, overrides.continues]
  rfl

/-- Where the sealed method is a root, nothing else that a base type offers with its
signature descends from its type. -/
theorem OverridesSealed.eq_of_rooted
    (overrides : program.OverridesSealed own ancestors method sealed)
    (wellFormed : program.WellFormed) {level : TypeDef} {declared : List MethodDef}
    {other root : MethodDef} (isAncestor : level ∈ ancestors)
    (listed : program.declaredMethods level = .ok declared) (among : other ∈ declared)
    (isInstance : other.isStatic = false) (signature : other.sameSignature method = true)
    (follows : program.rootDeclaration other = .ok root)
    (sameType : root.declaring = sealed.declaring) : other = sealed := by
  rcases overrides.exists_sealedAt wellFormed with ⟨between, place, above, inPlace, split, stands⟩
  have ofLevel : level ∈ own :: ancestors := List.mem_cons_of_mem own isAncestor
  have declares : other.declaring = level.token :=
    wellFormed.declares level (overrides.lineage.mem_types ofLevel) declared listed other among
  have foundLevel := overrides.lineage.typeDef_of_mem ofLevel
  have distinct := (List.nodup_cons.mp overrides.lineage.nodup).2
  rw [split, List.map_append, List.map_cons] at distinct
  rcases List.nodup_append.mp distinct with ⟨_, upper, apart⟩
  have position := isAncestor
  rw [split] at position
  rcases List.mem_append.mp position with isLower | higher
  · -- Below the sealed method nothing with its signature is virtual, so it is its own root.
    rcases stands.below level isLower with ⟨inLower, listedLower, plain⟩
    rw [listed] at listedLower
    cases listedLower
    have notVirtual : other.isVirtual = false :=
      Bool.eq_false_iff.mpr (fun isVirtual => plain other among isVirtual signature)
    rw [← declares] at foundLevel
    rw [rootDeclaration_of_not_virtual wellFormed foundLevel notVirtual] at follows
    rw [← Except.ok.inj follows, declares, stands.declares] at sameType
    exact absurd sameType (apart _ (List.mem_map_of_mem isLower) _ List.mem_cons_self)
  · rcases List.mem_cons.mp higher with isPlace | isAbove
    · rw [isPlace] at listed
      refine overrides.alone place declared other ?_ stands.declares listed among isInstance
        (MethodDef.sameSignature_trans signature (MethodDef.sameSignature_symm stands.signature))
      rw [← isPlace]
      exact isAncestor
    · -- The root of a method above the sealed one stands above it as well.
      rcases List.append_of_mem isAbove with ⟨front, back, within⟩
      have whole : own :: ancestors = (own :: between ++ place :: front) ++ level :: back := by
        rw [split, within]
        simp
      have upwards : Lineage program other.declaring (level :: back) := by
        rw [declares]
        exact overrides.lineage.suffix whole
      rcases declaring_of_rootDeclaration wellFormed upwards follows with
        ⟨rootLevel, isRootLevel, rootDeclares⟩
      have rootAbove : rootLevel ∈ above := by
        rw [within]
        exact List.mem_append_right _ isRootLevel
      rw [rootDeclares, stands.declares] at sameType
      have twice := (List.nodup_cons.mp upper).1
      rw [← sameType] at twice
      exact absurd (List.mem_map_of_mem rootAbove) twice

end Sealed
end Program
end CilGraph
