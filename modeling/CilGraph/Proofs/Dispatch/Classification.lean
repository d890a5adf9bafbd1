import CilGraph.Proofs.Dispatch.Sealing

namespace CilGraph

/-!
# How the methods of a type are sorted

The methods that are visible on a type are sorted one by one, by conditions that
overlap and are tried in turn, and one of them also changes the table of the base type.
The outcome is simpler than the way to it.  Whether a method gets a slot, and of which
kind, is said by its attributes alone, and whether it is kept without a slot, by its
attributes and the type that declares it.  So each of the three lists of a layout is a
filter of the visible methods, in their order.

The three filters exclude each other, and a method that the type declares itself passes
one of them.  Such a method therefore stands in exactly one list.  What is left out is
inherited and has no slot of its own.
-/

namespace MethodDef

/-- The method has a slot that a derived type can take over, and a body. -/
def isOpen (method : MethodDef) : Bool :=
  !method.isAbstract && method.isVirtual && !method.isFinal

/-- The method is declared by a type and is called without a slot. -/
def isDirect (declaring : Token) (method : MethodDef) : Bool :=
  !method.isAbstract && method.declaring == declaring && (!method.isVirtual || method.isFinal)

end MethodDef

namespace Program

variable {program : Program} {token : Token} {methods : List MethodDef}

theorem distinct_instanceMethods (listed : program.instanceMethods token = .ok methods) :
    Distinct methods := by
  rcases instanceMethods_eq_ok listed with
    ⟨_, rfl⟩ | ⟨own, ancestors, declared, inherited, _, collected⟩
  · exact List.Pairwise.nil
  · exact collected.distinct

theorem isInstance_of_contributed {own : Bool} {level : TypeDef}
    (contributes : program.contributed own level = .ok methods) {method : MethodDef}
    (member : method ∈ methods) : method.isStatic = false := by
  rcases contributed_eq_ok contributes with ⟨declared, _, rfl⟩
  simp only [List.mem_filter, Bool.and_eq_true, Bool.not_eq_true'] at member
  exact member.2.1

theorem isInstance_of_mem_instanceMethods (listed : program.instanceMethods token = .ok methods)
    {method : MethodDef} (member : method ∈ methods) : method.isStatic = false := by
  rcases instanceMethods_eq_ok listed with
    ⟨_, rfl⟩ | ⟨own, ancestors, declared, inherited, _, collected⟩
  · cases member
  · rw [collected.collected] at member
    rcases mem_foldl_addVisible.1 member with inOwn | ⟨group, among, inGroup⟩
    · rcases mem_addVisible inOwn with impossible | shown
      · cases impossible
      · exact isInstance_of_contributed collected.ofOwn shown
    · rcases Result.exists_of_mem_right collected.ofAncestors among with ⟨level, _, contributes⟩
      exact isInstance_of_contributed contributes inGroup

end Program

namespace Dispatch
namespace Layout

/-- The three lists of a layout are filters of a list of methods. -/
structure Classifies (layout : Layout) (methods : List MethodDef) : Prop where
  virtuals : layout.virtuals = methods.filter MethodDef.isOpen
  abstracts : layout.abstracts = methods.filter MethodDef.isAbstract
  nonVirtuals : layout.nonVirtuals = methods.filter (MethodDef.isDirect layout.resolved)

section Sorting

variable {linkage : Linkage} {layout next : Layout} {methods : List MethodDef}
  {method : MethodDef}

theorem classifies_start (type : TypeDef) (resolved : Token) (base : Option Table)
    (interfaces : List Table) : (start type resolved base interfaces).Classifies [] :=
  ⟨rfl, rfl, rfl⟩

theorem Classifies.withBase (classifies : layout.Classifies methods) (base : Option Table) :
    { layout with base := base }.Classifies methods :=
  ⟨classifies.virtuals, classifies.abstracts, classifies.nonVirtuals⟩

theorem Classifies.addAbstract (classifies : layout.Classifies methods)
    (isAbstract : method.isAbstract = true) :
    (layout.addAbstract method).Classifies (methods ++ [method]) := by
  constructor
  · simp [Layout.addAbstract, classifies.virtuals, MethodDef.isOpen, isAbstract]
  · simp [Layout.addAbstract, classifies.abstracts, isAbstract]
  · simp [Layout.addAbstract, classifies.nonVirtuals, MethodDef.isDirect, isAbstract]

theorem Classifies.addVirtual (classifies : layout.Classifies methods)
    (isConcrete : method.isAbstract = false) (isVirtual : method.isVirtual = true)
    (notFinal : method.isFinal = false) :
    (layout.addVirtual method).Classifies (methods ++ [method]) := by
  constructor
  · simp [Layout.addVirtual, classifies.virtuals, MethodDef.isOpen, isConcrete, isVirtual, notFinal]
  · simp [Layout.addVirtual, classifies.abstracts, isConcrete]
  · simp [Layout.addVirtual, classifies.nonVirtuals, MethodDef.isDirect, isVirtual, notFinal]

theorem Classifies.addNonVirtual (classifies : layout.Classifies methods)
    (isConcrete : method.isAbstract = false) (own : method.declaring = layout.resolved)
    (closed : method.isVirtual = false ∨ method.isFinal = true) :
    (layout.addNonVirtual method).Classifies (methods ++ [method]) := by
  constructor
  · rcases closed with notVirtual | isFinal
    · simp [Layout.addNonVirtual, classifies.virtuals, MethodDef.isOpen, notVirtual]
    · simp [Layout.addNonVirtual, classifies.virtuals, MethodDef.isOpen, isFinal]
  · simp [Layout.addNonVirtual, classifies.abstracts, isConcrete]
  · simp [Layout.addNonVirtual, classifies.nonVirtuals, MethodDef.isDirect, isConcrete, own, closed]

theorem Classifies.skip (classifies : layout.Classifies methods)
    (isConcrete : method.isAbstract = false) (inherited : method.declaring ≠ layout.resolved)
    (closed : method.isVirtual = false ∨ method.isFinal = true) :
    layout.Classifies (methods ++ [method]) := by
  constructor
  · rcases closed with notVirtual | isFinal
    · simp [classifies.virtuals, MethodDef.isOpen, notVirtual]
    · simp [classifies.virtuals, MethodDef.isOpen, isFinal]
  · simp [classifies.abstracts, isConcrete]
  · simp [classifies.nonVirtuals, MethodDef.isDirect, inherited]

/-- Sorting one method appends it to the list whose filter it passes, whichever of the
conditions applies. -/
theorem Classifies.addMethod (classifies : layout.Classifies methods)
    (added : Layout.addMethod linkage layout method = .ok next) :
    next.Classifies (methods ++ [method]) ∧ next.resolved = layout.resolved := by
  have keeps := (Layout.addMethod_eq_ok added).kept.2
  refine ⟨?_, keeps⟩
  rcases Result.bind_eq_ok.mp added with ⟨root, _, sorted⟩
  by_cases isAbstract : method.isAbstract = true
  · rw [if_pos isAbstract] at sorted
    cases sorted
    exact classifies.addAbstract isAbstract
  · rw [if_neg isAbstract] at sorted
    have isConcrete := Bool.eq_false_iff.mpr isAbstract
    by_cases overrides : (method.declaring == layout.resolved && method.isVirtual &&
        root.token != method.token) = true
    · rw [if_pos overrides] at sorted
      rcases Result.bind_eq_ok.mp sorted with ⟨changed, replaced, assembled⟩
      rcases Result.bind_eq_ok.mp replaced with ⟨base, _, rebased⟩
      cases rebased
      simp only [Bool.and_eq_true, beq_iff_eq] at overrides
      have onBase := classifies.withBase base
      by_cases isFinal : method.isFinal = true
      · rw [if_pos isFinal] at assembled
        cases assembled
        exact onBase.addNonVirtual isConcrete overrides.1.1 (Or.inr isFinal)
      · rw [if_neg isFinal] at assembled
        cases assembled
        exact onBase.addVirtual isConcrete overrides.1.2 (Bool.eq_false_iff.mpr isFinal)
    · rw [if_neg overrides] at sorted
      by_cases isOpen : (method.isVirtual && !method.isFinal) = true
      · rw [if_pos isOpen] at sorted
        cases sorted
        simp only [Bool.and_eq_true, Bool.not_eq_true'] at isOpen
        exact classifies.addVirtual isConcrete isOpen.1 isOpen.2
      · rw [if_neg isOpen] at sorted
        have closed : method.isVirtual = false ∨ method.isFinal = true := by
          simpa [imp_iff_not_or] using isOpen
        by_cases own : (method.declaring == layout.resolved) = true
        · rw [if_pos own] at sorted
          cases sorted
          exact classifies.addNonVirtual isConcrete (eq_of_beq own) closed
        · rw [if_neg own] at sorted
          cases sorted
          exact classifies.skip isConcrete (fun same => own (beq_iff_eq.mpr same)) closed

/-- Sorting all methods, by induction on those that are left. -/
theorem Classifies.foldlM {before rest : List MethodDef} {final : Layout}
    (classifies : layout.Classifies before)
    (folded : rest.foldlM (Layout.addMethod linkage) layout = .ok final) :
    final.Classifies (before ++ rest) ∧ final.resolved = layout.resolved := by
  induction rest generalizing before layout with
  | nil =>
      cases folded
      rw [List.append_nil]
      exact ⟨classifies, rfl⟩
  | cons method rest inductionHypothesis =>
      rw [List.foldlM_cons] at folded
      rcases Result.bind_eq_ok.mp folded with ⟨next, added, continued⟩
      rcases classifies.addMethod added with ⟨classifiesNext, kept⟩
      rcases inductionHypothesis classifiesNext continued with ⟨classifiesAll, keptAll⟩
      rw [List.append_assoc, List.singleton_append] at classifiesAll
      exact ⟨classifiesAll, keptAll.trans kept⟩

/-- A method that the type declares itself stands in one list, and once. -/
theorem Classifies.count_own (classifies : layout.Classifies methods)
    (distinct : Program.Distinct methods) (member : method ∈ methods)
    (own : method.declaring = layout.resolved) :
    (layout.virtuals ++ layout.abstracts ++ layout.nonVirtuals).count method = 1 := by
  have nodup : methods.Nodup := by
    refine distinct.imp ?_
    rintro first _ differs rfl
    exact differs first.sameSignature_refl
  rw [classifies.virtuals, classifies.abstracts, classifies.nonVirtuals, List.count_append,
    List.count_append, (nodup.filter _).count, (nodup.filter _).count, (nodup.filter _).count]
  simp only [List.mem_filter, member, true_and, MethodDef.isOpen, MethodDef.isDirect, own]
  cases method.isAbstract <;> cases method.isVirtual <;> cases method.isFinal <;> simp

end Sorting
end Layout

/-! ## Making a layout -/

namespace Registry

/-- What a layout says about the methods that are visible on its type. -/
structure Partitions (layout : Layout) (methods : List MethodDef) : Prop where
  classifies : layout.Classifies methods
  /-- A method that the type declares itself stands in one list, and once. -/
  once : forall method, method ∈ methods -> method.declaring = layout.resolved ->
    (layout.virtuals ++ layout.abstracts ++ layout.nonVirtuals).count method = 1
  members : layout.table.members = layout.virtuals ++ layout.abstracts
  distinct : Program.Distinct layout.table.members
  instances : forall slot, slot ∈ layout.table.members -> slot.isStatic = false

/-- Whatever the tables of other types are, a layout that can be made sorts the methods
that are visible on the type. -/
theorem makeLayout_partitions {linkage : Linkage} {obtain : Token -> Action Table}
    {token : Token} {registry later : Registry} {layout : Layout}
    (made : makeLayout linkage obtain token registry = (.ok layout, later)) :
    exists resolved methods,
      linkage.program.typeDef (linkage.resolveType token) = .ok resolved ∧
      linkage.program.instanceMethods resolved.token = .ok methods ∧
      layout.resolved = resolved.token ∧ Partitions layout methods := by
  rcases madeOf_of_makeLayout made with ⟨type, resolved, base, interfaces, tables, parts, sorted⟩
  rcases Result.bind_eq_ok.mp sorted with ⟨methods, listed, folded⟩
  have start := Layout.classifies_start type resolved.token base tables
  rcases start.foldlM folded with ⟨classifies, kept⟩
  have distinct := Program.distinct_instanceMethods listed
  rcases Layout.members_of_addMethods rfl distinct folded with ⟨distinctMembers, included, _⟩
  refine ⟨resolved, methods, parts.resolves, listed, kept, classifies, ?_, rfl, distinctMembers, ?_⟩
  · intro method member own
    exact classifies.count_own distinct member own
  · intro slot member
    exact Program.isInstance_of_mem_instanceMethods listed (included slot member)

/-- A robot plays in its own way, is wound up in a way that is final, and is yet to learn
how to talk.  It has its name and its hue from the toy. -/
def sampleToys : List DraftStep := [
  .type none "Demo" "Toy" TypeAttributes.exported none,
  .method none ⟨0x02000001⟩ "Play" ⟨6, 0x0040, 0x0100⟩ none [] (some ⟨8, true, [0x2A]⟩),
  .method none ⟨0x02000001⟩ "Wind" ⟨6, 0x0440, 0x0100⟩ none [] none,
  .method none ⟨0x02000001⟩ "Name" ⟨6, 0, 0⟩ none [] (some ⟨8, true, [0x2A]⟩),
  .method none ⟨0x02000001⟩ "Hue" ⟨6, 0x0040, 0x0100⟩ none [] (some ⟨8, true, [0x2A]⟩),
  .type none "Demo" "Robot" TypeAttributes.exported (some ⟨0x02000001⟩),
  .method none ⟨0x02000002⟩ "Play" ⟨6, 0x0040, 0⟩ none [] (some ⟨8, true, [0x2A]⟩),
  .method none ⟨0x02000002⟩ "Make" ⟨6, 0x0010, 0⟩ none [] (some ⟨8, true, [0x2A]⟩),
  .method none ⟨0x02000002⟩ "Wind" ⟨6, 0x0060, 0⟩ none [] (some ⟨8, true, [0x2A]⟩),
  .method none ⟨0x02000002⟩ "Beep" ⟨6, 0, 0⟩ none [] (some ⟨8, true, [0x2A]⟩),
  .method none ⟨0x02000002⟩ "Talk" ⟨6, 0x0440, 0x0100⟩ none [] none]

def sampleToysLinkage : Linkage :=
  ⟨(Draft.ofSteps sampleToys).build.toOption.getD ⟨[], [], [], [], []⟩, [], []⟩

/-- What the layout of the robot comes to. -/
def sampleRobot : Result Layout × Registry :=
  makeLayout sampleToysLinkage (Registry.table sampleToysLinkage) ⟨0x02000002⟩ {}

theorem sampleRobot_partitions : exists layout later methods, sampleRobot = (.ok layout, later) ∧
    sampleToysLinkage.program.instanceMethods ⟨0x02000002⟩ = .ok methods ∧
    Partitions layout methods ∧
    layout.virtuals.map MethodDef.name = ["Play", "Hue"] ∧
    layout.abstracts.map MethodDef.name = ["Talk"] ∧
    layout.nonVirtuals.map MethodDef.name = ["Wind", "Beep"] := by
  have succeeds : sampleRobot.1.isOk = true := by decide +kernel
  have lists : sampleRobot.1.map (fun layout => [layout.virtuals, layout.abstracts,
      layout.nonVirtuals].map (fun methods => methods.map MethodDef.name)) =
        .ok [["Play", "Hue"], ["Talk"], ["Wind", "Beep"]] := by decide +kernel
  rcases outcome : sampleRobot with ⟨result, later⟩
  rw [outcome] at succeeds lists
  cases result with
  | error error => cases succeeds
  | ok layout =>
      rcases makeLayout_partitions outcome with ⟨resolved, methods, resolves, listed, _, partitions⟩
      have isToken : resolved.token = ⟨0x02000002⟩ := (Program.token_of_typeDef resolves).2
      rw [isToken] at listed
      have names := Except.ok.inj lists
      simp only [List.map_cons, List.map_nil, List.cons.injEq, and_true] at names
      exact ⟨layout, later, methods, rfl, listed, partitions, names⟩

end Registry
end Dispatch
end CilGraph
