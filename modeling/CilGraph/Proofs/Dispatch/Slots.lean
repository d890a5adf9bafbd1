import CilGraph.Proofs.Dispatch.Growth
import CilGraph.Proofs.Program.Inheritance

namespace CilGraph
namespace Dispatch

/-!
# How slots change

A method that overrides is put into the first slot that it fits, in one table
after another along the chain of base tables, until the table of the type that
declared its root has been done.  `SlotReplaced` and `replaceSlots_eq_ok` say
this without the loops.  `Sorted` lists what becomes of one method when the
layout of a type is made.

It follows that a table never gets a slot from anywhere but the program: every
slot of every layout that a registry can hold is a known method.
-/

namespace Table

/-- A slot descends from a root and has the signature of a method. -/
def Fits (linkage : Linkage) (method : MethodDef) (root : Token) (slot : MethodDef) : Prop :=
  rootType linkage slot = .ok root ∧ slot.sameSignature method = true

/-- The first slot that a method fits is replaced by it, if there is one. -/
inductive SlotReplaced (linkage : Linkage) (method : MethodDef) (root : Token) :
    List MethodDef -> List MethodDef -> Bool -> Prop
  | unchanged {slots : List MethodDef}
      (none : forall slot, slot ∈ slots -> ¬ Fits linkage method root slot) :
      SlotReplaced linkage method root slots slots false
  | replaced {front back : List MethodDef} {slot : MethodDef}
      (first : forall earlier, earlier ∈ front -> ¬ Fits linkage method root earlier)
      (fits : Fits linkage method root slot) :
      SlotReplaced linkage method root (front ++ slot :: back) (front ++ method :: back) true

section Replacement

variable {linkage : Linkage} {method : MethodDef} {root : Token}

theorem replaceSlot_eq_ok {slots after : List MethodDef} {replaced : Bool}
    (succeeded : replaceSlot linkage method root slots = .ok (after, replaced)) :
    SlotReplaced linkage method root slots after replaced := by
  induction slots generalizing after replaced with
  | nil =>
      cases succeeded
      exact .unchanged (fun slot member => absurd member List.not_mem_nil)
  | cons slot rest inductionHypothesis =>
      rcases Result.bind_eq_ok.mp succeeded with ⟨slotRoot, ofSlot, chosen⟩
      by_cases fits : slotRoot = root ∧ slot.sameSignature method = true
      · rw [if_pos fits] at chosen
        cases chosen
        rw [fits.1] at ofSlot
        have none : forall earlier, earlier ∈ ([] : List MethodDef) ->
            ¬ Fits linkage method root earlier :=
          fun earlier member => absurd member List.not_mem_nil
        exact .replaced none ⟨ofSlot, fits.2⟩
      · rw [if_neg fits] at chosen
        have headFails : ¬ Fits linkage method root slot := by
          rintro ⟨sameRoot, sameSignature⟩
          rw [ofSlot] at sameRoot
          exact fits ⟨Except.ok.inj sameRoot, sameSignature⟩
        rcases Result.bind_eq_ok.mp chosen with ⟨⟨changed, flag⟩, later, assembled⟩
        cases assembled
        cases inductionHypothesis later with
        | unchanged none =>
            refine .unchanged ?_
            intro other member
            rcases List.mem_cons.mp member with same | among
            · rw [same]
              exact headFails
            · exact none other among
        | replaced first fitsLater =>
            rename_i front back found
            have firstAll : forall earlier, earlier ∈ slot :: front ->
                ¬ Fits linkage method root earlier := by
              intro earlier member
              rcases List.mem_cons.mp member with same | among
              · rw [same]
                exact headFails
              · exact first earlier among
            exact .replaced firstAll fitsLater

theorem SlotReplaced.mem {slots after : List MethodDef} {replaced : Bool}
    (change : SlotReplaced linkage method root slots after replaced) {slot : MethodDef}
    (member : slot ∈ after) : slot = method ∨ slot ∈ slots := by
  cases change with
  | unchanged none => exact Or.inr member
  | replaced first fits =>
      rcases List.mem_append.mp member with before | later
      · exact Or.inr (List.mem_append_left _ before)
      · rcases List.mem_cons.mp later with same | after
        · exact Or.inl same
        · exact Or.inr (List.mem_append_right _ (List.mem_cons_of_mem _ after))

/-- Replacing slots in a table succeeds if it succeeds for the slots and, unless the
root is reached, for the base table. -/
theorem replaceSlots_eq_ok_iff {table after : Table} {replaced : Bool} :
    replaceSlots linkage method root table = .ok (after, replaced) ↔
      exists members here base below,
        replaceSlot linkage method root table.members = .ok (members, here) ∧
        (if root = table.resolved then .ok (table.base, false)
          else replaceSlots.replaceBase linkage method root table.base) = .ok (base, below) ∧
        after = { table with members := members, base := base } ∧
        replaced = (here || below) := by
  cases table
  rename_i type resolved name slots base interfaces offset regionSize conversionOffset conversions
  rw [replaceSlots]
  constructor
  · intro succeeded
    rcases Result.bind_eq_ok.mp succeeded with ⟨⟨members, here⟩, ofMembers, continued⟩
    by_cases reached : root = resolved
    · simp only [if_pos reached] at continued ⊢
      cases continued
      exact ⟨members, here, base, false, ofMembers, rfl, rfl, rfl⟩
    · simp only [if_neg reached] at continued ⊢
      rcases Result.bind_eq_ok.mp continued with ⟨⟨changed, below⟩, ofBase, assembled⟩
      cases assembled
      exact ⟨members, here, changed, below, ofMembers, ofBase, rfl, rfl⟩
  · rintro ⟨members, here, changed, below, ofMembers, ofBase, rfl, rfl⟩
    refine Result.bind_eq_ok.mpr ⟨(members, here), ofMembers, ?_⟩
    by_cases reached : root = resolved
    · simp only [if_pos reached] at ofBase ⊢
      cases ofBase
      rfl
    · simp only [if_neg reached] at ofBase ⊢
      exact Result.bind_eq_ok.mpr ⟨(changed, below), ofBase, rfl⟩

/-- Slots are replaced in a table, and below it unless the root is reached. -/
theorem replaceSlots_eq_ok {table after : Table} {replaced : Bool}
    (succeeded : replaceSlots linkage method root table = .ok (after, replaced)) :
    exists members here base below,
      SlotReplaced linkage method root table.members members here ∧
      after = { table with members := members, base := base } ∧
      replaced = (here || below) ∧
      ((root = table.resolved ∧ base = table.base ∧ below = false) ∨
        (root ≠ table.resolved ∧
          replaceSlots.replaceBase linkage method root table.base = .ok (base, below))) := by
  rcases replaceSlots_eq_ok_iff.mp succeeded with
    ⟨members, here, base, below, ofMembers, ofBase, rfl, rfl⟩
  refine ⟨members, here, base, below, replaceSlot_eq_ok ofMembers, rfl, rfl, ?_⟩
  by_cases reached : root = table.resolved
  · rw [if_pos reached] at ofBase
    cases ofBase
    exact Or.inl ⟨reached, rfl, rfl⟩
  · rw [if_neg reached] at ofBase
    exact Or.inr ⟨reached, ofBase⟩

theorem replaceBase_eq_ok {base after : Option Table} {replaced : Bool}
    (succeeded : replaceSlots.replaceBase linkage method root base = .ok (after, replaced)) :
    (base = none ∧ after = none ∧ replaced = false) ∨
      exists table changed, base = some table ∧ after = some changed ∧
        replaceSlots linkage method root table = .ok (changed, replaced) := by
  cases base with
  | none =>
      cases succeeded
      exact Or.inl ⟨rfl, rfl, rfl⟩
  | some table =>
      unfold replaceSlots.replaceBase at succeeded
      rcases Result.bind_eq_ok.mp succeeded with ⟨⟨changed, flag⟩, ofTable, assembled⟩
      cases assembled
      exact Or.inr ⟨table, changed, rfl, rfl, ofTable⟩

/-- An override that has to match has put the method into some slot. -/
theorem override_eq_ok {table after : Table}
    (succeeded : override linkage method true table = .ok after) :
    exists root, rootType linkage method = .ok root ∧
      replaceSlots linkage method root table = .ok (after, true) := by
  rcases Result.bind_eq_ok.mp succeeded with ⟨found, ofMethod, continued⟩
  rcases Result.bind_eq_ok.mp continued with ⟨⟨changed, flag⟩, ofTable, checked⟩
  cases flag with
  | false => cases checked
  | true =>
      cases checked
      exact ⟨found, ofMethod, ofTable⟩

end Replacement

/-- Induction along the chain of base tables. -/
theorem baseInduction {motive : Table -> Prop}
    (step : forall table, (forall base, table.base = some base -> motive base) -> motive table) :
    forall table, motive table
  | ⟨_, _, _, _, none, _, _, _, _, _⟩ => step _ (fun _ impossible => (nomatch impossible))
  | ⟨_, _, _, _, some base, _, _, _, _, _⟩ =>
    step _ (fun _ same => Option.some.inj same ▸ baseInduction step base)

theorem slots_eq (table : Table) :
    table.slots = table.members ++ slotsOfBase table.base ++ slotsOfList table.interfaces := by
  cases table
  rw [slots]

theorem mem_slotsOfList {slot : MethodDef} {tables : List Table} :
    slot ∈ slotsOfList tables ↔ exists table, table ∈ tables ∧ slot ∈ table.slots := by
  induction tables with
  | nil => simp [slotsOfList]
  | cons table rest inductionHypothesis => simp [slotsOfList, inductionHypothesis]

/-- Replacing slots brings in no method but the overriding one. -/
theorem mem_slots_of_replaceSlots {linkage : Linkage} {method : MethodDef} {root : Token}
    {table after : Table} {replaced : Bool}
    (succeeded : replaceSlots linkage method root table = .ok (after, replaced))
    {slot : MethodDef} (member : slot ∈ after.slots) : slot = method ∨ slot ∈ table.slots := by
  induction table using baseInduction generalizing after replaced with
  | step table inductionHypothesis =>
      rcases replaceSlots_eq_ok succeeded with
        ⟨members, here, base, below, change, same, _, ofBase⟩
      rw [same, slots_eq] at member
      rw [slots_eq]
      rcases List.mem_append.mp member with inTables | inInterfaces
      · rcases List.mem_append.mp inTables with inMembers | inBase
        · rcases change.mem inMembers with isMethod | earlier
          · exact Or.inl isMethod
          · exact Or.inr (List.mem_append_left _ (List.mem_append_left _ earlier))
        · have inBaseBefore : slot = method ∨ slot ∈ slotsOfBase table.base := by
            rcases ofBase with ⟨_, sameBase, _⟩ | ⟨_, replacedBase⟩
            · rw [sameBase] at inBase
              exact Or.inr inBase
            · rcases replaceBase_eq_ok replacedBase with
                ⟨_, isNone, _⟩ | ⟨inner, changed, isBase, isChanged, ofInner⟩
              · rw [isNone] at inBase
                cases inBase
              · rw [isChanged] at inBase
                rw [isBase]
                exact inductionHypothesis inner isBase ofInner inBase
          rcases inBaseBefore with isMethod | earlier
          · exact Or.inl isMethod
          · exact Or.inr (List.mem_append_left _ (List.mem_append_right _ earlier))
      · exact Or.inr (List.mem_append_right _ inInterfaces)

theorem mem_replaceToken {token : Token} {replacement slot : MethodDef} {slots : List MethodDef}
    (member : slot ∈ replaceToken token replacement slots) :
    slot = replacement ∨ slot ∈ slots := by
  induction slots with
  | nil => cases member
  | cons first rest inductionHypothesis =>
      unfold replaceToken at member
      split at member
      · rcases List.mem_cons.mp member with same | later
        · exact Or.inl same
        · exact Or.inr (List.mem_cons_of_mem first later)
      · rcases List.mem_cons.mp member with same | later
        · exact Or.inr (same ▸ List.mem_cons_self)
        · rcases inductionHypothesis later with isReplacement | earlier
          · exact Or.inl isReplacement
          · exact Or.inr (List.mem_cons_of_mem first earlier)

theorem mem_slots_of_implement {table : Table} {target replacement slot : MethodDef}
    (member : slot ∈ (table.implement target replacement).slots) :
    slot = replacement ∨ slot ∈ table.slots := by
  rw [slots_eq] at member ⊢
  rcases List.mem_append.mp member with inTables | inInterfaces
  · rcases List.mem_append.mp inTables with inMembers | inBase
    · rcases mem_replaceToken inMembers with isReplacement | earlier
      · exact Or.inl isReplacement
      · exact Or.inr (List.mem_append_left _ (List.mem_append_left _ earlier))
    · exact Or.inr (List.mem_append_left _ (List.mem_append_right _ inBase))
  · exact Or.inr (List.mem_append_right _ inInterfaces)

end Table

/-! ## Sorting a method -/

/-- What becomes of a method when the layout of a type is made. -/
inductive Layout.Sorted (linkage : Linkage) (layout : Layout) (method : MethodDef) :
    Layout -> Prop
  | abstract (isAbstract : method.isAbstract = true) :
      Sorted linkage layout method (layout.addAbstract method)
  /-- It takes over slots of the base type. -/
  | overriding {root : MethodDef} {base : Option Table}
      (declares : linkage.program.rootDeclaration method = .ok root)
      (isConcrete : method.isAbstract = false) (own : method.declaring = layout.resolved)
      (isVirtual : method.isVirtual = true) (differs : root.token ≠ method.token)
      (replaced : layout.base.mapM (Table.override linkage method true) = .ok base) :
      Sorted linkage layout method
        (if method.isFinal then { layout with base := base }.addNonVirtual method
          else { layout with base := base }.addVirtual method)
  /-- It takes over no slot of the base type, and may have one of its own. -/
  | apart {root : MethodDef} {next : Layout}
      (declares : linkage.program.rootDeclaration method = .ok root)
      (isConcrete : method.isAbstract = false)
      (overridesNothing : ¬ (method.declaring = layout.resolved ∧ method.isVirtual = true ∧
        root.token ≠ method.token))
      (added : next = layout.addVirtual method ∨ next = layout.addNonVirtual method ∨
        next = layout) : Sorted linkage layout method next

/-- Sorting a method leaves the interfaces of a layout alone, and changes its base
table by overriding only. -/
theorem Layout.Sorted.tables {linkage : Linkage} {layout next : Layout} {method : MethodDef}
    (sorted : Layout.Sorted linkage layout method next) :
    next.interfaces = layout.interfaces ∧ (next.base = layout.base ∨
      layout.base.mapM (Table.override linkage method true) = .ok next.base) := by
  cases sorted with
  | abstract isAbstract => exact ⟨rfl, Or.inl rfl⟩
  | overriding declares isConcrete own isVirtual differs replaced =>
      cases method.isFinal with
      | true => exact ⟨rfl, Or.inr replaced⟩
      | false => exact ⟨rfl, Or.inr replaced⟩
  | apart declares isConcrete overridesNothing added =>
      rcases added with same | same | same <;> rw [same] <;> exact ⟨rfl, Or.inl rfl⟩

theorem Layout.addMethod_eq_ok {linkage : Linkage} {layout next : Layout} {method : MethodDef}
    (succeeded : Layout.addMethod linkage layout method = .ok next) :
    Sorted linkage layout method next := by
  rcases Result.bind_eq_ok.mp succeeded with ⟨root, declares, sorted⟩
  by_cases isAbstract : method.isAbstract = true
  · rw [if_pos isAbstract] at sorted
    cases sorted
    exact .abstract isAbstract
  · rw [if_neg isAbstract] at sorted
    have isConcrete := Bool.eq_false_iff.mpr isAbstract
    by_cases overrides : (method.declaring == layout.resolved && method.isVirtual &&
        root.token != method.token) = true
    · rw [if_pos overrides] at sorted
      rcases Result.bind_eq_ok.mp sorted with ⟨changed, replaced, assembled⟩
      rcases Result.bind_eq_ok.mp replaced with ⟨base, ofBase, rebased⟩
      cases rebased
      cases assembled
      simp only [Bool.and_eq_true, beq_iff_eq, bne_iff_ne] at overrides
      exact .overriding declares isConcrete overrides.1.1 overrides.1.2 overrides.2 ofBase
    · rw [if_neg overrides] at sorted
      refine .apart declares isConcrete ?_ ?_
      · rintro ⟨own, isVirtual, differs⟩
        apply overrides
        simp only [Bool.and_eq_true, beq_iff_eq, bne_iff_ne]
        exact ⟨⟨own, isVirtual⟩, differs⟩
      · split at sorted
        · exact Or.inl (Except.ok.inj sorted).symm
        · split at sorted
          · exact Or.inr (Or.inl (Except.ok.inj sorted).symm)
          · exact Or.inr (Or.inr (Except.ok.inj sorted).symm)

/-- What sorting one method keeps, sorting all methods keeps. -/
theorem Layout.foldlM_addMethod {linkage : Linkage} {layout final : Layout}
    {methods : List MethodDef} (holds : List MethodDef -> Layout -> Prop)
    (folded : methods.foldlM (Layout.addMethod linkage) layout = .ok final)
    (start : holds [] layout)
    (each : forall (before : List MethodDef) (method : MethodDef) (current next : Layout),
      method ∈ methods ->
      (forall earlier, earlier ∈ before -> List.Sublist [earlier, method] methods) ->
      holds before current -> Layout.Sorted linkage current method next ->
      holds (before ++ [method]) next) : holds methods final := by
  induction methods generalizing layout holds with
  | nil =>
      cases folded
      exact start
  | cons method rest inductionHypothesis =>
      rw [List.foldlM_cons] at folded
      rcases Result.bind_eq_ok.mp folded with ⟨next, added, continued⟩
      refine inductionHypothesis (fun before current => holds (method :: before) current) continued
        ?_ ?_
      · exact each [] method layout next List.mem_cons_self
          (fun earlier impossible => absurd impossible List.not_mem_nil) start
          (Layout.addMethod_eq_ok added)
      · intro before other current after member order given sorted
        refine each (method :: before) other current after (List.mem_cons_of_mem method member) ?_
          given sorted
        intro earlier among
        rcases List.mem_cons.mp among with same | later
        · rw [same]
          exact (List.singleton_sublist.mpr member).cons_cons method
        · exact (order earlier later).cons method

/-! ## Known slots -/

/-- Every slot of a table is a known method. -/
def Table.Known (program : Program) (table : Table) : Prop :=
  forall slot, slot ∈ table.slots -> program.Known (.method slot)

theorem Layout.mem_slots_table {layout : Layout} {slot : MethodDef} :
    slot ∈ layout.table.slots ↔ slot ∈ layout.virtuals ∨ slot ∈ layout.abstracts ∨
      slot ∈ Table.slotsOfBase layout.base ∨ slot ∈ Table.slotsOfList layout.interfaces := by
  rw [Table.slots_eq]
  simp only [Layout.table, Table.unplaced, List.mem_append, or_assoc]

theorem Layout.mem_slots_addVirtual {layout : Layout} {method slot : MethodDef}
    (member : slot ∈ (layout.addVirtual method).table.slots) :
    slot = method ∨ slot ∈ layout.table.slots := by
  rw [Layout.mem_slots_table] at member ⊢
  rcases member with inVirtuals | others
  · rcases List.mem_append.mp inVirtuals with earlier | added
    · exact Or.inr (Or.inl earlier)
    · exact Or.inl (List.mem_singleton.mp added)
  · exact Or.inr (Or.inr others)

theorem Layout.mem_slots_addAbstract {layout : Layout} {method slot : MethodDef}
    (member : slot ∈ (layout.addAbstract method).table.slots) :
    slot = method ∨ slot ∈ layout.table.slots := by
  rw [Layout.mem_slots_table] at member ⊢
  rcases member with inVirtuals | inAbstracts | others
  · exact Or.inr (Or.inl inVirtuals)
  · rcases List.mem_append.mp inAbstracts with earlier | added
    · exact Or.inr (Or.inr (Or.inl earlier))
    · exact Or.inl (List.mem_singleton.mp added)
  · exact Or.inr (Or.inr (Or.inr others))

theorem Layout.mem_slots_override {linkage : Linkage} {layout : Layout} {base : Option Table}
    {method slot : MethodDef}
    (replaced : layout.base.mapM (Table.override linkage method true) = .ok base)
    (member : slot ∈ { layout with base := base }.table.slots) :
    slot = method ∨ slot ∈ layout.table.slots := by
  rw [Layout.mem_slots_table] at member ⊢
  rcases member with inVirtuals | inAbstracts | inBase | inInterfaces
  · exact Or.inr (Or.inl inVirtuals)
  · exact Or.inr (Or.inr (Or.inl inAbstracts))
  · cases before : layout.base with
    | none =>
        rw [before] at replaced
        cases replaced
        cases inBase
    | some table =>
        rw [before] at replaced
        rcases Result.map_eq_ok.mp replaced with ⟨changed, overrides, same⟩
        rcases Table.override_eq_ok overrides with ⟨root, _, ofTable⟩
        rw [← same] at inBase
        rcases Table.mem_slots_of_replaceSlots ofTable inBase with isMethod | earlier
        · exact Or.inl isMethod
        · exact Or.inr (Or.inr (Or.inr (Or.inl earlier)))
  · exact Or.inr (Or.inr (Or.inr (Or.inr inInterfaces)))

/-- Sorting a method brings in no slot but that method. -/
theorem Layout.Sorted.mem_slots {linkage : Linkage} {layout next : Layout} {method : MethodDef}
    (sorted : Layout.Sorted linkage layout method next) {slot : MethodDef}
    (member : slot ∈ next.table.slots) : slot = method ∨ slot ∈ layout.table.slots := by
  cases sorted with
  | abstract isAbstract => exact Layout.mem_slots_addAbstract member
  | overriding declares isConcrete own isVirtual differs replaced =>
      split at member
      · exact Layout.mem_slots_override replaced member
      · rcases Layout.mem_slots_addVirtual member with isMethod | inBase
        · exact Or.inl isMethod
        · exact Layout.mem_slots_override replaced inBase
  | apart declares isConcrete overridesNothing added =>
      rcases added with same | same | same
      · rw [same] at member
        exact Layout.mem_slots_addVirtual member
      · rw [same] at member
        exact Or.inr member
      · rw [same] at member
        exact Or.inr member

theorem Layout.known_foldlM_addMethod {linkage : Linkage} {layout final : Layout}
    {methods : List MethodDef}
    (knownMethods : forall method, method ∈ methods -> linkage.program.Known (.method method))
    (folded : methods.foldlM (Layout.addMethod linkage) layout = .ok final)
    (known : layout.table.Known linkage.program) : final.table.Known linkage.program := by
  refine Layout.foldlM_addMethod (fun _ current => current.table.Known linkage.program) folded
    known ?_
  intro before method current next among _ given step slot member
  rcases step.mem_slots member with isMethod | earlier
  · rw [isMethod]
    exact knownMethods method among
  · exact given slot earlier

theorem Layout.known_addMethods {linkage : Linkage} {layout final : Layout}
    (sorted : layout.addMethods linkage = .ok final)
    (known : layout.table.Known linkage.program) : final.table.Known linkage.program := by
  rcases Result.bind_eq_ok.mp sorted with ⟨methods, listed, folded⟩
  exact Layout.known_foldlM_addMethod
    (fun _ among => Program.known_of_mem_instanceMethods listed among) folded known

theorem Layout.known_implementInterface {linkage : Linkage} {type : TypeDef} {interface : Token}
    {table after : Table}
    (implemented : Layout.implementInterface linkage type interface table = .ok after)
    (known : table.Known linkage.program) : after.Known linkage.program := by
  unfold Layout.implementInterface at implemented
  split at implemented
  · cases implemented
    exact known
  · rcases Result.bind_eq_ok.mp implemented with ⟨pairs, mapped, folded⟩
    cases folded
    have targetsKnown : forall pair, pair ∈ pairs -> linkage.program.Known (.method pair.2) := by
      intro pair member
      rcases Result.bind_eq_ok.mp mapped with ⟨definition, _, listing⟩
      rcases Result.bind_eq_ok.mp listing with ⟨candidates, listed, pairing⟩
      rcases Result.bind_eq_ok.mp pairing with ⟨declared, _, paired⟩
      rcases Result.exists_of_mem_mapM paired member with ⟨slot, _, found⟩
      unfold Program.implementation at found
      split at found
      · rename_i target selected
        cases found
        exact Program.known_of_mem_instanceMethods listed (List.mem_of_find?_eq_some selected)
      · cases found
    clear mapped implemented
    induction pairs generalizing table with
    | nil => exact known
    | cons pair rest inductionHypothesis =>
        refine inductionHypothesis ?_
          (fun other member => targetsKnown other (List.mem_cons_of_mem pair member))
        intro slot member
        rcases Table.mem_slots_of_implement member with isTarget | earlier
        · rw [isTarget]
          exact targetsKnown pair List.mem_cons_self
        · exact known slot earlier

namespace Registry

/-- All layouts of a registry have known slots. -/
def Known (program : Program) (registry : Registry) : Prop :=
  forall entry, entry ∈ registry.layouts -> entry.2.table.Known program

theorem Known.tabled {linkage : Linkage} {registry : Registry}
    (known : Known linkage.program registry) {token : Token} {table : Table}
    (tabled : Tabled linkage registry token table) : table.Known linkage.program := by
  rcases tabled with ⟨type, layout, _, found, same⟩
  rw [same]
  exact known (type, layout) (mem_layouts_of_layout? found)

theorem Known.made {linkage : Linkage} {registry : Registry}
    (known : Known linkage.program registry) {token : Token} {layout : Layout}
    (made : Made linkage registry token layout) : layout.table.Known linkage.program := by
  rcases made with ⟨type, resolved, base, interfaces, tables, origin⟩
  refine Layout.known_addMethods origin.sorted ?_
  intro slot member
  rw [Layout.mem_slots_table] at member
  rcases member with impossible | impossible | inBase | inInterfaces
  · cases impossible
  · cases impossible
  · have onBase := origin.onBase
    change slot ∈ Table.slotsOfBase base at inBase
    generalize type.base = parent at onBase
    cases onBase with
    | none => cases inBase
    | some tabled => exact known.tabled tabled slot inBase
  · rcases Table.mem_slotsOfList.mp inInterfaces with ⟨table, among, inTable⟩
    rcases Result.exists_of_mem_right origin.onInterfaces among with
      ⟨interface, _, plain, tabled, implemented⟩
    exact Layout.known_implementInterface implemented (known.tabled tabled) slot inTable

theorem Known.grows {linkage : Linkage} {first second : Registry}
    (known : Known linkage.program first) (grows : Grows linkage first second) :
    Known linkage.program second := by
  induction grows with
  | refl => exact known
  | enter catalog _ _ made inductionHypothesis =>
      intro entry member
      rcases List.mem_append.mp member with earlier | added
      · exact inductionHypothesis entry earlier
      · rw [List.mem_singleton.mp added]
        exact inductionHypothesis.made made
  | catalog catalog _ inductionHypothesis => exact inductionHypothesis

end Registry
end Dispatch
end CilGraph
