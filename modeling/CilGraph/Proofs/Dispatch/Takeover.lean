import CilGraph.Proofs.Dispatch.Placement
import CilGraph.Proofs.Dispatch.Sealing

namespace CilGraph
namespace Dispatch

/-!
# What an override leaves alone

An override is put into a table in place, along the chain of base tables.  Everything
but the slots that it takes over stays as it is: the parts of the chain, their names
and places, the number of their slots, and the tables of the interfaces.  In each part
it takes over at most one slot, the first that it fits.  It goes no further than the
part of the type that declared its root.

A slot is recognised by what stands in it, and after the override that is the
overriding method.  The method fits its own root and has its own signature, so a second
override finds the same slots again and puts into them what they hold already.

If an override is refused, it has looked at all these slots and found none.  Then
nothing has been changed on the way, so whoever held the table still has it whole.

`TakesOver` is the walk along the chain, and each property of an override is read off
it by induction.
-/

namespace Table

/-! ## One part after another -/

/-- The parts of a chain up to the first one of a type, which is among them. -/
def upTo (root : Token) : List Table -> List Table
  | [] => []
  | part :: rest => if part.resolved = root then [part] else part :: upTo root rest

/-- The parts of a chain behind the first one of a type. -/
def beyond (root : Token) : List Table -> List Table
  | [] => []
  | part :: rest => if part.resolved = root then rest else beyond root rest

/-- A part has kept everything but its slots and what hangs below it, and has as many
slots as before. -/
structure KeepsShape (before after : Table) : Prop where
  same : after = { before with members := after.members, base := after.base }
  slots : after.members.length = before.members.length

/-- A table that gets the slots and the base table that it has is the same table. -/
theorem with_eq {table : Table} {members : List MethodDef} {base : Option Table}
    (sameSlots : members = table.members) (sameBase : base = table.base) :
    { table with members := members, base := base } = table := by
  rw [sameSlots, sameBase]
  cases table
  rfl

theorem KeepsShape.refl (table : Table) : KeepsShape table table :=
  ⟨(with_eq rfl rfl).symm, rfl⟩

/-- How slots are replaced along a chain of base tables.  In each part at most one slot
is, and the walk ends at the part of the type that declared the root. -/
inductive TakesOver (linkage : Linkage) (method : MethodDef) (root : Token) :
    Table -> Table -> Bool -> Prop
  | ends {table : Table} {members : List MethodDef} {here : Bool}
      (slots : SlotReplaced linkage method root table.members members here)
      (last : table.resolved = root ∨ table.base = none) :
      TakesOver linkage method root table { table with members := members } here
  | climbs {table base changed : Table} {members : List MethodDef} {here above : Bool}
      (slots : SlotReplaced linkage method root table.members members here)
      (onward : table.resolved ≠ root) (isBase : table.base = some base)
      (further : TakesOver linkage method root base changed above) :
      TakesOver linkage method root table { table with members := members, base := some changed }
        (here || above)

section Walk

variable {linkage : Linkage} {method : MethodDef} {root : Token} {table after : Table}
  {replaced : Bool}

/-- Replacing slots is such a walk. -/
theorem takesOver_of_replaceSlots
    (succeeded : replaceSlots linkage method root table = .ok (after, replaced)) :
    TakesOver linkage method root table after replaced := by
  induction table using baseInduction generalizing after replaced with
  | step table inductionHypothesis =>
      rcases replaceSlots_eq_ok succeeded with
        ⟨members, here, base, above, slots, rfl, rfl, ofBase⟩
      rcases ofBase with ⟨reached, rfl, rfl⟩ | ⟨onward, ofBase⟩
      · rw [Bool.or_false]
        exact .ends slots (Or.inl reached.symm)
      · rcases replaceBase_eq_ok ofBase with
          ⟨none, rfl, rfl⟩ | ⟨inner, changed, isBase, rfl, ofInner⟩
        · rw [Bool.or_false, ← none]
          exact .ends slots (Or.inr none)
        · exact .climbs slots (Ne.symm onward) isBase (inductionHypothesis inner isBase ofInner)

theorem SlotReplaced.length_eq {slots members : List MethodDef}
    (change : SlotReplaced linkage method root slots members replaced) :
    members.length = slots.length := by
  cases change with
  | unchanged none => rfl
  | replaced first fits => simp only [List.length_append, List.length_cons]

/-- The flag tells whether there was a slot to replace. -/
theorem SlotReplaced.replaced_iff {slots members : List MethodDef}
    (change : SlotReplaced linkage method root slots members replaced) :
    replaced = true ↔ exists slot, slot ∈ slots ∧ Fits linkage method root slot := by
  cases change with
  | unchanged none =>
      refine ⟨fun impossible => (nomatch impossible), ?_⟩
      rintro ⟨slot, member, fits⟩
      exact absurd fits (none slot member)
  | replaced first fits =>
      exact ⟨fun _ => ⟨_, List.mem_append_right _ List.mem_cons_self, fits⟩, fun _ => rfl⟩

theorem SlotReplaced.eq_of_not {slots members : List MethodDef}
    (change : SlotReplaced linkage method root slots members false) : members = slots := by
  cases change
  rfl

/-- All parts of the chain keep their shape. -/
theorem TakesOver.keepsShape (takes : TakesOver linkage method root table after replaced) :
    List.Forall₂ KeepsShape table.chain after.chain := by
  induction takes with
  | ends slots last =>
      rw [chain_eq, chain_eq]
      exact .cons ⟨rfl, slots.length_eq⟩ (List.forall₂_same.mpr (fun part _ => .refl part))
  | climbs slots onward isBase further inductionHypothesis =>
      rw [chain_eq, chain_eq, isBase]
      exact .cons ⟨rfl, slots.length_eq⟩ inductionHypothesis

/-- Up to the part of the type that declared the root, the first slot that fits is
replaced in each part. -/
theorem TakesOver.slotReplaced (takes : TakesOver linkage method root table after replaced) :
    List.Forall₂ (fun before part => exists here,
        SlotReplaced linkage method root before.members part.members here)
      (upTo root table.chain) (upTo root after.chain) := by
  induction takes with
  | @ends table members here slots last =>
      rw [chain_eq, chain_eq, upTo, upTo]
      by_cases reached : table.resolved = root
      · rw [if_pos reached, if_pos reached]
        exact .cons ⟨here, slots⟩ .nil
      · rw [if_neg reached, if_neg reached, last.resolve_left reached]
        exact .cons ⟨here, slots⟩ .nil
  | @climbs table base changed members here above slots onward isBase further inductionHypothesis =>
      rw [chain_eq, chain_eq, upTo, upTo, if_neg onward, if_neg onward, isBase]
      exact .cons ⟨here, slots⟩ inductionHypothesis

/-- Behind that part nothing changes. -/
theorem TakesOver.beyond_eq (takes : TakesOver linkage method root table after replaced) :
    beyond root after.chain = beyond root table.chain := by
  induction takes with
  | @ends table members here slots last =>
      rw [chain_eq, chain_eq, beyond, beyond]
  | @climbs table base changed members here above slots onward isBase further inductionHypothesis =>
      rw [chain_eq, chain_eq, beyond, beyond, if_neg onward, if_neg onward, isBase]
      exact inductionHypothesis

/-- The flag tells whether any part up to there had a slot to replace. -/
theorem TakesOver.replaced_iff (takes : TakesOver linkage method root table after replaced) :
    replaced = true ↔ exists part, part ∈ upTo root table.chain ∧
      exists slot, slot ∈ part.members ∧ Fits linkage method root slot := by
  induction takes with
  | @ends table members here slots last =>
      have only : upTo root table.chain = [table] := by
        rw [chain_eq, upTo]
        by_cases reached : table.resolved = root
        · rw [if_pos reached]
        · rw [if_neg reached, last.resolve_left reached]
          rfl
      rw [only, slots.replaced_iff]
      simp only [List.mem_singleton, exists_eq_left]
  | @climbs table base changed members here above slots onward isBase further inductionHypothesis =>
      have split : upTo root table.chain = table :: upTo root base.chain := by
        rw [chain_eq, upTo, if_neg onward, isBase]
        rfl
      rw [split, Bool.or_eq_true, slots.replaced_iff, inductionHypothesis]
      simp only [List.mem_cons, exists_eq_or_imp]

/-- A walk that replaced nothing has changed nothing. -/
theorem TakesOver.eq_of_not (takes : TakesOver linkage method root table after false) :
    after = table := by
  generalize isFalse : false = flag at takes
  induction takes with
  | ends slots last =>
      subst isFalse
      exact with_eq slots.eq_of_not rfl
  | climbs slots onward isBase further inductionHypothesis =>
      rcases Bool.or_eq_false_iff.mp isFalse.symm with ⟨rfl, rfl⟩
      rw [inductionHypothesis rfl]
      exact with_eq slots.eq_of_not isBase.symm

/-! ## A second time -/

theorem replaceSlot_again (ofMethod : rootType linkage method = .ok root)
    {slots members : List MethodDef}
    (succeeded : replaceSlot linkage method root slots = .ok (members, replaced)) :
    replaceSlot linkage method root members = .ok (members, replaced) := by
  induction slots generalizing members replaced with
  | nil =>
      cases succeeded
      rfl
  | cons slot rest inductionHypothesis =>
      rcases Result.bind_eq_ok.mp succeeded with ⟨slotRoot, ofSlot, chosen⟩
      by_cases fits : slotRoot = root ∧ slot.sameSignature method = true
      · rw [if_pos fits] at chosen
        cases chosen
        apply Result.bind_eq_ok.mpr
        refine ⟨root, ofMethod, ?_⟩
        rw [if_pos ⟨rfl, method.sameSignature_refl⟩]
      · rw [if_neg fits] at chosen
        rcases Result.bind_eq_ok.mp chosen with ⟨⟨changed, flag⟩, later, assembled⟩
        cases assembled
        apply Result.bind_eq_ok.mpr
        refine ⟨slotRoot, ofSlot, ?_⟩
        rw [if_neg fits]
        exact Result.bind_eq_ok.mpr ⟨(changed, replaced), inductionHypothesis later, rfl⟩

/-- Replacing slots again finds the same slots and changes nothing. -/
theorem replaceSlots_again (ofMethod : rootType linkage method = .ok root)
    (succeeded : replaceSlots linkage method root table = .ok (after, replaced)) :
    replaceSlots linkage method root after = .ok (after, replaced) := by
  induction table using baseInduction generalizing after replaced with
  | step table inductionHypothesis =>
      rcases replaceSlots_eq_ok_iff.mp succeeded with
        ⟨members, here, base, above, ofMembers, ofBase, rfl, rfl⟩
      apply replaceSlots_eq_ok_iff.mpr
      refine ⟨members, here, base, above, replaceSlot_again ofMethod ofMembers, ?_, rfl, rfl⟩
      by_cases reached : root = table.resolved
      · rw [if_pos reached] at ofBase ⊢
        cases ofBase
        rfl
      · rw [if_neg reached] at ofBase ⊢
        rcases replaceBase_eq_ok ofBase with
          ⟨_, rfl, rfl⟩ | ⟨inner, changed, isBase, rfl, ofInner⟩
        · rfl
        · have again := inductionHypothesis inner isBase ofInner
          exact Result.bind_eq_ok.mpr ⟨(changed, above), again, rfl⟩

/-- An override replaces slots, and may ask that there was one. -/
theorem override_eq {name : String} (ofMethod : rootType linkage method = .ok root)
    (named : linkage.program.typeName method.declaring = .ok name)
    (succeeded : replaceSlots linkage method root table = .ok (after, replaced))
    (expectMatch : Bool) : override linkage method expectMatch table =
      if !replaced && expectMatch then .error (.unresolvedOverride name method.name)
      else .ok after := by
  rw [override, ofMethod]
  change (replaceSlots linkage method root table >>= _) = _
  rw [succeeded]
  simp only [bind, Except.bind, named]

end Walk

/-! ## Overriding -/

/-- A table in which a method has taken over slots, and the table as it was before. -/
structure TakenOver (linkage : Linkage) (method : MethodDef) (root : Token)
    (table after : Table) : Prop where
  /-- All parts of the chain keep everything but their slots, and as many of these. -/
  shape : List.Forall₂ KeepsShape table.chain after.chain
  /-- Up to the type of the root, the first slot that the method fits is replaced. -/
  slots : List.Forall₂ (fun before part => exists here,
      SlotReplaced linkage method root before.members part.members here)
    (upTo root table.chain) (upTo root after.chain)
  /-- Behind it nothing is changed. -/
  rest : beyond root after.chain = beyond root table.chain

/-- The method fits a slot in a part of the chain up to the type of its root. -/
def FitsSomewhere (linkage : Linkage) (method : MethodDef) (root : Token) (table : Table) :
    Prop :=
  exists part, part ∈ upTo root table.chain ∧
    exists slot, slot ∈ part.members ∧ Fits linkage method root slot

/-- An override changes the slots that it takes over and nothing else, and a second one
changes nothing.  It is refused only if it has to find a slot and finds none, and then
the table is as it was. -/
theorem override_local {steps : List DraftStep} {linkage : Linkage} {table : Table}
    {method : MethodDef} (built : (Draft.ofSteps steps).build = .ok linkage.program)
    (slots : table.Known linkage.program) (known : linkage.program.Known (.method method))
    (expectMatch : Bool) :
    exists declared type,
      linkage.program.rootDeclaration method = .ok declared ∧
      linkage.program.typeDef method.declaring = .ok type ∧
      let root := linkage.resolveType declared.declaring
      ((exists after, override linkage method expectMatch table = .ok after ∧
          TakenOver linkage method root table after ∧
          override linkage method expectMatch after = .ok after ∧
          (expectMatch = true -> FitsSomewhere linkage method root table)) ∨
        (override linkage method expectMatch table =
            .error (.unresolvedOverride type.fullName method.name) ∧
          expectMatch = true ∧ ¬ FitsSomewhere linkage method root table ∧
          replaceSlots linkage method root table = .ok (table, false))) := by
  have wellFormed := Draft.wellFormed_of_build (Draft.listsOwn_ofSteps steps) built
  have connected := Draft.connected_of_build (Draft.listsFields_ofSteps steps) built
  have lists := Program.listsMethods_of_build built
  rcases Program.exists_rootDeclaration wellFormed connected lists known with ⟨declared, follows⟩
  rcases connected.declaring _ known.mem_callables with ⟨type, found⟩
  refine ⟨declared, type, follows, found, ?_⟩
  intro root
  have ofMethod : rootType linkage method = .ok root :=
    Result.bind_eq_ok.mpr ⟨declared, follows, rfl⟩
  have replaces : exists outcome, replaceSlots linkage method root table = .ok outcome :=
    exists_replaceSlots (fun slot member =>
      exists_rootType wellFormed connected lists (slots slot member))
  rcases replaces with ⟨⟨after, replaced⟩, ofTable⟩
  have named : linkage.program.typeName method.declaring = .ok type.fullName :=
    Result.map_eq_ok.mpr ⟨type, found, rfl⟩
  have takes := takesOver_of_replaceSlots ofTable
  have again := replaceSlots_again ofMethod ofTable
  rw [override_eq ofMethod named ofTable]
  by_cases refused : (!replaced && expectMatch) = true
  · simp only [Bool.and_eq_true, Bool.not_eq_true'] at refused
    rcases refused with ⟨rfl, rfl⟩
    refine Or.inr ⟨rfl, rfl, ?_, ?_⟩
    · intro fits
      exact nomatch takes.replaced_iff.mpr fits
    · rw [ofTable, takes.eq_of_not]
  · refine Or.inl ⟨after, if_neg refused, ?_, ?_, ?_⟩
    · exact ⟨takes.keepsShape, takes.slotReplaced, takes.beyond_eq⟩
    · rw [override_eq ofMethod named again, if_neg refused]
    · intro expects
      apply takes.replaced_iff.mp
      simpa [expects] using refused

open Registry in
/-- The table of a gate, in which the slot of the door holds some method. -/
def sampleGateTable (slot : MethodDef) : Table :=
  unplaced sampleGate sampleGate.token []
    (some (unplaced sampleDoor sampleDoor.token [slot] none [])) []

open Registry in
/-- A lock takes over the slot of the door.  A safe has nothing to do with doors, and
is refused if it has to find a slot. -/
theorem sampleGateTable_overridden :
    (sampleGateTable sampleGateOpen).Known sampleDoorsProgram ∧
    sampleDoorsProgram.Known (.method sampleLockOpen) ∧
    sampleDoorsProgram.Known (.method sampleSafeOpen) ∧
    (exists after,
      override sampleDoorsLinkage sampleLockOpen true (sampleGateTable sampleGateOpen) =
        .ok after ∧
      after.chain.map Table.members = [[], [sampleLockOpen]] ∧
      TakenOver sampleDoorsLinkage sampleLockOpen sampleDoor.token
        (sampleGateTable sampleGateOpen) after ∧
      override sampleDoorsLinkage sampleLockOpen true after = .ok after) ∧
    override sampleDoorsLinkage sampleSafeOpen true (sampleGateTable sampleGateOpen) =
      .error (.unresolvedOverride "Demo.Safe" "Open") ∧
    replaceSlots sampleDoorsLinkage sampleSafeOpen sampleVault.token
      (sampleGateTable sampleGateOpen) = .ok (sampleGateTable sampleGateOpen, false) := by
  have slots : (sampleGateTable sampleGateOpen).Known sampleDoorsProgram := by
    unfold Table.Known Program.Known
    decide +kernel
  have lockKnown : sampleDoorsProgram.Known (.method sampleLockOpen) := by
    unfold Program.Known
    decide +kernel
  have safeKnown : sampleDoorsProgram.Known (.method sampleSafeOpen) := by
    unfold Program.Known
    decide +kernel
  have lockRoot : (sampleDoorsProgram.rootDeclaration sampleLockOpen).map
      (fun declared => sampleDoorsLinkage.resolveType declared.declaring) =
        .ok sampleDoor.token := by decide +kernel
  have safeRoot : (sampleDoorsProgram.rootDeclaration sampleSafeOpen).map
      (fun declared => sampleDoorsLinkage.resolveType declared.declaring) =
        .ok sampleVault.token := by decide +kernel
  have members : (override sampleDoorsLinkage sampleLockOpen true
      (sampleGateTable sampleGateOpen)).map (fun after => after.chain.map Table.members) =
        .ok [[], [sampleLockOpen]] := by decide +kernel
  have refused : (override sampleDoorsLinkage sampleSafeOpen true
      (sampleGateTable sampleGateOpen)).map (fun after => after.chain.map Table.members) =
        .error (.unresolvedOverride "Demo.Safe" "Open") := by decide +kernel
  have built : (Draft.ofSteps sampleDoors).build = .ok sampleDoorsLinkage.program :=
    build_sampleDoors
  refine ⟨slots, lockKnown, safeKnown, ?_, ?_⟩
  · rcases override_local built slots lockKnown true with ⟨declared, type, follows, _, outcome⟩
    have root := lockRoot
    rw [show sampleDoorsProgram.rootDeclaration sampleLockOpen = .ok declared from follows] at root
    rw [show sampleDoorsLinkage.resolveType declared.declaring = sampleDoor.token from
      Except.ok.inj root] at outcome
    rcases outcome with ⟨after, succeeded, taken, again, _⟩ | ⟨failed, _⟩
    · rw [succeeded] at members
      exact ⟨after, succeeded, Except.ok.inj members, taken, again⟩
    · rw [failed] at members
      cases members
  · rcases override_local built slots safeKnown true with ⟨declared, type, follows, found, outcome⟩
    have root := safeRoot
    rw [show sampleDoorsProgram.rootDeclaration sampleSafeOpen = .ok declared from follows] at root
    rw [show sampleDoorsLinkage.resolveType declared.declaring = sampleVault.token from
      Except.ok.inj root] at outcome
    rcases outcome with ⟨after, succeeded, _⟩ | ⟨failed, _, _, same⟩
    · rw [succeeded] at refused
      cases refused
    · rw [failed] at refused ⊢
      exact ⟨congrArg Except.error (Except.error.inj refused), same⟩

end Table
end Dispatch
end CilGraph
