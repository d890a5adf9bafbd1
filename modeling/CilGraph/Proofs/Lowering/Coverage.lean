import CilGraph.Proofs.Lowering.Replay

namespace CilGraph

/-!
# Every instruction is accounted for

A body is walked over in two ways.  Lowering reads the operands that it needs,
and a cursor that advances computes the length of an instruction without reading
its operands.  A body that is lowered successfully is one that the cursor walks
over to the end, and its nodes are the instructions that it meets, in order.
Only a `constrained.` becomes no node; it changes the operation of the call that
follows it.

The two ways agree because lowering always reads the last operand of an
instruction, so that an instruction which is cut off is noticed by its own step.
That is a property of the instruction table: an instruction with an operand has
an effect that reads it, and only the effect of a branch table belongs to an
operand of variable length.  `Opcode.readsOperand_of_mem_table` checks it.
-/

/-! ## Operands and the length of an instruction -/

namespace Cursor

variable {cursor : Cursor} {opcode : Opcode}

theorem fits_of_read {distance width value : Nat} (isWide : 0 < width)
    (reads : cursor.read distance width = .ok value) :
    distance + width ≤ cursor.rest.length := by
  unfold read at reads
  simp only at reads
  split at reads
  · rename_i complete
    rw [List.length_take, List.length_drop] at complete
    omega
  · cases reads

theorem value_of_lookup {value : UInt16} {shown : String}
    (found : cursor.lookup value shown = .ok opcode) : opcode.value = value := by
  unfold lookup at found
  split at found
  · rename_i same
    cases found
    have selected := List.find?_some same
    exact eq_of_beq selected
  · cases found

/-- The encoding of an instruction that was decoded is there. -/
theorem size_le_of_opcode (decodes : cursor.opcode = .ok opcode) :
    opcode.size ≤ cursor.rest.length := by
  unfold Cursor.opcode at decodes
  split at decodes
  · cases decodes
  · rename_i first others code
    split at decodes
    · split at decodes
      · cases decodes
      · rw [code]
        unfold Opcode.size
        split
        · exact Nat.le_add_left 2 _
        · exact Nat.le_add_left 1 _
    · have isByte : ¬ opcode.value > 0xFF := by
        rw [value_of_lookup decodes, gt_iff_lt, UInt16.lt_iff_toNat_lt, UInt8.toNat_toUInt16]
        have bound := first.toNat_lt
        change ¬ 255 < first.toNat
        omega
      unfold Opcode.size
      rw [if_neg isByte, code]
      exact Nat.le_add_left 1 _

theorem advance_of_fits {count : Nat} (decodes : cursor.opcode = .ok opcode)
    (counted : cursor.operandCount = .ok count)
    (fits : opcode.size + count * opcode.operand.size ≤ cursor.rest.length) :
    exists following, cursor.advance = .ok following := by
  have sized : cursor.instructionSize = .ok (opcode.size + count * opcode.operand.size) :=
    Result.bind_eq_ok.mpr ⟨opcode, decodes, Result.bind_eq_ok.mpr ⟨count, counted, rfl⟩⟩
  exact ⟨_, advance_eq_ok.mpr ⟨_, sized, fits, rfl⟩⟩

theorem fits_of_operandValue {count index : Nat} {value : UInt64}
    (decodes : cursor.opcode = .ok opcode) (counted : cursor.operandCount = .ok count)
    (within : index < count) (isWide : 0 < opcode.operand.size)
    (reads : cursor.operandValue index = .ok value) :
    opcode.size + (index + 1) * opcode.operand.size ≤ cursor.rest.length := by
  rcases Result.bind_eq_ok.mp reads with ⟨same, decoded, counting⟩
  rw [decodes] at decoded
  cases decoded
  rcases Result.bind_eq_ok.mp counting with ⟨total, totalled, reading⟩
  rw [counted] at totalled
  cases totalled
  rw [if_pos within] at reading
  rcases Result.bind_eq_ok.mp reading with ⟨number, isThere, _⟩
  have fits := fits_of_read isWide isThere
  rw [Nat.succ_mul]
  omega

/-- An instruction whose only operand can be read is complete. -/
theorem advance_of_operandValue {value : UInt64} (decodes : cursor.opcode = .ok opcode)
    (hasOperand : opcode.operand ≠ .none) (isSingle : opcode.operand ≠ .branchTable)
    (reads : cursor.operandValue 0 = .ok value) :
    exists following, cursor.advance = .ok following := by
  have counted : cursor.operandCount = .ok 1 := by
    refine Result.bind_eq_ok.mpr ⟨opcode, decodes, ?_⟩
    split
    · rename_i isNone
      exact absurd isNone hasOperand
    · rename_i isTable
      exact absurd isTable isSingle
    · rfl
  have isWide : 0 < opcode.operand.size := by
    cases kind : opcode.operand <;> first | exact absurd kind hasOperand | decide
  have fits := fits_of_operandValue decodes counted Nat.one_pos isWide reads
  exact advance_of_fits decodes counted fits

/-- An instruction without an operand is complete. -/
theorem advance_of_noOperand (decodes : cursor.opcode = .ok opcode)
    (noOperand : opcode.operand = .none) :
    exists following, cursor.advance = .ok following := by
  have counted : cursor.operandCount = .ok 0 := by
    refine Result.bind_eq_ok.mpr ⟨opcode, decodes, ?_⟩
    rw [noOperand]
  refine advance_of_fits decodes counted ?_
  rw [Nat.zero_mul]
  exact size_le_of_opcode decodes

theorem operandValue_of_tableTargets {tableEnd count index : Nat} {targets : List UInt64}
    (computed : Lowering.tableTargets cursor tableEnd count index = .ok targets) {position : Nat}
    (within : position < count) :
    exists value, cursor.operandValue (index + position) = .ok value := by
  induction count generalizing index targets position with
  | zero => exact absurd within (Nat.not_lt_zero position)
  | succ count inductionHypothesis =>
      rcases Result.bind_eq_ok.mp computed with ⟨displacement, reads, continued⟩
      rcases Result.bind_eq_ok.mp continued with ⟨others, later, _⟩
      cases position with
      | zero => exact ⟨displacement, reads⟩
      | succ position =>
          rcases inductionHypothesis later (Nat.lt_of_succ_lt_succ within) with ⟨value, readsLater⟩
          refine ⟨value, ?_⟩
          rw [← readsLater, Nat.add_assoc, Nat.add_comm 1 position]

/-- A branch table whose entries can be read is complete.  If it has none, its
count is all there is to read. -/
theorem advance_of_tableTargets {tableEnd count : Nat} {targets : List UInt64}
    (decodes : cursor.opcode = .ok opcode) (isTable : opcode.operand = .branchTable)
    (counted : cursor.operandCount = .ok count)
    (computed : Lowering.tableTargets cursor tableEnd (count - 1) 1 = .ok targets) :
    exists following, cursor.advance = .ok following := by
  rcases Result.bind_eq_ok.mp counted with ⟨same, decoded, counting⟩
  rw [decodes] at decoded
  cases decoded
  simp only [isTable] at counting
  rcases Result.bind_eq_ok.mp counting with ⟨entries, isThere, total⟩
  have countEq : 1 + entries = count := Except.ok.inj total
  have width : opcode.operand.size = 4 := by
    rw [isTable]
    rfl
  refine advance_of_fits decodes counted ?_
  cases entries with
  | zero =>
      have fits := fits_of_read (by decide) isThere
      rw [← countEq, width]
      exact fits
  | succ entries =>
      -- The last entry ends where the instruction ends.
      have within : entries < count - 1 := by omega
      rcases operandValue_of_tableTargets computed within with ⟨value, reads⟩
      have fits := fits_of_operandValue decodes counted (by omega) (by rw [width]; decide) reads
      rw [Nat.add_comm 1 entries] at fits
      rw [← countEq, Nat.add_comm 1 (entries + 1)]
      exact fits

end Cursor

namespace Effect

/-- Whether an effect reads the first operand in any case. -/
def reads : Effect -> Bool
  | .plain _ _ _ _ => false
  | .sized _ _ _ _ => false
  | .literal _ => false
  | .duplicate => false
  | .ret => false
  | .branchTable => false
  | .endFinally => false
  | _ => true

theorem operandValue_of_constants {effect : Effect} {rule : StackEffect} {cursor : Cursor}
    {constants : List UInt64} (isCommon : effect.common? = some rule)
    (constant : effect.constants cursor = .ok constants) (reads : effect.reads = true) :
    exists value, cursor.operandValue 0 = .ok value := by
  cases effect with
  | plain operation pops produces constants => cases reads
  | sized operation pops produces kind => cases reads
  | literal value => cases reads
  | duplicate => cases reads
  | ret => cases reads
  | branchTable => cases reads
  | endFinally => cases reads
  | loadString => cases isCommon
  | newArray => cases isCommon
  | call => cases isCommon
  | callVirtual => cases isCommon
  | newObject => cases isCommon
  | reference operation produces => cases isCommon
  | constrained => cases isCommon
  | integerConstant kind =>
      rcases Result.bind_eq_ok.mp constant with ⟨width, _, reading⟩
      rcases Result.bind_eq_ok.mp reading with ⟨operand, isRead, _⟩
      exact ⟨operand, isRead⟩
  | branch operation pops =>
      rcases Result.bind_eq_ok.mp constant with ⟨opcode, _, sizing⟩
      rcases Result.bind_eq_ok.mp sizing with ⟨width, _, reading⟩
      rcases Result.bind_eq_ok.mp reading with ⟨operand, isRead, _⟩
      exact ⟨operand, isRead⟩
  | leave =>
      rcases Result.bind_eq_ok.mp constant with ⟨opcode, _, sizing⟩
      rcases Result.bind_eq_ok.mp sizing with ⟨width, _, reading⟩
      rcases Result.bind_eq_ok.mp reading with ⟨operand, isRead, _⟩
      exact ⟨operand, isRead⟩
  | indexed operation pops produces =>
      rcases Result.bind_eq_ok.mp constant with ⟨operand, isRead, _⟩
      exact ⟨operand, isRead⟩
  | floatConstant kind =>
      rcases Result.bind_eq_ok.mp constant with ⟨operand, isRead, _⟩
      exact ⟨operand, isRead⟩
  | loadToken =>
      rcases Result.bind_eq_ok.mp constant with ⟨operand, isRead, _⟩
      exact ⟨operand, isRead⟩
  | typed operation pops produces =>
      rcases Result.bind_eq_ok.mp constant with ⟨operand, isRead, _⟩
      exact ⟨operand, isRead⟩
  | element operation pops produces =>
      rcases Result.bind_eq_ok.mp constant with ⟨operand, isRead, _⟩
      exact ⟨operand, isRead⟩
  | field operation pops produces =>
      rcases Result.bind_eq_ok.mp constant with ⟨operand, isRead, _⟩
      exact ⟨operand, isRead⟩

end Effect

/-- Whether an effect reads the operands that an instruction has. -/
def Opcode.readsOperand (opcode : Opcode) (effect : Effect) : Bool :=
  match opcode.operand with
  | .none => true
  | .branchTable => effect == .branchTable
  | _ => effect.reads

theorem Opcode.readsOperand_of_mem_table {opcode : Opcode} (member : opcode ∈ Opcode.table)
    {effect : Effect} (hasEffect : opcode.effect = some effect) :
    opcode.readsOperand effect = true :=
  Opcode.check_of_mem_table Opcode.readsOperand (by decide +kernel) member hasEffect

namespace Lowering

section Steps

variable {lowering : Lowering} {cursor : Cursor} {frame next : Frame}
  {discoveries : List Discovery}

theorem Performs.operandValue {effect : Effect}
    (performs : Performs lowering cursor frame effect discoveries next)
    (reads : effect.reads = true) : exists value, cursor.operandValue 0 = .ok value := by
  cases performs with
  | common isCommon constant discovered applied =>
      exact Effect.operandValue_of_constants isCommon constant reads
  | loadString isRead found => exact ⟨_, isRead⟩
  | duplicate top => cases reads
  | retNothing empty => cases reads
  | retValue top => cases reads
  | newArray isRead named popped => exact ⟨_, isRead⟩
  | call called => exact ⟨_, called.reads⟩
  | callVirtual called => exact ⟨_, called.reads⟩
  | newObject isRead found isConstructor named refers popped => exact ⟨_, isRead⟩
  | reference isRead found refers => exact ⟨_, isRead⟩
  | constrained isRead => exact ⟨_, isRead⟩

/-- An instruction that was lowered is complete. -/
theorem Performs.advances {opcode : Opcode} {effect : Effect}
    (performs : Performs lowering cursor frame effect discoveries next)
    (decodes : cursor.opcode = .ok opcode) (hasEffect : opcode.effect = some effect) :
    exists following, cursor.advance = .ok following := by
  have checked := Opcode.readsOperand_of_mem_table (mem_table_of_opcode decodes) hasEffect
  unfold Opcode.readsOperand at checked
  split at checked
  · rename_i noOperand
    exact Cursor.advance_of_noOperand decodes noOperand
  · rename_i isTable
    cases eq_of_beq checked
    cases performs with
    | common isCommon constant discovered applied =>
        rcases Result.bind_eq_ok.mp constant with ⟨count, counted, sizing⟩
        rcases Result.bind_eq_ok.mp sizing with ⟨size, _, computed⟩
        exact Cursor.advance_of_tableTargets decodes isTable counted computed
  · rename_i hasOperand isSingle
    rcases performs.operandValue checked with ⟨value, reads⟩
    exact Cursor.advance_of_operandValue decodes hasOperand isSingle reads

end Steps

/-! ## Instructions that are met -/

/-- An instruction that is met in a body. -/
structure Visit where
  offset : Nat
  opcode : Opcode

/-- The instructions from one cursor to another. -/
inductive Walks : Cursor -> List Visit -> Cursor -> Prop
  | done (cursor : Cursor) : Walks cursor [] cursor
  | step {cursor following final : Cursor} {opcode : Opcode} {visits : List Visit}
      (decodes : cursor.opcode = .ok opcode) (advances : cursor.advance = .ok following)
      (continues : Walks following visits final) :
      Walks cursor (⟨cursor.offset, opcode⟩ :: visits) final

/-- Whether an instruction is a `constrained.`. -/
def Visit.isConstraint (visit : Visit) : Bool :=
  visit.opcode.effect == some .constrained

/-- Each instruction, with whether a `constrained.` stands right before it. -/
def flagged : Bool -> List Visit -> List (Visit × Bool)
  | _, [] => []
  | constrained, visit :: rest => (visit, constrained) :: flagged visit.isConstraint rest

/-- The instructions that become nodes. -/
def lowerable (constrained : Bool) (visits : List Visit) : List (Visit × Bool) :=
  (flagged constrained visits).filter (fun entry => !entry.1.isConstraint)

end Lowering

/-- The operation of the node that an effect makes.  A virtual call has another
one if its receiver is constrained. -/
def Effect.operation? (constrained : Bool) : Effect -> Option Operation
  | .loadString => some .loadString
  | .duplicate => some .duplicate
  | .ret => some .ret
  | .newArray => some .newArray
  | .call => some .call
  | .callVirtual => some (if constrained then .callVirtualConstrained else .callVirtual)
  | .newObject => some .newObject
  | .reference operation _ => some operation
  | effect => effect.common?.map StackEffect.operation

namespace Lowering

/-- A node is what an instruction becomes: it stands at the same offset and has
the operation that the instruction prescribes. -/
structure Becomes (entry : Visit × Bool) (node : Node) : Prop where
  offset : node.offset.toNat = entry.1.offset
  operation : exists effect, entry.1.opcode.effect = some effect ∧
    effect.operation? entry.2 = some node.operation

section Walks

variable {cursor following final : Cursor} {visits : List Visit}

theorem Walks.offset_le (walks : Walks cursor visits final) {visit : Visit}
    (member : visit ∈ visits) : cursor.offset ≤ visit.offset := by
  induction walks with
  | done cursor => cases member
  | step decodes advances continues inductionHypothesis =>
      rcases List.mem_cons.mp member with same | later
      · exact Nat.le_of_eq (congrArg Visit.offset same).symm
      · exact Nat.le_of_lt (Nat.lt_of_lt_of_le (Cursor.advance_lt advances)
          (inductionHypothesis later))

/-- Every instruction begins behind those before it. -/
theorem Walks.increasing (walks : Walks cursor visits final) :
    visits.Pairwise (fun first second => first.offset < second.offset) := by
  induction walks with
  | done cursor => exact .nil
  | step decodes advances continues inductionHypothesis =>
      refine .cons ?_ inductionHypothesis
      intro visit member
      exact Nat.lt_of_lt_of_le (Cursor.advance_lt advances) (continues.offset_le member)

theorem lowerable_of_isConstraint {visit : Visit} (isConstraint : visit.isConstraint = true)
    (constrained : Bool) (rest : List Visit) :
    lowerable constrained (visit :: rest) = lowerable true rest := by
  unfold lowerable
  rw [flagged, isConstraint, List.filter_cons_of_neg]
  rw [isConstraint]
  decide

theorem lowerable_of_not_isConstraint {visit : Visit} (isLowered : visit.isConstraint = false)
    (constrained : Bool) (rest : List Visit) :
    lowerable constrained (visit :: rest) = (visit, constrained) :: lowerable false rest := by
  unfold lowerable
  rw [flagged, isLowered, List.filter_cons_of_pos]
  rw [isLowered]
  rfl

end Walks

/-! ## Nodes of a run -/

/-- A step has added the node that its instruction becomes. -/
structure Renders (offset : Nat) (effect : Effect) (frame next : Frame) (node : Node) : Prop where
  appended : next.nodes = frame.nodes ++ [node]
  placed : node.offset = UInt32.ofNat offset
  prescribed : effect.operation? frame.constraint.isSome = some node.operation
  settled : next.constraint = none

section Runs

variable {lowering : Lowering} {cursor : Cursor} {frame next final : Frame}
  {discoveries : List Discovery}

theorem operation?_of_common {effect : Effect} {rule : StackEffect}
    (isCommon : effect.common? = some rule) (constrained : Bool) :
    effect.operation? constrained = some rule.operation := by
  unfold Effect.operation?
  split <;> first | cases isCommon | rw [isCommon]; rfl

theorem callForm_operation (isVirtual : Bool) (operand : UInt64)
    (constraint : Option Constraint) :
    (callForm isVirtual operand constraint).1 =
      if isVirtual then (if constraint.isSome then .callVirtualConstrained else .callVirtual)
      else .call := by
  cases constraint with
  | none => cases isVirtual <;> rfl
  | some constraint => cases isVirtual <;> rfl

/-- Every step adds the node of its instruction, except that a `constrained.` is
remembered instead. -/
theorem Performs.renders {effect : Effect}
    (performs : Performs lowering cursor frame effect discoveries next)
    (unconstrained : frame.constraint = none ∨ effect = .callVirtual) :
    (exists node, Renders cursor.offset effect frame next node) ∨
      (effect = .constrained ∧ next.nodes = frame.nodes ∧ next.constraint.isSome = true) := by
  have isFree : effect ≠ .callVirtual -> frame.constraint = none := unconstrained.resolve_right
  cases performs with
  | @common effect rule constants discoveries next isCommon constant discovered applied =>
      have noCall : effect ≠ .callVirtual := by
        intro isVirtual
        rw [isVirtual] at isCommon
        cases isCommon
      rcases applied with ⟨inputs, stack, _, same⟩
      refine Or.inl ⟨⟨frame.nextId, UInt32.ofNat cursor.offset, rule.operation, inputs, constants,
        none⟩, ?_, rfl, operation?_of_common isCommon _, ?_⟩
      · rw [same]
        cases effect.clears <;> rfl
      · rw [same]
        cases effect.clears <;> exact isFree noCall
  | loadString reads found =>
      exact Or.inl ⟨_, rfl, rfl, rfl, isFree nofun⟩
  | duplicate top =>
      exact Or.inl ⟨_, rfl, rfl, rfl, isFree nofun⟩
  | retNothing empty =>
      exact Or.inl ⟨_, rfl, rfl, rfl, isFree nofun⟩
  | retValue top =>
      exact Or.inl ⟨_, rfl, rfl, rfl, isFree nofun⟩
  | newArray reads named popped =>
      exact Or.inl ⟨_, rfl, rfl, rfl, isFree nofun⟩
  | newObject reads found isConstructor named refers popped =>
      exact Or.inl ⟨_, rfl, rfl, rfl, isFree nofun⟩
  | reference reads found refers =>
      exact Or.inl ⟨_, rfl, rfl, rfl, isFree nofun⟩
  | call called =>
      refine Or.inl ⟨_, rfl, rfl, ?_, rfl⟩
      exact congrArg some (callForm_operation false _ _).symm
  | callVirtual called =>
      refine Or.inl ⟨_, rfl, rfl, ?_, rfl⟩
      exact congrArg some (callForm_operation true _ _).symm
  | constrained reads => exact Or.inr ⟨rfl, rfl, rfl⟩

/-- The nodes that a run adds are those of the instructions between its cursor
and the end of the code. -/
theorem Runs.covers (runs : Runs lowering cursor frame discoveries final)
    (short : cursor.codeLength < 2 ^ 32) :
    exists visits nodes, Walks cursor visits ⟨cursor.codeLength, []⟩ ∧
      final.nodes = frame.nodes ++ nodes ∧
      List.Forall₂ Becomes (lowerable frame.constraint.isSome visits) nodes := by
  induction runs with
  | @done cursor frame exhausted =>
      have atEnd : cursor = ⟨cursor.codeLength, []⟩ := by
        rcases cursor with ⟨offset, rest⟩
        change rest = [] at exhausted
        rw [exhausted]
        rfl
      refine ⟨[], [], ?_, (List.append_nil _).symm, .nil⟩
      rw [← atEnd]
      exact .done cursor
  | @step cursor following frame next final opcode effect before after decodes hasEffect
      unconstrained performs advances continues inductionHypothesis =>
      have sameLength := Cursor.codeLength_of_advance advances
      rw [sameLength] at inductionHypothesis
      rcases inductionHypothesis short with ⟨visits, nodes, walks, appended, become⟩
      have walk : Walks cursor (⟨cursor.offset, opcode⟩ :: visits) ⟨cursor.codeLength, []⟩ :=
        .step decodes advances walks
      rcases performs.renders unconstrained with ⟨node, renders⟩ | ⟨isConstraint, same, pending⟩
      · have isLowered : Visit.isConstraint ⟨cursor.offset, opcode⟩ = false := by
          unfold Visit.isConstraint
          rw [hasEffect]
          refine beq_eq_false_iff_ne.mpr ?_
          intro isConstraint
          have prescribed := renders.prescribed
          cases isConstraint
          cases prescribed
        have inWord : cursor.offset < 2 ^ 32 := by
          unfold Cursor.codeLength at short
          omega
        -- The constraint is used up, so the instructions that follow are free again.
        rw [renders.settled] at become
        refine ⟨_, node :: nodes, walk, ?_, ?_⟩
        · rw [appended, renders.appended, List.append_assoc]
          rfl
        · rw [lowerable_of_not_isConstraint isLowered]
          refine .cons ⟨?_, effect, hasEffect, renders.prescribed⟩ become
          rw [renders.placed, UInt32.toNat_ofNat_of_lt' inWord]
      · have isVisit : Visit.isConstraint ⟨cursor.offset, opcode⟩ = true := by
          unfold Visit.isConstraint
          rw [hasEffect, isConstraint]
          rfl
        rw [pending] at become
        refine ⟨_, nodes, walk, ?_, ?_⟩
        · rw [appended, same]
        · rw [lowerable_of_isConstraint isVisit]
          exact become

end Runs

end Lowering
end CilGraph
