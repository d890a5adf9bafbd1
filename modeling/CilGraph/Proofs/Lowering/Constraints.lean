import CilGraph.Proofs.Lowering.Turns

namespace CilGraph

/-!
# Constrained calls

A `constrained.` is an instruction of its own with the type of a receiver as its
operand.  It takes effect in the virtual call right after it and nowhere else.
While a body is lowered, it is kept in the frame for one instruction: a virtual
call uses it up, and any other instruction is refused because of it.

The frame has no more memory than that, so what it holds before an instruction is
said by the instruction before that one (`Turn.leaves`).  With this, the nodes of
constrained calls are paired with the `constrained.` instructions, and those of
free virtual calls with the virtual calls that have no `constrained.` before them.

The refusal is stated of runs that need not succeed.  As soon as a `constrained.`
has been lowered and no virtual call follows, the lowering as a whole fails, with
the offset of that `constrained.` in its error.
-/

/-! ## Instructions -/

namespace Opcode

def isConstraint (opcode : Opcode) : Bool :=
  opcode.mnemonic == "constrained."

def isVirtualCall (opcode : Opcode) : Bool :=
  opcode.mnemonic == "callvirt"

/-- The name of an instruction, the kind of its operand and the operation of its
node agree with its effect about constraints and virtual calls. -/
def isGuarded (opcode : Opcode) (effect : Effect) : Bool :=
  opcode.isConstraint == (effect == .constrained) &&
    opcode.isVirtualCall == (effect == .callVirtual) &&
    (effect != .constrained || opcode.operand == .type) &&
    (effect != .callVirtual || opcode.operand == .method) &&
    (effect == .callVirtual || (effect.operation? false).all (fun operation =>
      operation != .callVirtual && operation != .callVirtualConstrained))

theorem isGuarded_of_mem_table {opcode : Opcode} (member : opcode ∈ table) {effect : Effect}
    (hasEffect : opcode.effect = some effect) : opcode.isGuarded effect = true :=
  check_of_mem_table isGuarded (by decide +kernel) member hasEffect

end Opcode

/-- Every instruction with the one right before it. -/
def Sighting.preceded (previous : Option Sighting) (sightings : List Sighting) :
    List (Option Sighting × Sighting) :=
  (previous :: sightings.map some).zip sightings

/-- The virtual calls that have no `constrained.` right before them. -/
def Sighting.freeCalls (previous : Option Sighting) (sightings : List Sighting) :
    List Sighting :=
  ((preceded previous sightings).filter (fun entry => entry.2.opcode.isVirtualCall &&
    !entry.1.any (fun before => before.opcode.isConstraint))).map Prod.snd

theorem Sighting.freeCalls_single (previous : Option Sighting) (sighting : Sighting) :
    freeCalls previous [sighting] =
      if sighting.opcode.isVirtualCall && !previous.any (fun before => before.opcode.isConstraint)
      then [sighting] else [] := by
  simp only [freeCalls, preceded, List.map_cons, List.map_nil, List.zip_cons_cons, List.zip_nil_right,
    List.filter_singleton]
  cases sighting.opcode.isVirtualCall &&
    !previous.any (fun before => before.opcode.isConstraint) <;> rfl

theorem Sighting.freeCalls_cons (previous : Option Sighting) (sighting : Sighting)
    (rest : List Sighting) : freeCalls previous (sighting :: rest) =
      freeCalls previous [sighting] ++ freeCalls (some sighting) rest := by
  simp only [freeCalls, preceded, List.map_cons, List.zip_cons_cons, ← List.map_append,
    ← List.filter_append]
  rfl

namespace Lowering

/-- The call that a `constrained.` takes effect in: the next instruction, whose node
has the operands of both. -/
def Binds (sightings : List Sighting) (constraint : Sighting) (node : Node) : Prop :=
  exists front call back operand type, sightings = front ++ constraint :: call :: back ∧
    call.opcode.mnemonic = "callvirt" ∧ call.operands = [(4, operand)] ∧
    constraint.operands = [(4, type)] ∧ node.offset = UInt32.ofNat call.offset ∧
    node.constants = [operand, type]

/-- A virtual call whose node has only its own operand. -/
def CallsFreely (call : Sighting) (node : Node) : Prop :=
  exists operand, call.operands = [(4, operand)] ∧ node.offset = UInt32.ofNat call.offset ∧
    node.constants = [operand]

section Turns

variable {lowering : Lowering} (turn : Turn lowering)

theorem Performs.constrains {cursor : Cursor} {frame next : Frame} {discoveries : List Discovery}
    (performs : Performs lowering cursor frame .constrained discoveries next) :
    exists operand, cursor.operandValue 0 = .ok operand ∧
      next = { frame with constraint := some ⟨operand, cursor.offset⟩ } := by
  cases performs with
  | common isCommon => cases isCommon
  | constrained reads => exact ⟨_, reads, rfl⟩

theorem Performs.callsVirtually {cursor : Cursor} {frame next : Frame}
    {discoveries : List Discovery}
    (performs : Performs lowering cursor frame .callVirtual discoveries next) :
    exists operand node, cursor.operandValue 0 = .ok operand ∧ frame.added next = [node] ∧
      node.offset = UInt32.ofNat cursor.offset ∧
      (node.operation, node.constants) = callForm true operand frame.constraint := by
  cases performs with
  | common isCommon => cases isCommon
  | callVirtual called => exact ⟨_, _, called.reads, List.drop_left, rfl, rfl⟩

/-- What the instruction table says of a turn about constraints. -/
structure Turn.Guarded (turn : Turn lowering) : Prop where
  constrains : turn.sighting.opcode.isConstraint = (turn.effect == .constrained)
  calls : turn.sighting.opcode.isVirtualCall = (turn.effect == .callVirtual)
  constraintKind : turn.effect = .constrained -> turn.sighting.opcode.operand = .type
  callKind : turn.effect = .callVirtual -> turn.sighting.opcode.operand = .method
  nodes : turn.effect ≠ .callVirtual -> forall node, node ∈ turn.nodes ->
    node.operation ≠ .callVirtual ∧ node.operation ≠ .callVirtualConstrained

theorem Turn.guarded : turn.Guarded := by
  have guarded := Opcode.isGuarded_of_mem_table turn.listed turn.hasEffect
  simp only [Opcode.isGuarded, Bool.and_eq_true, Bool.or_eq_true, beq_iff_eq, bne_iff_ne,
    ne_eq] at guarded
  rcases guarded with ⟨⟨⟨⟨constrains, calls⟩, constraintKind⟩, callKind⟩, others⟩
  refine ⟨constrains, calls, fun isEffect => constraintKind.resolve_left (not_not_intro isEffect),
    fun isEffect => callKind.resolve_left (not_not_intro isEffect), ?_⟩
  intro notVirtual node member
  have free : turn.before.constraint = none := turn.unconstrained.resolve_right notVirtual
  have plain := others.resolve_left notVirtual
  have prescribed := (turn.prescribed member).2
  rw [free] at prescribed
  rw [show turn.effect.operation? false = some node.operation from prescribed] at plain
  simpa using plain

/-- A `constrained.` is held by the frame after it. -/
theorem Turn.leaves (isConstraint : turn.sighting.opcode.isConstraint = true) :
    exists type, turn.sighting.operands = [(4, type)] ∧
      turn.after.constraint = some ⟨type, turn.sighting.offset⟩ := by
  have guarded := turn.guarded
  have isEffect : turn.effect = .constrained := by
    rw [guarded.constrains] at isConstraint
    exact eq_of_beq isConstraint
  have performs := turn.performs
  rw [isEffect] at performs
  rcases performs.constrains with ⟨type, reads, same⟩
  have kind := guarded.constraintKind isEffect
  have operands := turn.sees.operands_eq (by simp [kind]) (by simp [kind]) reads
  rw [kind] at operands
  refine ⟨type, operands, ?_⟩
  rw [same, turn.sees.offset]

/-- No other instruction leaves a constraint behind. -/
theorem Turn.leaves_none (noConstraint : turn.sighting.opcode.isConstraint = false) :
    turn.after.constraint = none := by
  rcases turn.performs.renders turn.unconstrained with ⟨node, renders⟩ | ⟨isEffect, _⟩
  · exact renders.settled
  · rw [turn.guarded.constrains, isEffect] at noConstraint
    cases noConstraint

/-- A virtual call becomes one node, in the form that the constraint before it
prescribes. -/
theorem Turn.calls (isCall : turn.effect = .callVirtual) :
    exists operand node, turn.sighting.operands = [(4, operand)] ∧ turn.nodes = [node] ∧
      node.offset = UInt32.ofNat turn.sighting.offset ∧
      (node.operation, node.constants) = callForm true operand turn.before.constraint := by
  have performs := turn.performs
  rw [isCall] at performs
  rcases performs.callsVirtually with ⟨operand, node, reads, added, placed, form⟩
  have kind := turn.guarded.callKind isCall
  have operands := turn.sees.operands_eq (by simp [kind]) (by simp [kind]) reads
  rw [kind] at operands
  rw [← turn.sees.offset] at placed
  exact ⟨operand, node, operands, added, placed, form⟩

/-- A turn that is no virtual call makes no node of one. -/
theorem Turn.filter_nodes {operation : Operation}
    (isCall : operation = .callVirtual ∨ operation = .callVirtualConstrained)
    (notVirtual : turn.effect ≠ .callVirtual) :
    turn.nodes.filter (fun node => node.operation == operation) = [] := by
  refine List.filter_eq_nil_iff.mpr (fun node member => ?_)
  rcases turn.guarded.nodes notVirtual node member with ⟨notFree, notConstrained⟩
  rcases isCall with same | same <;> subst same
  · simpa using notFree
  · simpa using notConstrained

/-- Without a constraint, a turn makes no node of a constrained call. -/
theorem Turn.filter_nodes_of_free (free : turn.before.constraint = none) :
    turn.nodes.filter (fun node => node.operation == .callVirtualConstrained) = [] := by
  by_cases isCall : turn.effect = .callVirtual
  · rcases turn.calls isCall with ⟨operand, node, _, only, _, form⟩
    rw [free] at form
    rw [only, List.filter_singleton, show node.operation = .callVirtual from congrArg Prod.fst form]
    rfl
  · exact turn.filter_nodes (Or.inr rfl) isCall

end Turns

/-! ## Whole bodies -/

/-- What a frame holds is what the turn before it has left. -/
def Held {lowering : Lowering} (frame : Frame) (previous : Option (Turn lowering)) : Prop :=
  frame.constraint = previous.bind (fun turn => turn.after.constraint)

section Histories

variable {lowering : Lowering} {cursor : Cursor} {frame final : Frame}
  {turns : List (Turn lowering)} {previous : Option (Turn lowering)}

/-- If the instruction before a turn is a `constrained.`, then the turn is the call
that it takes effect in. -/
theorem Held.binds {turn : Turn lowering} (held : Held turn.before previous)
    (front back : List Sighting) :
    List.Forall₂ (Binds (front ++ previous.toList.map Turn.sighting ++ turn.sighting :: back))
      ((previous.toList.map Turn.sighting).filter (fun sighting => sighting.opcode.isConstraint))
      (turn.nodes.filter (fun node => node.operation == .callVirtualConstrained)) := by
  cases previous with
  | none =>
      rw [turn.filter_nodes_of_free held]
      exact .nil
  | some earlier =>
      have held : turn.before.constraint = earlier.after.constraint := held
      cases isConstraint : earlier.sighting.opcode.isConstraint with
      | false =>
          rw [earlier.leaves_none isConstraint] at held
          rw [turn.filter_nodes_of_free held]
          simp [isConstraint]
      | true =>
          rcases earlier.leaves isConstraint with ⟨type, typeIs, leaves⟩
          rw [leaves] at held
          have isCall : turn.effect = .callVirtual :=
            turn.unconstrained.resolve_left (by simp [held])
          rcases turn.calls isCall with ⟨operand, node, operandIs, only, placed, form⟩
          rw [held] at form
          have operation : node.operation = .callVirtualConstrained := congrArg Prod.fst form
          have constants : node.constants = [operand, type] := congrArg Prod.snd form
          have calls : turn.sighting.opcode.mnemonic = "callvirt" := by
            have isVirtualCall := turn.guarded.calls
            rw [isCall] at isVirtualCall
            exact eq_of_beq isVirtualCall
          have binds : Binds (front ++ [earlier.sighting] ++ turn.sighting :: back)
              earlier.sighting node := by
            refine ⟨front, turn.sighting, back, operand, type, ?_, calls, operandIs, typeIs, placed,
              constants⟩
            simp
          simpa [only, operation, isConstraint] using binds

theorem Held.callsFreely {turn : Turn lowering} (held : Held turn.before previous) :
    List.Forall₂ CallsFreely
      (Sighting.freeCalls (previous.map Turn.sighting) [turn.sighting])
      (turn.nodes.filter (fun node => node.operation == .callVirtual)) := by
  by_cases isCall : turn.effect = .callVirtual
  · rcases turn.calls isCall with ⟨operand, node, operandIs, only, placed, form⟩
    have calls : turn.sighting.opcode.isVirtualCall = true := by
      rw [turn.guarded.calls, isCall, beq_self_eq_true]
    cases isFree : previous.any (fun earlier => earlier.sighting.opcode.isConstraint) with
    | false =>
        have free : turn.before.constraint = none := by
          cases previous with
          | none => exact held
          | some earlier => exact held.trans (earlier.leaves_none isFree)
        rw [free] at form
        have operation : node.operation = .callVirtual := congrArg Prod.fst form
        have constants : node.constants = [operand] := congrArg Prod.snd form
        have freely : CallsFreely turn.sighting node := ⟨operand, operandIs, placed, constants⟩
        simpa [Sighting.freeCalls_single, Option.any_map, Function.comp_def, calls, isFree, only,
          operation] using freely
    | true =>
        cases previous with
        | none => cases isFree
        | some earlier =>
            rcases earlier.leaves isFree with ⟨type, _, leaves⟩
            have held : turn.before.constraint = some ⟨type, earlier.sighting.offset⟩ :=
              Eq.trans held leaves
            rw [held] at form
            have operation : node.operation = .callVirtualConstrained := congrArg Prod.fst form
            have isConstraint : earlier.sighting.opcode.isConstraint = true := isFree
            simp [Sighting.freeCalls_single, isConstraint, only, operation]
  · have calls : turn.sighting.opcode.isVirtualCall = false := by
      rw [turn.guarded.calls]
      exact beq_eq_false_iff_ne.mpr isCall
    rw [turn.filter_nodes (Or.inl rfl) isCall]
    simp [Sighting.freeCalls_single, calls]

theorem History.inversion {turn : Turn lowering}
    (history : History lowering cursor frame (turn :: turns) final) :
    turn.before = frame ∧ History lowering turn.following turn.after turns final := by
  cases history with
  | turn turn continues => exact ⟨rfl, continues⟩

theorem History.final_eq (history : History lowering cursor frame [] final) : final = frame := by
  cases history with
  | done exhausted => rfl

/-- Right after a `constrained.` there is a virtual call. -/
theorem History.followed (history : History lowering cursor frame turns final)
    (settled : final.constraint = none) {front back : List Sighting} {constraint : Sighting}
    (split : turns.map Turn.sighting = front ++ constraint :: back)
    (isConstraint : constraint.opcode.isConstraint = true) :
    exists call rest, back = call :: rest ∧ call.opcode.mnemonic = "callvirt" := by
  induction history generalizing front with
  | done exhausted => simp at split
  | turn turn continues inductionHypothesis =>
      rename_i turns
      cases front with
      | cons first others =>
          rcases List.cons_eq_cons.mp split with ⟨_, later⟩
          exact inductionHypothesis settled later
      | nil =>
          rcases List.cons_eq_cons.mp split with ⟨same, later⟩
          subst same
          rcases turn.leaves isConstraint with ⟨type, _, leaves⟩
          cases turns with
          | nil =>
              rw [continues.final_eq, leaves] at settled
              cases settled
          | cons next others =>
              rcases continues.inversion with ⟨same, _⟩
              have isCall : next.effect = .callVirtual :=
                next.unconstrained.resolve_left (by simp [same, leaves])
              have calls := next.guarded.calls
              rw [isCall] at calls
              exact ⟨next.sighting, others.map Turn.sighting, later.symm, eq_of_beq calls⟩

/-- The nodes of constrained calls are paired with the `constrained.` instructions,
the one right before the first turn included. -/
theorem History.binds (history : History lowering cursor frame turns final)
    (settled : final.constraint = none) (held : Held frame previous) (front : List Sighting) :
    List.Forall₂
      (Binds (front ++ previous.toList.map Turn.sighting ++ turns.map Turn.sighting))
      ((previous.toList.map Turn.sighting ++ turns.map Turn.sighting).filter
        (fun sighting => sighting.opcode.isConstraint))
      ((turns.flatMap Turn.nodes).filter
        (fun node => node.operation == .callVirtualConstrained)) := by
  induction history generalizing previous front with
  | done exhausted =>
      cases previous with
      | none => exact .nil
      | some earlier =>
          have noConstraint : earlier.sighting.opcode.isConstraint = false := by
            by_contra isConstraint
            rcases earlier.leaves (Bool.not_eq_false _ ▸ isConstraint) with ⟨type, _, leaves⟩
            cases (held.symm.trans settled).symm.trans leaves
          simp [noConstraint]
  | turn turn continues inductionHypothesis =>
      rename_i turns
      have head := held.binds front (turns.map Turn.sighting)
      have next : Held turn.after (some turn) := rfl
      have tail := inductionHypothesis settled next (front ++ previous.toList.map Turn.sighting)
      simp only [Option.toList_some, List.map_cons, List.map_nil, List.append_assoc,
        List.singleton_append] at head tail
      simpa [List.filter_append, List.filter_flatMap] using List.rel_append head tail

/-- The nodes of free virtual calls are paired with the virtual calls that have no
`constrained.` right before them. -/
theorem History.callsFreely (history : History lowering cursor frame turns final)
    (held : Held frame previous) :
    List.Forall₂ CallsFreely
      (Sighting.freeCalls (previous.map Turn.sighting) (turns.map Turn.sighting))
      ((turns.flatMap Turn.nodes).filter (fun node => node.operation == .callVirtual)) := by
  induction history generalizing previous with
  | done exhausted => exact .nil
  | turn turn continues inductionHypothesis =>
      have next : Held turn.after (some turn) := rfl
      rw [List.map_cons, Sighting.freeCalls_cons, List.flatMap_cons, List.filter_append]
      exact List.rel_append held.callsFreely (inductionHypothesis next)

end Histories

/-! ## Refusals -/

/-- Instructions have been lowered without an error, one after another. -/
inductive Processes (lowering : Lowering) : Cursor -> Frame -> Cursor -> Frame -> Prop
  | refl (cursor : Cursor) (frame : Frame) : Processes lowering cursor frame cursor frame
  | step {cursor following place : Cursor} {frame next reached : Frame}
      (stepped : (lowering.step cursor frame).result = .ok next)
      (advances : cursor.advance = .ok following)
      (continues : Processes lowering following next place reached) :
      Processes lowering cursor frame place reached

section Refusals

variable {lowering : Lowering} {cursor following place : Cursor} {frame next reached : Frame}

theorem Processes.concat (processes : Processes lowering cursor frame place reached)
    (stepped : (lowering.step place reached).result = .ok next)
    (advances : place.advance = .ok following) :
    Processes lowering cursor frame following next := by
  induction processes with
  | refl cursor frame => exact .step stepped advances (.refl following next)
  | step first moves continues inductionHypothesis =>
      exact .step first moves (inductionHypothesis stepped advances)

/-- A step over a `constrained.` remembers where it stands. -/
theorem constraint_of_step {opcode : Opcode} (decodes : cursor.opcode = .ok opcode)
    (isConstraint : opcode.mnemonic = "constrained.")
    (stepped : (lowering.step cursor frame).result = .ok next)
    (advances : cursor.advance = .ok following) :
    exists type, next.constraint = some ⟨type, cursor.offset⟩ := by
  rcases step_yields (Attempt.yields_of_result stepped) with
    ⟨same, effect, decodesAgain, hasEffect, unconstrained, performs⟩
  rcases Cursor.sees_of_advance advances with ⟨sighting, sees⟩
  cases decodesAgain.symm.trans sees.decodes
  let turn : Turn lowering := ⟨cursor, following, sighting, effect, frame, next, _, sees, hasEffect,
    unconstrained, performs⟩
  cases decodes.symm.trans sees.decodes
  rcases turn.leaves (beq_iff_eq.mpr isConstraint) with ⟨type, _, leaves⟩
  rw [sees.offset] at leaves
  exact ⟨type, leaves⟩

/-- A step that succeeds is followed by the rest of the run. -/
theorem result_run_of_step (fuel : Nat) (stepped : (lowering.step cursor frame).result = .ok next)
    (advances : cursor.advance = .ok following) :
    (lowering.run (fuel + 1) cursor frame).result = (lowering.run fuel following next).result := by
  have goesOn : ¬ cursor.isExhausted = true := by
    intro exhausted
    have shorter := Cursor.length_rest_advance advances
    rw [List.isEmpty_iff.mp exhausted] at shorter
    exact absurd shorter (Nat.not_lt_zero _)
  have succeeds : ((lowering.step cursor frame).mapError (Error.inMethod lowering.method)).result =
      .ok next := by
    rw [Attempt.mapError, stepped]
    rfl
  rw [run, if_neg goesOn, Attempt.result_bind, succeeds]
  change (liftM cursor.advance >>= _ : Attempt Frame).result = _
  rw [Attempt.result_bind, advances]
  rfl

/-- What has been processed decides nothing about the rest of a run but its frame. -/
theorem Processes.result_run (processes : Processes lowering cursor frame place reached)
    {fuel : Nat} (enough : cursor.rest.length ≤ fuel) :
    exists left, place.rest.length ≤ left ∧
      (lowering.run fuel cursor frame).result = (lowering.run left place reached).result := by
  induction processes generalizing fuel with
  | refl cursor frame => exact ⟨fuel, enough, rfl⟩
  | step stepped advances continues inductionHypothesis =>
      have shorter := Cursor.length_rest_advance advances
      cases fuel with
      | zero => omega
      | succ fuel =>
          have stillEnough := Nat.le_of_lt_succ (Nat.lt_of_lt_of_le shorter enough)
          rcases inductionHypothesis stillEnough with ⟨left, covers, same⟩
          exact ⟨left, covers, (result_run_of_step fuel stepped advances).trans same⟩

/-- A frame with a constraint refuses every instruction but a virtual call. -/
theorem step_of_constraint {constraint : Constraint} {opcode : Opcode}
    (pending : frame.constraint = some constraint) (decodes : cursor.opcode = .ok opcode)
    (noCall : opcode.mnemonic ≠ "callvirt") :
    (lowering.step cursor frame).result = .error (lowering.dangling constraint) := by
  have notVirtual : opcode.effect ≠ some .callVirtual := by
    intro isVirtual
    have guarded := Opcode.isGuarded_of_mem_table (mem_table_of_opcode decodes) isVirtual
    simp only [Opcode.isGuarded, Bool.and_eq_true, beq_iff_eq] at guarded
    exact noCall (eq_of_beq guarded.1.1.1.2)
  have lifted : (liftM (Except.ok opcode : Result Opcode) : Attempt Opcode).result = .ok opcode := rfl
  rw [step, Attempt.result_bind, decodes, lifted]
  -- The case of a virtual call stands before that of a constraint, and `notVirtual` rules it out.
  simp only [bind, Except.bind, pending]
  rfl

/-- A run that ends with a constraint gives no body. -/
theorem lower_of_pending {code : List UInt8} {constraint : Constraint}
    (ran : (lowering.run code.length (Cursor.start code) Frame.start).result = .ok reached)
    (pending : reached.constraint = some constraint) :
    (lowering.lower code).result = .error (lowering.dangling constraint) := by
  rw [lower, Attempt.result_bind, ran]
  simp only [bind, Except.bind, pending]
  rfl

/-- A constraint that no virtual call uses up makes the whole lowering fail. -/
theorem lower_of_dangling {code : List UInt8} {constraint : Constraint}
    (processes : Processes lowering (Cursor.start code) Frame.start place reached)
    (pending : reached.constraint = some constraint)
    (notCalled : place.isExhausted = true ∨ exists opcode, place.opcode = .ok opcode ∧
      opcode.mnemonic ≠ "callvirt") :
    (lowering.lower code).result = .error (lowering.dangling constraint) := by
  rcases processes.result_run (Nat.le_refl code.length) with ⟨left, enough, same⟩
  cases left with
  | zero => exact lower_of_pending same pending
  | succ left =>
      by_cases exhausted : place.isExhausted = true
      · rw [run, if_pos exhausted] at same
        exact lower_of_pending same pending
      · rcases notCalled.resolve_left exhausted with ⟨opcode, decodes, noCall⟩
        rw [lower, Attempt.result_bind, same, run, if_neg exhausted, Attempt.result_bind,
          Attempt.mapError, step_of_constraint pending decodes noCall]
        rfl

end Refusals

/-- A `constrained.` takes effect in exactly the next instruction.  In the code of a
lowered body, a virtual call follows every `constrained.` at once.  The nodes of
constrained calls are paired in order with the `constrained.` instructions: each has
the offset and the operand of the call that follows its own `constrained.`, and the
operand of that.  All other virtual calls are paired in order with the nodes of free
virtual calls, which have only their own operand.

If a `constrained.` has been lowered and the code ends there, or anything but a
virtual call follows, then there is no body, and the error tells the offset of that
`constrained.`. -/
theorem lower_constraints (lowering : Lowering) (code : List UInt8) :
    (forall body, (lowering.lower code).result = .ok body ->
      (Cursor.start code).walk.2 = .ok ⟨code.length, []⟩ ∧
      (forall front constraint back, (Cursor.start code).walk.1 = front ++ constraint :: back ->
        constraint.opcode.isConstraint = true ->
        exists call rest, back = call :: rest ∧ call.opcode.mnemonic = "callvirt") ∧
      List.Forall₂ (Binds (Cursor.start code).walk.1)
        ((Cursor.start code).walk.1.filter (fun sighting => sighting.opcode.isConstraint))
        (body.nodes.filter (fun node => node.operation == .callVirtualConstrained)) ∧
      List.Forall₂ CallsFreely (Sighting.freeCalls none (Cursor.start code).walk.1)
        (body.nodes.filter (fun node => node.operation == .callVirtual))) ∧
    (forall cursor frame next following opcode,
      Processes lowering (Cursor.start code) Frame.start cursor frame ->
      cursor.opcode = .ok opcode -> opcode.mnemonic = "constrained." ->
      (lowering.step cursor frame).result = .ok next -> cursor.advance = .ok following ->
      (following.isExhausted = true ∨ exists other, following.opcode = .ok other ∧
        other.mnemonic ≠ "callvirt") ->
      (lowering.lower code).result =
        .error (.danglingConstraint lowering.method cursor.offset)) := by
  constructor
  · intro body lowered
    rcases accounted_of_lower lowered with ⟨turns, final, accounted⟩
    have held : Held Frame.start (none : Option (Turn lowering)) := rfl
    rw [accounted.walk, accounted.nodes]
    refine ⟨rfl, ?_, ?_, ?_⟩
    · intro front constraint back split isConstraint
      exact accounted.history.followed accounted.settled split isConstraint
    · exact accounted.history.binds accounted.settled held []
    · exact accounted.history.callsFreely held
  · intro cursor frame next following opcode processes decodes isConstraint stepped advances
      notCalled
    rcases constraint_of_step decodes isConstraint stepped advances with ⟨type, pending⟩
    exact lower_of_dangling (processes.concat stepped advances) pending notCalled

/-- A constrained virtual call, and a free one right after it. -/
def sampleConstrainedCode : List UInt8 :=
  [0x17, 0xFE, 0x16, 0x01, 0x00, 0x00, 0x02, 0x6F, 0x01, 0x00, 0x00, 0x06,
    0x6F, 0x01, 0x00, 0x00, 0x06, 0x26, 0x2A]

def sampleConstrainedBody : LoweredBody where
  nodes := [
    ⟨0, 0, .loadConstant, [], [ValueKind.i4.constant, 1], none⟩,
    ⟨1, 7, .callVirtualConstrained, [0], [0x06000001, 0x02000001],
      some "Demo.Number___Demo.Number___Demo.Number.Twice_static"⟩,
    ⟨2, 12, .callVirtual, [1], [0x06000001],
      some "Demo.Number___Demo.Number___Demo.Number.Twice_static"⟩,
    ⟨3, 17, .pop, [2], [], none⟩,
    ⟨4, 18, .ret, [], [], none⟩]
  strings := []

theorem lower_sampleConstrainedCode :
    (sampleLowering.lower sampleConstrainedCode).result = .ok sampleConstrainedBody := by
  decide +kernel

/-- A `constrained.` after another one. -/
def sampleDanglingCode : List UInt8 :=
  [0x17, 0xFE, 0x16, 0x01, 0x00, 0x00, 0x02, 0xFE, 0x16, 0x01, 0x00, 0x00, 0x02]

/-- The frame before the first `constrained.`. -/
def sampleDanglingFrame : Frame :=
  ⟨⟨[0]⟩, [⟨0, 0, .loadConstant, [], [ValueKind.i4.constant, 1], none⟩], [], none⟩

theorem sampleDanglingCode_processes :
    Processes sampleLowering (Cursor.start sampleDanglingCode) Frame.start
      ⟨1, sampleDanglingCode.drop 1⟩ sampleDanglingFrame := by
  have stepped : (sampleLowering.step (Cursor.start sampleDanglingCode) Frame.start).result =
      .ok sampleDanglingFrame := by decide +kernel
  have advances : (Cursor.start sampleDanglingCode).advance =
      .ok ⟨1, sampleDanglingCode.drop 1⟩ := by decide +kernel
  exact .step stepped advances (.refl _ _)

theorem sampleConstraints_bind :
    (sampleLowering.lower sampleConstrainedCode).result = .ok sampleConstrainedBody ∧
    List.Forall₂ (Binds (Cursor.start sampleConstrainedCode).walk.1)
      ((Cursor.start sampleConstrainedCode).walk.1.filter
        (fun sighting => sighting.opcode.isConstraint))
      (sampleConstrainedBody.nodes.filter
        (fun node => node.operation == .callVirtualConstrained)) ∧
    List.Forall₂ CallsFreely (Sighting.freeCalls none (Cursor.start sampleConstrainedCode).walk.1)
      (sampleConstrainedBody.nodes.filter (fun node => node.operation == .callVirtual)) ∧
    (sampleLowering.lower sampleDanglingCode).result = .error (.danglingConstraint "Main" 1) := by
  rcases (lower_constraints sampleLowering sampleConstrainedCode).1 sampleConstrainedBody
    lower_sampleConstrainedCode with ⟨_, _, binds, callsFreely⟩
  have constrained : exists opcode, Cursor.opcode ⟨1, sampleDanglingCode.drop 1⟩ = .ok opcode ∧
      opcode.mnemonic = "constrained." := ⟨_, rfl, rfl⟩
  rcases constrained with ⟨opcode, decodes, isConstraint⟩
  have stepped : (sampleLowering.step ⟨1, sampleDanglingCode.drop 1⟩ sampleDanglingFrame).result =
      .ok { sampleDanglingFrame with constraint := some ⟨0x02000001, 1⟩ } := by decide +kernel
  have advances : Cursor.advance ⟨1, sampleDanglingCode.drop 1⟩ =
      .ok ⟨7, sampleDanglingCode.drop 7⟩ := by decide +kernel
  have notCalled : exists other, Cursor.opcode ⟨7, sampleDanglingCode.drop 7⟩ = .ok other ∧
      other.mnemonic ≠ "callvirt" := ⟨_, rfl, by decide⟩
  refine ⟨lower_sampleConstrainedCode, binds, callsFreely, ?_⟩
  exact (lower_constraints sampleLowering sampleDanglingCode).2 _ _ _ _ opcode
    sampleDanglingCode_processes decodes isConstraint stepped advances (Or.inr notCalled)

end Lowering
end CilGraph
