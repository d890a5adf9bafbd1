import CilGraph.Proofs.Cursor.Instructions
import CilGraph.Proofs.Lowering.References

namespace CilGraph

/-!
# The turns of a lowering

A body is lowered one instruction at a time.  A turn is everything that happens
at one instruction: what the cursor sees there, the frames before and after, and
what is discovered.  A history is the list of turns up to the end of the code.

A lowered body determines its history, and nothing in the body comes from
elsewhere.  The instructions of the turns are those that a walk over the code
sees.  The nodes, the pool and the discoveries of the body are what the turns
have added, one after another.  So two lists that are collected from turns can be
paired turn by turn, which is how the statements about whole bodies are obtained
from statements about one instruction (`forall₂_flatMap`).

Lowering reads only the operands that it needs, and sees in a turn means that all
of them can be read.  That costs nothing: an instruction that is stepped over has
all its bytes.
-/

namespace Cursor

variable {cursor next : Cursor} {sighting : Sighting}

/-! ## Operands -/

theorem read_of_fits {distance width : Nat} (fits : distance + width ≤ cursor.rest.length) :
    exists value, cursor.read distance width = .ok value := by
  have complete : ((cursor.rest.drop distance).take width).length = width := by
    rw [List.length_take, List.length_drop]
    omega
  refine ⟨LittleEndian.combine ((cursor.rest.drop distance).take width), ?_⟩
  simp only [read, complete, if_true]

/-- An instruction that can be stepped over can be seen. -/
theorem sees_of_advance (advances : cursor.advance = .ok next) :
    exists sighting, Sees cursor sighting next := by
  obtain ⟨size, sized, enough, _⟩ := advance_eq_ok.mp advances
  rcases Result.bind_eq_ok.mp sized with ⟨opcode, decodes, counting⟩
  rcases Result.bind_eq_ok.mp counting with ⟨count, counted, total⟩
  have sizeEq : opcode.size + count * opcode.operand.size = size := Except.ok.inj total
  have readable : forall index, index ∈ List.range count ->
      exists operand, cursor.operand index = .ok operand := by
    intro index member
    have within : index < count := List.mem_range.mp member
    have before : (index + 1) * opcode.operand.size ≤ count * opcode.operand.size :=
      Nat.mul_le_mul_right _ within
    rw [Nat.succ_mul] at before
    have fits : opcode.size + index * opcode.operand.size + opcode.operand.size ≤
        cursor.rest.length := by omega
    rcases read_of_fits fits with ⟨value, reads⟩
    refine ⟨(opcode.operand.size, UInt64.ofNat value), ?_⟩
    simp [operand, operandSize, operandValue, decodes, counted, reads, within, bind, Except.bind]
  rcases Result.exists_mapM readable with ⟨operands, reads⟩
  exact ⟨⟨cursor.offset, opcode, count, operands, size⟩, rfl, decodes, counted, reads, sized,
    advances⟩

/-- An operand that is seen has the width of its kind and is what the cursor gives. -/
theorem Sees.forall₂_operands (sees : Sees cursor sighting next) :
    List.Forall₂ (fun index operand => operand.1 = sighting.opcode.operand.size ∧
      cursor.operandValue index = .ok operand.2)
      (List.range sighting.operandCount) sighting.operands := by
  have each := (List.forall₂_and_left _ _).mpr
    ⟨fun index member => List.mem_range.mp member, Result.mapM_eq_ok sees.reads⟩
  refine each.imp ?_
  rintro index ⟨width, value⟩ ⟨within, seen⟩
  rcases Result.bind_eq_ok.mp seen with ⟨otherWidth, widthIs, valuing⟩
  rcases Result.bind_eq_ok.mp valuing with ⟨otherValue, valueIs, assembled⟩
  cases assembled
  have answer := sees.answers widthIs
  rw [if_pos within] at answer
  exact ⟨(Except.ok.inj answer).symm, valueIs⟩

/-- The only operand of an instruction that has one. -/
theorem Sees.operands_eq {operand : UInt64} (sees : Sees cursor sighting next)
    (hasOperand : sighting.opcode.operand ≠ .none)
    (isSingle : sighting.opcode.operand ≠ .branchTable)
    (reads : cursor.operandValue 0 = .ok operand) :
    sighting.operands = [(sighting.opcode.operand.size, operand)] := by
  rcases Result.bind_eq_ok.mp sees.counted with ⟨opcode, decodes, counting⟩
  rw [sees.decodes] at decodes
  cases decodes
  have single : sighting.operandCount = 1 := by
    split at counting
    · contradiction
    · contradiction
    · exact (Except.ok.inj counting).symm
  have each := sees.forall₂_operands
  rw [single] at each
  rcases List.forall₂_cons_left_iff.mp each with ⟨⟨width, value⟩, others, first, rest, same⟩
  rcases first with ⟨widthIs, valueIs⟩
  rw [reads] at valueIs
  cases valueIs
  cases rest
  rw [same, ← widthIs]

/-- The size of what is seen is what the cursor steps over. -/
theorem Sees.within (sees : Sees cursor sighting next) :
    sighting.offset + sighting.size ≤ cursor.codeLength := by
  obtain ⟨size, sized, enough, _⟩ := advance_eq_ok.mp sees.advances
  rw [sees.sized] at sized
  cases sized
  rw [sees.offset, codeLength]
  omega

end Cursor

/-! ## What a step adds -/

namespace Frame

/-- The nodes that a later frame has beside those of an earlier one. -/
def added (frame next : Frame) : List Node :=
  next.nodes.drop frame.nodes.length

/-- The literals that a later frame has beside those of an earlier one. -/
def pooled (frame next : Frame) : List String :=
  next.strings.drop frame.strings.length

end Frame

namespace Lowering

theorem added_of_append {frame next : Frame} {nodes : List Node}
    (same : next.nodes = frame.nodes ++ nodes) : frame.added next = nodes := by
  rw [Frame.added, same, List.drop_left]

theorem pooled_of_append {frame next : Frame} {strings : List String}
    (same : next.strings = frame.strings ++ strings) : frame.pooled next = strings := by
  rw [Frame.pooled, same, List.drop_left]

/-- A step removes neither nodes nor literals. -/
theorem Performs.keeps {lowering : Lowering} {cursor : Cursor} {frame next : Frame}
    {effect : Effect} {discoveries : List Discovery}
    (performs : Performs lowering cursor frame effect discoveries next) :
    frame.nodes <+: next.nodes ∧ frame.strings <+: next.strings := by
  cases performs with
  | common isCommon constant discovered applied =>
      rcases applied with ⟨inputs, stack, popped, same⟩
      subst same
      cases effect.clears <;> exact ⟨List.prefix_append _ _, List.prefix_rfl⟩
  | loadString | newObject => exact ⟨List.prefix_append _ _, List.prefix_append _ _⟩
  | duplicate | retNothing | retValue | newArray | call | callVirtual | reference =>
      exact ⟨List.prefix_append _ _, List.prefix_rfl⟩
  | constrained reads => exact ⟨List.prefix_rfl, List.prefix_rfl⟩

/-- What the common rule adds to a frame: one node with the constants of the
effect, and nothing to the pool. -/
structure Ordinary (lowering : Lowering) (cursor : Cursor) (effect : Effect) (rule : StackEffect)
    (frame next : Frame) (discoveries : List Discovery) (node : Node) : Prop where
  added : frame.added next = [node]
  pooled : frame.pooled next = []
  placed : node.offset = UInt32.ofNat cursor.offset
  operation : node.operation = rule.operation
  constants : effect.constants cursor = .ok node.constants
  discovered : effect.discoveries lowering.linkage.program cursor = .ok discoveries

theorem Performs.ordinary {lowering : Lowering} {cursor : Cursor} {frame next : Frame}
    {effect : Effect} {rule : StackEffect} {discoveries : List Discovery}
    (performs : Performs lowering cursor frame effect discoveries next)
    (isCommon : effect.common? = some rule) :
    exists node, Ordinary lowering cursor effect rule frame next discoveries node := by
  cases performs with
  | @common _ other constants _ _ sameRule constant discovered applied =>
      rcases applied with ⟨inputs, stack, popped, same⟩
      rw [isCommon] at sameRule
      cases sameRule
      subst same
      refine ⟨⟨frame.nextId, UInt32.ofNat cursor.offset, rule.operation, inputs, constants, none⟩,
        ?_, ?_, rfl, rfl, constant, discovered⟩
      · cases effect.clears <;> exact List.drop_left
      · cases effect.clears <;> exact List.drop_length
  | _ => cases isCommon

/-! ## Turns -/

/-- What happens at one instruction of a body that is lowered. -/
structure Turn (lowering : Lowering) where
  cursor : Cursor
  following : Cursor
  sighting : Sighting
  effect : Effect
  before : Frame
  after : Frame
  discoveries : List Discovery
  sees : cursor.Sees sighting following
  hasEffect : sighting.opcode.effect = some effect
  unconstrained : before.constraint = none ∨ effect = .callVirtual
  performs : Performs lowering cursor before effect discoveries after

namespace Turn

variable {lowering : Lowering}

/-- The nodes of a turn: one, or none for a `constrained.`. -/
def nodes (turn : Turn lowering) : List Node :=
  turn.before.added turn.after

/-- What a turn enters into the pool. -/
def literals (turn : Turn lowering) : List String :=
  turn.before.pooled turn.after

theorem nodes_append (turn : Turn lowering) :
    turn.after.nodes = turn.before.nodes ++ turn.nodes :=
  (List.prefix_iff_eq_append.mp turn.performs.keeps.1).symm

theorem literals_append (turn : Turn lowering) :
    turn.after.strings = turn.before.strings ++ turn.literals :=
  (List.prefix_iff_eq_append.mp turn.performs.keeps.2).symm

theorem listed (turn : Turn lowering) : turn.sighting.opcode ∈ Opcode.table :=
  mem_table_of_opcode turn.sees.decodes

/-- A node of a turn stands at the offset of the instruction and has the operation
that the instruction prescribes. -/
theorem prescribed (turn : Turn lowering) {node : Node} (member : node ∈ turn.nodes) :
    node.offset = UInt32.ofNat turn.sighting.offset ∧
      turn.effect.operation? turn.before.constraint.isSome = some node.operation := by
  rcases turn.performs.renders turn.unconstrained with ⟨made, renders⟩ | ⟨_, same, _⟩
  · have only : turn.nodes = [made] := by
      rw [nodes, Frame.added, renders.appended, List.drop_left]
    rw [only] at member
    cases List.mem_singleton.mp member
    rw [turn.sees.offset]
    exact ⟨renders.placed, renders.prescribed⟩
  · rw [nodes, Frame.added, same, List.drop_length] at member
    cases member

end Turn

/-- The turns from a cursor to the end of the code. -/
inductive History (lowering : Lowering) :
    Cursor -> Frame -> List (Turn lowering) -> Frame -> Prop
  | done {cursor : Cursor} {frame : Frame} (exhausted : cursor.rest = []) :
      History lowering cursor frame [] frame
  | turn {final : Frame} {turns : List (Turn lowering)} (turn : Turn lowering)
      (continues : History lowering turn.following turn.after turns final) :
      History lowering turn.cursor turn.before (turn :: turns) final

section Histories

variable {lowering : Lowering} {cursor : Cursor} {frame final : Frame}
  {turns : List (Turn lowering)} {discoveries : List Discovery}

/-- Every run has a history, and its discoveries are those of the turns. -/
theorem Runs.history (runs : Runs lowering cursor frame discoveries final) :
    exists turns, History lowering cursor frame turns final ∧
      discoveries = turns.flatMap Turn.discoveries := by
  induction runs with
  | done exhausted => exact ⟨[], .done exhausted, rfl⟩
  | @step cursor following frame next final opcode effect before after decodes hasEffect
      unconstrained performs advances continues inductionHypothesis =>
      rcases inductionHypothesis with ⟨turns, history, later⟩
      rcases Cursor.sees_of_advance advances with ⟨sighting, sees⟩
      have sameOpcode : opcode = sighting.opcode :=
        Except.ok.inj (decodes.symm.trans sees.decodes)
      subst sameOpcode
      let turn : Turn lowering := ⟨cursor, following, sighting, effect, frame, next, before, sees,
        hasEffect, unconstrained, performs⟩
      refine ⟨turn :: turns, .turn turn history, ?_⟩
      rw [List.flatMap_cons, ← later]

/-- The instructions of a history are those that a walk over the code sees. -/
theorem History.walk (history : History lowering cursor frame turns final) :
    cursor.walk = (turns.map Turn.sighting, .ok ⟨cursor.codeLength, []⟩) := by
  induction history with
  | @done cursor frame exhausted =>
      rcases cursor with ⟨offset, rest⟩
      subst exhausted
      exact Cursor.walk_of_exhausted rfl
  | turn turn continues inductionHypothesis =>
      rw [Cursor.walk_of_sees turn.sees, inductionHypothesis,
        Cursor.codeLength_of_advance turn.sees.advances]
      rfl

theorem History.nodes_append (history : History lowering cursor frame turns final) :
    final.nodes = frame.nodes ++ turns.flatMap Turn.nodes := by
  induction history with
  | done exhausted => simp
  | turn turn continues inductionHypothesis =>
      rw [inductionHypothesis, turn.nodes_append, List.append_assoc, List.flatMap_cons]

theorem History.literals_append (history : History lowering cursor frame turns final) :
    final.strings = frame.strings ++ turns.flatMap Turn.literals := by
  induction history with
  | done exhausted => simp
  | turn turn continues inductionHypothesis =>
      rw [inductionHypothesis, turn.literals_append, List.append_assoc, List.flatMap_cons]

/-- The pool after a turn is the beginning of the whole pool. -/
theorem History.pool_prefix (history : History lowering cursor frame turns final)
    {turn : Turn lowering} (member : turn ∈ turns) : turn.after.strings <+: final.strings := by
  induction history with
  | done exhausted => cases member
  | turn first continues inductionHypothesis =>
      rcases List.mem_cons.mp member with same | later
      · subst same
        exact ⟨_, continues.literals_append.symm⟩
      · exact inductionHypothesis later

/-- A turn lies within the code that is left. -/
theorem History.codeLength_eq (history : History lowering cursor frame turns final)
    {turn : Turn lowering} (member : turn ∈ turns) :
    turn.cursor.codeLength = cursor.codeLength := by
  induction history with
  | done exhausted => cases member
  | turn first continues inductionHypothesis =>
      rcases List.mem_cons.mp member with same | later
      · rw [same]
      · rw [inductionHypothesis later, Cursor.codeLength_of_advance first.sees.advances]

end Histories

/-- What a lowered body consists of: its code is seen to the end, and every part
of it is collected from the turns. -/
structure Accounted (lowering : Lowering) (code : List UInt8) (body : LoweredBody)
    (turns : List (Turn lowering)) (final : Frame) : Prop where
  history : History lowering (Cursor.start code) Frame.start turns final
  settled : final.constraint = none
  walk : (Cursor.start code).walk = (turns.map Turn.sighting, .ok ⟨code.length, []⟩)
  nodes : body.nodes = turns.flatMap Turn.nodes
  strings : body.strings = turns.flatMap Turn.literals
  discoveries : (lowering.lower code).discoveries = turns.flatMap Turn.discoveries

/-- Every instruction of a lowered body has a turn. -/
theorem Accounted.exists_turn {lowering : Lowering} {code : List UInt8} {body : LoweredBody}
    {turns : List (Turn lowering)} {final : Frame}
    (accounted : Accounted lowering code body turns final) {sighting : Sighting}
    (member : sighting ∈ (Cursor.start code).walk.1) :
    exists turn, turn ∈ turns ∧ turn.sighting = sighting := by
  rw [accounted.walk] at member
  exact List.mem_map.mp member

theorem accounted_of_lower {lowering : Lowering} {code : List UInt8} {body : LoweredBody}
    (lowered : (lowering.lower code).result = .ok body) :
    exists turns final, Accounted lowering code body turns final := by
  rcases lower_yields (Attempt.yields_of_result lowered) with ⟨final, runs, settled, same⟩
  rcases runs.history with ⟨turns, history, discovered⟩
  have atStart : (Cursor.start code).codeLength = code.length := Nat.zero_add _
  have walk := history.walk
  rw [atStart] at walk
  subst same
  exact ⟨turns, final, history, settled, walk, history.nodes_append, history.literals_append,
    discovered⟩

end Lowering
end CilGraph
