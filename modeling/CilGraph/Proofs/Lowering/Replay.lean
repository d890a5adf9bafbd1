import CilGraph.Proofs.Lowering.Step
import Mathlib.Algebra.Group.Nat.Defs
import Mathlib.Data.List.Induction

namespace CilGraph

/-!
# Nodes replay the operand stack

A lowered body no longer has an operand stack, but its nodes determine one.
Replaying them from an empty stack, each node takes the producers that its
operation calls for, must name exactly these as its inputs, and leaves its own
number if it produces a value.  The replay reads nothing but the node and, for
a call, the callable that the node's first constant stands for.  It does not
know the instructions from which the nodes were made.

The table `Operation.stackRule` says once for each operation what it does to
the stack.  The instruction table gives the same data for each instruction, and
`Opcode.isRegular_of_mem_table` checks that the two agree.  From there on the
argument is about the stack: what a step leaves on it is what the replay of its
node leaves.  That the producers of a node's inputs stand before it follows
from the replay alone.
-/

/-! ## Stack rules of operations -/

/-- What a node does to the stack of producers. -/
inductive StackRule where
  /-- Take a number of producers, the topmost first. -/
  | ordinary (pops : Nat) (produces : Bool)
  /-- Empty the stack and take none. -/
  | clears
  /-- Take the topmost producer and leave it twice. -/
  | duplicates
  /-- Take the only producer, or none if the stack is empty. -/
  | returns
  /-- Take the operands of a call as a block, the deepest first. -/
  | calls
  /-- Take the arguments of a constructor as a block, the deepest first. -/
  | constructs
deriving DecidableEq, Repr

/-- The stack rule of an operation. -/
def Operation.stackRule : Operation -> StackRule
  | .leave | .endFinally => .clears
  | .duplicate => .duplicates
  | .ret => .returns
  | .call | .callVirtual | .callVirtualConstrained => .calls
  | .newObject => .constructs
  | .nop | .rethrow | .branch | .jump => .ordinary 0 false
  | .loadArgument | .loadArgumentAddress | .loadLocal | .loadLocalAddress | .loadNull
  | .loadConstant | .loadString | .loadToken | .loadStaticField | .loadStaticFieldAddress
  | .sizeOf | .loadFunction => .ordinary 0 true
  | .pop | .throw | .storeArgument | .storeLocal | .storeStaticField | .initObject
  | .branchTrue | .branchFalse | .switch | .endFilter => .ordinary 1 false
  | .loadField | .loadFieldAddress | .loadLength | .loadIndirect | .loadObject | .localAlloc
  | .negate | .not | .convert | .convertCheckOverflow | .convertCheckOverflowUn | .newArray
  | .isInstance | .castClass | .box | .unboxAny => .ordinary 1 true
  | .storeField | .storeIndirect | .storeObject | .branchEqual | .uBranchNotEqual
  | .branchGreaterOrEqual | .uBranchGreaterOrEqual | .branchGreater | .uBranchGreater
  | .branchLessOrEqual | .uBranchLessOrEqual | .branchLess | .uBranchLess => .ordinary 2 false
  | .loadElement | .loadElementAddress | .add | .addCheckOverflow | .uAddCheckOverflow
  | .subtract | .subtractCheckOverflow | .uSubtractCheckOverflow | .multiply
  | .multiplyCheckOverflow | .uMultiplyCheckOverflow | .divide | .uDivide | .remainder
  | .uRemainder | .and | .or | .xor | .shiftLeft | .shiftRight | .uShiftRight | .compareEqual
  | .compareGreater | .uCompareGreater | .compareLess | .uCompareLess => .ordinary 2 true
  | .storeElement | .copyBlock | .initBlock => .ordinary 3 false

/-- An effect agrees with the stack rule of the operation of its node. -/
def Effect.isRegular (effect : Effect) : Bool :=
  match effect.common?, effect with
  | some rule, _ =>
    if effect.clears then
      rule.operation.stackRule == .clears && rule.pops == 0 && !rule.produces
    else rule.operation.stackRule == .ordinary rule.pops rule.produces
  | none, .reference operation produces => operation.stackRule == .ordinary 0 produces
  | none, _ => true

theorem Opcode.isRegular_of_mem_table {opcode : Opcode} (member : opcode ∈ Opcode.table)
    {effect : Effect} (hasEffect : opcode.effect = some effect) : effect.isRegular = true :=
  Opcode.check_of_mem_table (fun _ => Effect.isRegular) (by decide +kernel) member hasEffect

namespace Node

/-- The callable that a node calls or constructs with. -/
def callee? (linkage : Linkage) (node : Node) : Option Callable := do
  let operand ← node.constants.head?
  let declared ← (linkage.program.callable (Lowering.tokenOf operand)).toOption
  (linkage.resolveCallable declared).toOption

theorem callee?_eq_some {linkage : Linkage} {node : Node} {operand : UInt64}
    {declared resolved : Callable} (first : node.constants.head? = some operand)
    (found : linkage.program.callable (Lowering.tokenOf operand) = .ok declared)
    (resolves : linkage.resolveCallable declared = .ok resolved) :
    node.callee? linkage = some resolved := by
  unfold callee?
  rw [first, Option.bind_eq_bind, Option.bind_some, found]
  change (linkage.resolveCallable declared).toOption = some resolved
  rw [resolves]
  rfl

/-- The producers that a node has to name as its inputs, and the stack without
them.  There are none if the stack does not hold what the node needs. -/
def takes (linkage : Linkage) (stack : List UInt32) (node : Node) :
    Option (List UInt32 × List UInt32) :=
  match node.operation.stackRule with
  | .ordinary pops _ =>
    if pops ≤ stack.length then some (stack.take pops, stack.drop pops) else none
  | .clears => some ([], [])
  | .duplicates =>
    match stack with
    | [] => none
    | top :: rest => some ([top], top :: top :: rest)
  | .returns =>
    match stack with
    | [] => some ([], [])
    | [top] => some ([top], [])
    | _ :: _ :: _ => none
  | .calls => do
    let callee ← node.callee? linkage
    if callee.stackInputs ≤ stack.length then
      some ((stack.take callee.stackInputs).reverse, stack.drop callee.stackInputs)
    else none
  | .constructs => do
    let callee ← node.callee? linkage
    if callee.params.length ≤ stack.length then
      some ((stack.take callee.params.length).reverse, stack.drop callee.params.length)
    else none

/-- Whether a node leaves its own number on the stack. -/
def produces (linkage : Linkage) (node : Node) : Bool :=
  match node.operation.stackRule with
  | .ordinary _ produces => produces
  | .clears => false
  | .duplicates => false
  | .returns => false
  | .calls => (node.callee? linkage).any (fun callee => callee.returns.isSome)
  | .constructs => true

/-- The stack after a node, if the node names the producers that it takes. -/
def replay (linkage : Linkage) (stack : List UInt32) (node : Node) : Option (List UInt32) :=
  match node.takes linkage stack with
  | none => none
  | some (inputs, rest) =>
    if node.inputs = inputs then some (if node.produces linkage then node.id :: rest else rest)
    else none

/-- The stack after nodes that follow one another. -/
def replayAll (linkage : Linkage) (stack : List UInt32) (nodes : List Node) :
    Option (List UInt32) :=
  nodes.foldlM (replay linkage) stack

theorem replayAll_concat (linkage : Linkage) (stack : List UInt32) (nodes : List Node)
    (node : Node) :
    replayAll linkage stack (nodes ++ [node]) =
      (replayAll linkage stack nodes).bind (fun stack => node.replay linkage stack) := by
  unfold replayAll
  rw [List.foldlM_append]
  cases nodes.foldlM (replay linkage) stack with
  | none => rfl
  | some stack => simp only [List.foldlM_cons, List.foldlM_nil, Option.bind_eq_bind,
      Option.bind_some, Option.pure_def, Option.bind_fun_some]

/-- A replay is determined by what the node takes. -/
theorem replay_eq_some {linkage : Linkage} {stack rest : List UInt32} {node : Node}
    (takes : node.takes linkage stack = some (node.inputs, rest)) :
    node.replay linkage stack =
      some (if node.produces linkage then node.id :: rest else rest) := by
  unfold replay
  rw [takes]
  exact if_pos rfl

theorem replay_inversion {linkage : Linkage} {stack after : List UInt32} {node : Node}
    (replayed : node.replay linkage stack = some after) :
    exists rest, node.takes linkage stack = some (node.inputs, rest) ∧
      after = if node.produces linkage then node.id :: rest else rest := by
  unfold replay at replayed
  split at replayed
  · cases replayed
  · rename_i inputs rest takes
    split at replayed
    · rename_i same
      rw [same]
      exact ⟨rest, takes, (Option.some.inj replayed).symm⟩
    · cases replayed

/-! ## Inputs stand before -/

/-- A node takes its inputs from the stack and adds nothing but its own number. -/
theorem takes_subset {linkage : Linkage} {stack inputs rest : List UInt32} {node : Node}
    (takes : node.takes linkage stack = some (inputs, rest)) :
    (forall id, id ∈ inputs -> id ∈ stack) ∧ (forall id, id ∈ rest -> id ∈ stack) := by
  have block : forall count : Nat,
      (if count ≤ stack.length then some ((stack.take count).reverse, stack.drop count)
        else none) = some (inputs, rest) ->
      (forall id, id ∈ inputs -> id ∈ stack) ∧ (forall id, id ∈ rest -> id ∈ stack) := by
    intro count taken
    split at taken
    · cases taken
      exact ⟨fun id member => List.mem_of_mem_take (List.mem_reverse.mp member),
        fun id member => List.mem_of_mem_drop member⟩
    · cases taken
  unfold Node.takes at takes
  split at takes
  · split at takes
    · cases takes
      exact ⟨fun id member => List.mem_of_mem_take member,
        fun id member => List.mem_of_mem_drop member⟩
    · cases takes
  · cases takes
    exact ⟨fun id member => absurd member List.not_mem_nil,
      fun id member => absurd member List.not_mem_nil⟩
  · split at takes
    · cases takes
    · cases takes
      refine ⟨fun id member => List.mem_cons.mpr (Or.inl (List.mem_singleton.mp member)), ?_⟩
      intro id member
      rcases List.mem_cons.mp member with same | among
      · exact List.mem_cons.mpr (Or.inl same)
      · exact among
  · split at takes
    · cases takes
      exact ⟨fun id member => member, fun id member => member⟩
    · cases takes
      exact ⟨fun id member => member, fun id member => absurd member List.not_mem_nil⟩
    · cases takes
  · rcases Option.bind_eq_some_iff.mp takes with ⟨callee, _, taken⟩
    exact block callee.stackInputs taken
  · rcases Option.bind_eq_some_iff.mp takes with ⟨callee, _, taken⟩
    exact block callee.params.length taken

/-- Nodes are numbered by their places. -/
def Numbered (nodes : List Node) : Prop :=
  forall (index : Nat) (node : Node), nodes[index]? = some node -> node.id.toNat = index

/-- A number stands for a node that leaves a value. -/
def Produced (linkage : Linkage) (nodes : List Node) (id : UInt32) : Prop :=
  exists producer, nodes[id.toNat]? = some producer ∧ producer.produces linkage = true

theorem getElem?_concat_eq_some {nodes : List Node} {last node : Node} {index : Nat}
    (found : (nodes ++ [last])[index]? = some node) :
    (nodes[index]? = some node) ∨ (index = nodes.length ∧ node = last) := by
  by_cases inside : index < nodes.length
  · rw [List.getElem?_append_left inside] at found
    exact Or.inl found
  · have bound := (List.getElem?_eq_some_iff.mp found).1
    rw [List.length_append, List.length_singleton] at bound
    have atEnd : index = nodes.length := by omega
    rw [atEnd, List.getElem?_concat_length] at found
    exact Or.inr ⟨atEnd, (Option.some.inj found).symm⟩

theorem numbered_of_concat {nodes : List Node} {node : Node}
    (numbered : Numbered (nodes ++ [node])) :
    Numbered nodes ∧ node.id.toNat = nodes.length := by
  constructor
  · intro index earlier found
    have inside := (List.getElem?_eq_some_iff.mp found).1
    apply numbered index earlier
    rw [List.getElem?_append_left inside]
    exact found
  · apply numbered nodes.length node
    rw [List.getElem?_concat_length]

theorem Produced.concat {linkage : Linkage} {nodes : List Node} {id : UInt32}
    (produced : Produced linkage nodes id) (node : Node) :
    Produced linkage (nodes ++ [node]) id := by
  rcases produced with ⟨producer, found, produces⟩
  have inside := (List.getElem?_eq_some_iff.mp found).1
  refine ⟨producer, ?_, produces⟩
  rw [List.getElem?_append_left inside]
  exact found

theorem Produced.lt_length {linkage : Linkage} {nodes : List Node} {id : UInt32}
    (produced : Produced linkage nodes id) : id.toNat < nodes.length := by
  rcases produced with ⟨producer, found, produces⟩
  exact (List.getElem?_eq_some_iff.mp found).1

/-- The induction is on the last node, since what it takes has been left by
those before it. -/
theorem produced_of_replayAll {linkage : Linkage} {nodes : List Node} {stack : List UInt32}
    (numbered : Numbered nodes) (replayed : replayAll linkage [] nodes = some stack) :
    (forall id, id ∈ stack -> Produced linkage nodes id) ∧
      forall (index : Nat) (node : Node), nodes[index]? = some node ->
        forall input, input ∈ node.inputs ->
        input.toNat < index ∧ Produced linkage nodes input := by
  induction nodes using List.reverseRecOn generalizing stack with
  | nil =>
      cases replayed
      refine ⟨fun id member => absurd member List.not_mem_nil, ?_⟩
      intro index node found
      cases found
  | append_singleton nodes last inductionHypothesis =>
      rcases numbered_of_concat numbered with ⟨numberedBefore, lastNumber⟩
      rw [replayAll_concat] at replayed
      rcases Option.bind_eq_some_iff.mp replayed with ⟨before, replayedBefore, replayedLast⟩
      rcases inductionHypothesis numberedBefore replayedBefore with ⟨onStack, ofInputs⟩
      rcases replay_inversion replayedLast with ⟨rest, takes, left⟩
      rcases takes_subset takes with ⟨inputsBefore, restBefore⟩
      constructor
      · intro id member
        rw [left] at member
        split at member
        · rename_i produces
          rcases List.mem_cons.mp member with same | among
          · refine ⟨last, ?_, produces⟩
            rw [same, lastNumber, List.getElem?_concat_length]
          · exact (onStack id (restBefore id among)).concat last
        · exact (onStack id (restBefore id member)).concat last
      · intro index node found input member
        rcases getElem?_concat_eq_some found with earlier | ⟨atEnd, same⟩
        · rcases ofInputs index node earlier input member with ⟨below, produced⟩
          exact ⟨below, produced.concat last⟩
        · rw [same] at member
          have produced := onStack input (inputsBefore input member)
          rw [atEnd]
          exact ⟨produced.lt_length, produced.concat last⟩

end Node

/-! ## Steps and their replay -/

theorem OperandStack.pop?_eq_some {stack rest : OperandStack} {top : UInt32}
    (popped : stack.pop? = some (top, rest)) : stack.slots = top :: rest.slots := by
  unfold pop? at popped
  split at popped
  · cases popped
  · rename_i slots
    cases popped
    exact slots

theorem OperandStack.popMany?_eq_some {count : Nat} {stack rest : OperandStack}
    {ids : List UInt32} (popped : stack.popMany? count = some (ids, rest)) :
    count ≤ stack.slots.length ∧ ids = (stack.slots.take count).reverse ∧
      rest.slots = stack.slots.drop count := by
  unfold popMany? at popped
  split at popped
  · rename_i enough
    cases popped
    exact ⟨enough, rfl, rfl⟩
  · cases popped

/-- Taking producers one by one is taking a block from the top. -/
theorem OperandStack.popEach?_eq_some {count : Nat} {stack rest : OperandStack}
    {ids : List UInt32} (popped : popEach? count stack = some (ids, rest)) :
    count ≤ stack.slots.length ∧ ids = stack.slots.take count ∧
      rest.slots = stack.slots.drop count := by
  induction count generalizing stack ids with
  | zero =>
      cases popped
      exact ⟨Nat.zero_le _, rfl, rfl⟩
  | succ count inductionHypothesis =>
      rcases Option.bind_eq_some_iff.mp popped with ⟨⟨top, below⟩, topmost, others⟩
      rcases Option.bind_eq_some_iff.mp others with ⟨⟨more, last⟩, deeper, together⟩
      cases together
      have same := pop?_eq_some topmost
      rcases inductionHypothesis deeper with ⟨enough, taken, left⟩
      rw [same, taken, left]
      exact ⟨Nat.succ_le_succ enough, rfl, rfl⟩

namespace Lowering

/-- A step adds one node, whose replay does to the stack what the step did. -/
structure Emits (linkage : Linkage) (frame next : Frame) (node : Node) : Prop where
  appended : next.nodes = frame.nodes ++ [node]
  numbered : node.id = frame.nextId
  replays : node.replay linkage frame.stack.slots = some next.stack.slots

section Emission

variable {linkage : Linkage} {frame base : Frame} {offset : Nat} {operation : Operation}
  {produces : Bool} {inputs : List UInt32} {constants : List UInt64} {text : Option String}

/-- A frame that differs from the one before only in what the node has taken
from the stack emits the node. -/
theorem emits_emit (sameNodes : base.nodes = frame.nodes)
    (takes : Node.takes linkage frame.stack.slots
      ⟨frame.nextId, UInt32.ofNat offset, operation, inputs, constants, text⟩ =
        some (inputs, base.stack.slots))
    (leaves : Node.produces linkage
      ⟨frame.nextId, UInt32.ofNat offset, operation, inputs, constants, text⟩ = produces) :
    Emits linkage frame (base.emit offset operation produces inputs constants text)
      ⟨frame.nextId, UInt32.ofNat offset, operation, inputs, constants, text⟩ := by
  have sameId : base.nextId = frame.nextId := by
    unfold Frame.nextId
    rw [sameNodes]
  refine ⟨?_, rfl, ?_⟩
  · unfold Frame.emit
    rw [sameNodes, sameId]
  · rw [Node.replay_eq_some takes, leaves]
    unfold Frame.emit
    rw [sameId]
    cases produces with
    | false => rfl
    | true => rfl

theorem emits_ordinary {pops : Nat} (rule : operation.stackRule = .ordinary pops produces)
    (sameNodes : base.nodes = frame.nodes) (enough : pops ≤ frame.stack.slots.length)
    (taken : inputs = frame.stack.slots.take pops)
    (left : base.stack.slots = frame.stack.slots.drop pops) :
    exists node, Emits linkage frame
      (base.emit offset operation produces inputs constants text) node := by
  refine ⟨_, emits_emit sameNodes ?_ ?_⟩
  · unfold Node.takes
    simp only [rule]
    rw [if_pos enough, taken, left]
  · unfold Node.produces
    simp only [rule]

theorem emits_clearing (rule : operation.stackRule = .clears) (sameNodes : base.nodes = frame.nodes)
    (cleared : base.stack.slots = []) :
    exists node, Emits linkage frame
      (base.emit offset operation false [] constants text) node := by
  refine ⟨_, emits_emit sameNodes ?_ ?_⟩
  · unfold Node.takes
    simp only [rule]
    rw [cleared]
  · unfold Node.produces
    simp only [rule]

end Emission

/-- Whatever a call looks like, its node is a call whose first constant stands
for the callable. -/
theorem callForm_calls (isVirtual : Bool) (operand : UInt64) (constraint : Option Constraint) :
    (callForm isVirtual operand constraint).1.stackRule = .calls ∧
      (callForm isVirtual operand constraint).2.head? = some operand := by
  cases constraint with
  | none => cases isVirtual <;> exact ⟨rfl, rfl⟩
  | some constraint => cases isVirtual <;> exact ⟨rfl, rfl⟩

section Steps

variable {lowering : Lowering} {cursor : Cursor} {frame next : Frame}
  {discoveries : List Discovery}

theorem emits_call {isVirtual : Bool} {discovery : Discovery} {operand : UInt64}
    {target : Callable} {name : String} {inputs : List UInt32} {stack : OperandStack}
    (called : Called lowering cursor frame discovery operand target name inputs stack) :
    exists node, Emits lowering.linkage frame
      (afterCall cursor isVirtual frame operand target name inputs stack) node := by
  rcases called.refers with ⟨declared, found, referred⟩
  rcases OperandStack.popMany?_eq_some called.pops with ⟨enough, taken, left⟩
  rcases callForm_calls isVirtual operand frame.constraint with ⟨rule, first⟩
  have callee : forall id offset, Node.callee? lowering.linkage
      ⟨id, offset, (callForm isVirtual operand frame.constraint).1, inputs,
        (callForm isVirtual operand frame.constraint).2, Node.textOf name⟩ = some target :=
    fun id offset => Node.callee?_eq_some first found referred.resolves
  have sameNodes : { frame with stack := stack, constraint := none }.nodes = frame.nodes := rfl
  refine ⟨_, emits_emit sameNodes ?_ ?_⟩
  · unfold Node.takes
    simp only [rule, callee]
    rw [Option.bind_eq_bind, Option.bind_some, if_pos enough, ← taken, left]
  · unfold Node.produces
    simp only [rule, callee]
    rfl

theorem emits_newObject {operand index : UInt64} {declared constructor : Callable}
    {typeName name : String} {inputs : List UInt32} {stack : OperandStack}
    {discovery : Discovery}
    (found : lowering.linkage.program.callable (tokenOf operand) = .ok declared)
    (referred : Referred lowering declared constructor name discovery)
    (popped : frame.stack.popMany? constructor.params.length = some (inputs, stack)) :
    exists node, Emits lowering.linkage frame
      (({ frame with stack := stack }.addString name).emit cursor.offset .newObject true inputs
        [operand, index] (Node.textOf typeName)) node := by
  rcases OperandStack.popMany?_eq_some popped with ⟨enough, taken, left⟩
  have callee : forall id offset, Node.callee? lowering.linkage
      ⟨id, offset, .newObject, inputs, [operand, index], Node.textOf typeName⟩ =
        some constructor :=
    fun id offset => Node.callee?_eq_some rfl found referred.resolves
  have sameNodes : ({ frame with stack := stack }.addString name).nodes = frame.nodes := rfl
  refine ⟨_, emits_emit sameNodes ?_ rfl⟩
  unfold Node.takes
  simp only [Operation.stackRule, callee]
  rw [Option.bind_eq_bind, Option.bind_some, if_pos enough, ← taken]
  exact congrArg (fun rest => some (inputs, rest)) left.symm

/-- The common rule takes from the stack what the operation of its node takes,
because the instruction is regular. -/
theorem emits_common {effect : Effect} {rule : StackEffect} {constants : List UInt64}
    (regular : effect.isRegular = true) (isCommon : effect.common? = some rule)
    (applied : Applied cursor.offset rule.operation rule.pops rule.produces constants
      (if effect.clears then frame.clear else frame) next) :
    exists node, Emits lowering.linkage frame next node := by
  rcases applied with ⟨inputs, stack, popped, same⟩
  rcases OperandStack.popEach?_eq_some popped with ⟨enough, taken, left⟩
  unfold Effect.isRegular at regular
  rw [isCommon] at regular
  rw [same]
  cases clears : effect.clears with
  | true =>
      simp only [clears, if_true, Bool.and_eq_true, beq_iff_eq, Bool.not_eq_true'] at *
      rcases regular with ⟨⟨ruleOfOperation, noPops⟩, noValue⟩
      rw [noPops] at taken left
      rw [taken, noValue]
      exact emits_clearing ruleOfOperation rfl left
  | false =>
      simp only [clears, Bool.false_eq_true, if_false, beq_iff_eq] at *
      exact emits_ordinary regular rfl enough taken left

/-- Every step emits a node, except that a `constrained.` leaves nodes and stack
as they are. -/
theorem Performs.emits {effect : Effect} (regular : effect.isRegular = true)
    (performs : Performs lowering cursor frame effect discoveries next) :
    (exists node, Emits lowering.linkage frame next node) ∨
      (next.nodes = frame.nodes ∧ next.stack = frame.stack) := by
  cases performs with
  | common isCommon constant discovered applied =>
      exact Or.inl (emits_common regular isCommon applied)
  | loadString reads found =>
      exact Or.inl (emits_ordinary rfl rfl (Nat.zero_le _) rfl rfl)
  | duplicate top =>
      have slots := OperandStack.pop?_eq_some top
      refine Or.inl ⟨_, rfl, rfl, ?_⟩
      change _ = some (_ :: frame.stack.slots)
      rw [slots]
      exact if_pos rfl
  | retNothing empty =>
      refine Or.inl ⟨_, emits_emit rfl ?_ rfl⟩
      rw [empty]
      rfl
  | retValue top =>
      have slots := OperandStack.pop?_eq_some top
      have sameNodes : frame.clear.nodes = frame.nodes := rfl
      refine Or.inl ⟨_, emits_emit sameNodes ?_ rfl⟩
      rw [slots]
      rfl
  | newArray reads named popped =>
      rcases OperandStack.popEach?_eq_some popped with ⟨enough, taken, left⟩
      exact Or.inl (emits_ordinary rfl rfl enough taken left)
  | call called => exact Or.inl (emits_call called)
  | callVirtual called => exact Or.inl (emits_call called)
  | newObject reads found isConstructor named refers popped =>
      exact Or.inl (emits_newObject found refers popped)
  | reference reads found refers =>
      exact Or.inl (emits_ordinary (eq_of_beq regular) rfl (Nat.zero_le _) rfl rfl)
  | constrained reads => exact Or.inr ⟨rfl, rfl⟩

end Steps

/-! ## Whole bodies -/

/-- Between two instructions the nodes so far replay the stack. -/
structure Replayed (linkage : Linkage) (frame : Frame) : Prop where
  numbered : forall (index : Nat) (node : Node), frame.nodes[index]? = some node ->
    node.id = UInt32.ofNat index
  replays : Node.replayAll linkage [] frame.nodes = some frame.stack.slots

theorem replayed_start (linkage : Linkage) : Replayed linkage Frame.start := by
  refine ⟨?_, rfl⟩
  intro index node found
  cases found

theorem Replayed.emits {linkage : Linkage} {frame next : Frame} {node : Node}
    (replayed : Replayed linkage frame) (emits : Emits linkage frame next node) :
    Replayed linkage next := by
  constructor
  · intro index other found
    rw [emits.appended] at found
    rcases Node.getElem?_concat_eq_some found with earlier | ⟨atEnd, same⟩
    · exact replayed.numbered index other earlier
    · rw [same, emits.numbered, atEnd]
      rfl
  · rw [emits.appended, Node.replayAll_concat, replayed.replays]
    exact emits.replays

theorem Replayed.performs {lowering : Lowering} {cursor : Cursor} {frame next : Frame}
    {effect : Effect} {discoveries : List Discovery} (replayed : Replayed lowering.linkage frame)
    (regular : effect.isRegular = true)
    (performs : Performs lowering cursor frame effect discoveries next) :
    Replayed lowering.linkage next ∧ next.nodes.length ≤ frame.nodes.length + 1 := by
  rcases performs.emits regular with ⟨node, emits⟩ | ⟨sameNodes, sameStack⟩
  · refine ⟨replayed.emits emits, ?_⟩
    rw [emits.appended]
    exact Nat.le_of_eq (List.length_append ..)
  · refine ⟨⟨?_, ?_⟩, ?_⟩
    · rw [sameNodes]
      exact replayed.numbered
    · rw [sameNodes, sameStack]
      exact replayed.replays
    · rw [sameNodes]
      exact Nat.le_succ _

/-- A run keeps the invariant, and makes at most one node for each byte. -/
theorem Replayed.runs {lowering : Lowering} {cursor : Cursor} {frame final : Frame}
    {discoveries : List Discovery} (replayed : Replayed lowering.linkage frame)
    (runs : Runs lowering cursor frame discoveries final) :
    Replayed lowering.linkage final ∧
      final.nodes.length ≤ frame.nodes.length + cursor.rest.length := by
  induction runs with
  | done exhausted => exact ⟨replayed, Nat.le_add_right _ _⟩
  | step decodes hasEffect unconstrained performs advances continues inductionHypothesis =>
      have regular := Opcode.isRegular_of_mem_table (mem_table_of_opcode decodes) hasEffect
      rcases replayed.performs regular performs with ⟨replayedNext, oneMore⟩
      rcases inductionHypothesis replayedNext with ⟨replayedFinal, bound⟩
      have shorter := Cursor.length_rest_advance advances
      exact ⟨replayedFinal, by omega⟩

/-- The nodes of a lowered body are numbered in order and replay the operand
stack, so every input of a node has been produced before it. -/
theorem lower_replays (lowering : Lowering) (code : List UInt8) (body : LoweredBody)
    (short : code.length < 2 ^ 32) (lowered : (lowering.lower code).result = .ok body) :
    Node.Numbered body.nodes ∧
      (exists stack, Node.replayAll lowering.linkage [] body.nodes = some stack) ∧
      forall (index : Nat) (node : Node), body.nodes[index]? = some node ->
        forall input, input ∈ node.inputs ->
          input.toNat < index ∧ Node.Produced lowering.linkage body.nodes input := by
  rcases lower_yields (Attempt.yields_of_result lowered) with ⟨final, runs, _, same⟩
  rcases (replayed_start lowering.linkage).runs runs with ⟨replayed, bound⟩
  have sameNodes : body.nodes = final.nodes := congrArg LoweredBody.nodes same
  have numbered : Node.Numbered body.nodes := by
    intro index node found
    rw [sameNodes] at found
    have inside := (List.getElem?_eq_some_iff.mp found).1
    have noMore : final.nodes.length ≤ 0 + code.length := bound
    have small : index < 2 ^ 32 := by omega
    rw [replayed.numbered index node found]
    exact UInt32.toNat_ofNat_of_lt' small
  have replays : Node.replayAll lowering.linkage [] body.nodes = some final.stack.slots := by
    rw [sameNodes]
    exact replayed.replays
  exact ⟨numbered, ⟨_, replays⟩, (Node.produced_of_replayAll numbered replays).2⟩

/-- One type with one static method, which takes a value and returns one. -/
def sampleLowering : Lowering where
  linkage := {
    program := {
      types := [⟨⟨0x02000001⟩, "Demo", "Number", TypeAttributes.exported, none, none, [], [],
        [⟨0x06000001⟩], []⟩]
      names := [("Demo.Number", ⟨0x02000001⟩)]
      fields := []
      callables := [.method ⟨⟨0x06000001⟩, "Twice", ⟨0x02000001⟩, ⟨0, 0x0010, 0⟩,
        some ⟨0x02000001⟩, [⟨⟨0x02000001⟩, ⟨0⟩⟩], none⟩]
      strings := [] }
    substitutions := []
    natives := [] }
  method := "Main"

/-- Duplicate a constant, add it to itself, call the method and return. -/
def sampleCode : List UInt8 :=
  [0x17, 0x25, 0x58, 0x28, 0x01, 0x00, 0x00, 0x06, 0x2A]

def sampleBody : LoweredBody where
  nodes := [
    ⟨0, 0, .loadConstant, [], [ValueKind.i4.constant, 1], none⟩,
    ⟨1, 1, .duplicate, [0], [], none⟩,
    ⟨2, 2, .add, [0, 0], [], none⟩,
    ⟨3, 3, .call, [2], [0x06000001],
      some "Demo.Number___Demo.Number___Demo.Number.Twice_static"⟩,
    ⟨4, 8, .ret, [3], [], none⟩]
  strings := []

theorem lower_sampleCode : (sampleLowering.lower sampleCode).result = .ok sampleBody := by
  decide +kernel

theorem sampleBody_replays :
    Node.Numbered sampleBody.nodes ∧
      (exists stack, Node.replayAll sampleLowering.linkage [] sampleBody.nodes = some stack) ∧
      forall (index : Nat) (node : Node), sampleBody.nodes[index]? = some node ->
        forall input, input ∈ node.inputs ->
          input.toNat < index ∧ Node.Produced sampleLowering.linkage sampleBody.nodes input :=
  lower_replays sampleLowering sampleCode sampleBody (by decide) lower_sampleCode

end Lowering
end CilGraph
