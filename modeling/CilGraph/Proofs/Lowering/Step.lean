import CilGraph.Lowering
import CilGraph.Proofs.Cursor.Advance

namespace CilGraph

/-!
# What one step of a lowering does

An instruction that is lowered successfully either becomes exactly one node or,
if it is a `constrained.`, becomes none and is remembered.  Most instructions
follow a common rule, in which the effect alone decides the operation, the
number of operands and whether a value is left.  The others are literals,
duplication, return, arrays, calls, objects and references to callables.

`Performs` lists these cases with everything that must have held for the step
to succeed: the operand that was read, the definition that was looked up, the
operands that were on the stack, and the discoveries that were reported.  It is
the only statement about the rules of lowering that opens them.  `Runs` strings
steps together up to the end of the code, without the fuel that bounds the loop.
-/

/-! ## The common rule -/

/-- What the common rule needs to know of an effect. -/
structure StackEffect where
  operation : Operation
  /-- The number of operands that are taken, the topmost first. -/
  pops : Nat
  /-- Whether the value of the node is left on the stack. -/
  produces : Bool
deriving DecidableEq, Repr

namespace Effect

/-- The effects that follow the common rule, with what they do to the stack. -/
def common? : Effect -> Option StackEffect
  | .plain operation pops produces _ => some ⟨operation, pops, produces⟩
  | .sized operation pops produces _ => some ⟨operation, pops, produces⟩
  | .indexed operation pops produces => some ⟨operation, pops, produces⟩
  | .literal _ => some ⟨.loadConstant, 0, true⟩
  | .integerConstant _ => some ⟨.loadConstant, 0, true⟩
  | .floatConstant _ => some ⟨.loadConstant, 0, true⟩
  | .loadToken => some ⟨.loadToken, 0, true⟩
  | .branch operation pops => some ⟨operation, pops, false⟩
  | .leave => some ⟨.leave, 0, false⟩
  | .branchTable => some ⟨.switch, 1, false⟩
  | .endFinally => some ⟨.endFinally, 0, false⟩
  | .typed operation pops produces => some ⟨operation, pops, produces⟩
  | .element operation pops produces => some ⟨operation, pops, produces⟩
  | .field operation pops produces => some ⟨operation, pops, produces⟩
  | _ => none

/-- Whether an effect empties the stack before the common rule. -/
def clears : Effect -> Bool
  | .leave => true
  | .endFinally => true
  | _ => false

/-- The constants of the node that the common rule makes. -/
def constants (cursor : Cursor) : Effect -> Result (List UInt64)
  | .plain _ _ _ constants => .ok constants
  | .sized _ _ _ kind => .ok [kind.constant]
  | .literal value => .ok [ValueKind.i4.constant, value.toUInt64]
  | .integerConstant kind => do
    let width ← cursor.operandSize 0
    let operand ← cursor.operandValue 0
    .ok [kind.constant, (signExtend operand width).toUInt64]
  | .floatConstant kind => do
    let operand ← cursor.operandValue 0
    .ok [kind.constant, operand]
  | .branch _ _ | .leave => do
    let opcode ← cursor.opcode
    let width ← cursor.operandSize 0
    let displacement ← cursor.operandValue 0
    .ok [(branchTarget cursor.offset opcode.size width displacement).toUInt64]
  | .branchTable => do
    let count ← cursor.operandCount
    let size ← cursor.instructionSize
    Lowering.tableTargets cursor (cursor.offset + size) (count - 1) 1
  | .element _ _ _ => do
    let operand ← cursor.operandValue 0
    .ok [ValueKind.object.constant, operand]
  | .indexed _ _ _ | .loadToken | .typed _ _ _ | .field _ _ _ => do
    let operand ← cursor.operandValue 0
    .ok [operand]
  | _ => .ok []

/-- The types that the common rule discovers. -/
def discoveries (program : Program) (cursor : Cursor) : Effect -> Result (List Discovery)
  | .loadToken => do
    let operand ← cursor.operandValue 0
    .ok (if (Lowering.tokenOf operand).kind? = some .typeDef
      then [.type (Lowering.tokenOf operand)] else [])
  | .typed _ _ _ | .element _ _ _ => do
    let operand ← cursor.operandValue 0
    .ok [.type (Lowering.tokenOf operand)]
  | .field _ _ _ => do
    let operand ← cursor.operandValue 0
    let field ← program.field (Lowering.tokenOf operand)
    .ok [.type field.declaring]
  | _ => .ok []

end Effect

/-- What the instruction table says of all instructions that have an effect. -/
theorem Opcode.check_of_mem_table (check : Opcode -> Effect -> Bool)
    (checked : table.all (fun opcode => opcode.effect.all (check opcode)) = true)
    {opcode : Opcode} (member : opcode ∈ table) {effect : Effect}
    (hasEffect : opcode.effect = some effect) : check opcode effect = true := by
  have ofOpcode := List.all_eq_true.mp checked opcode member
  rw [hasEffect] at ofOpcode
  exact ofOpcode

namespace Lowering

/-- The common rule, seen from its result. -/
def Applied (offset : Nat) (operation : Operation) (pops : Nat) (produces : Bool)
    (constants : List UInt64) (frame next : Frame) : Prop :=
  exists inputs stack, OperandStack.popEach? pops frame.stack = some (inputs, stack) ∧
    next = { frame with stack := stack }.emit offset operation produces inputs constants none

theorem apply_eq_ok {lowering : Lowering} {offset : Nat} {operation : Operation} {pops : Nat}
    {produces : Bool} {constants : List UInt64} {frame next : Frame}
    (applied : lowering.apply offset operation pops produces constants frame = .ok next) :
    Applied offset operation pops produces constants frame next := by
  rcases Result.bind_eq_ok.mp applied with ⟨⟨inputs, taken⟩, popped, emitted⟩
  unfold popInputs at popped
  split at popped
  · rename_i found
    cases popped
    cases emitted
    exact ⟨_, _, found, rfl⟩
  · cases popped

/-! ## References to callables -/

/-- A declared callable stands for a resolved one with a mangled name, and is
reported either as an external symbol under that name or as a callable. -/
structure Referred (lowering : Lowering) (declared resolved : Callable) (name : String)
    (discovery : Discovery) : Prop where
  resolves : lowering.linkage.resolveCallable declared = .ok resolved
  mangles : lowering.linkage.program.mangle resolved = .ok name
  reported :
    (exists symbol, lowering.linkage.nativeSymbol? resolved = .ok (some symbol) ∧
      discovery = .native name symbol) ∨
    (lowering.linkage.nativeSymbol? resolved = .ok none ∧ discovery = .callable resolved)

theorem referTo_yields {lowering : Lowering} {declared resolved : Callable} {name : String}
    {discoveries : List Discovery}
    (referred : (lowering.referTo declared).Yields discoveries (resolved, name)) :
    exists discovery, discoveries = [discovery] ∧
      Referred lowering declared resolved name discovery := by
  rcases Attempt.yields_lift_bind.mp referred with ⟨found, resolves, named⟩
  rcases Attempt.yields_lift_bind.mp named with ⟨mangled, mangles, reported⟩
  rcases Attempt.yields_lift_bind.mp reported with ⟨symbol, bound, discovered⟩
  cases symbol with
  | some symbol =>
      rcases Attempt.yields_discover_bind.mp discovered with ⟨after, returned, together⟩
      rcases Attempt.yields_pure.mp returned with ⟨nothing, same⟩
      cases same
      rw [nothing] at together
      exact ⟨_, together, resolves, mangles, Or.inl ⟨symbol, bound, rfl⟩⟩
  | none =>
      rcases Attempt.yields_discover_bind.mp discovered with ⟨after, returned, together⟩
      rcases Attempt.yields_pure.mp returned with ⟨nothing, same⟩
      cases same
      rw [nothing] at together
      exact ⟨_, together, resolves, mangles, Or.inr ⟨bound, rfl⟩⟩

theorem popArguments_eq_ok {lowering : Lowering} {offset count : Nat} {frame taken : Frame}
    {inputs : List UInt32}
    (popped : lowering.popArguments offset count frame = .ok (inputs, taken)) :
    exists stack, frame.stack.popMany? count = some (inputs, stack) ∧
      taken = { frame with stack := stack } := by
  unfold popArguments at popped
  split at popped
  · rename_i found
    cases popped
    exact ⟨_, found, rfl⟩
  · cases popped

/-! ## The rules -/

/-- A call, seen from its result. -/
structure Called (lowering : Lowering) (cursor : Cursor) (frame : Frame) (discovery : Discovery)
    (operand : UInt64) (target : Callable) (name : String) (inputs : List UInt32)
    (stack : OperandStack) : Prop where
  reads : cursor.operandValue 0 = .ok operand
  refers : exists declared, lowering.linkage.program.callable (tokenOf operand) = .ok declared ∧
    Referred lowering declared target name discovery
  pops : frame.stack.popMany? target.stackInputs = some (inputs, stack)

/-- The frame after a call. -/
def afterCall (cursor : Cursor) (isVirtual : Bool) (frame : Frame) (operand : UInt64)
    (target : Callable) (name : String) (inputs : List UInt32) (stack : OperandStack) : Frame :=
  { frame with stack := stack, constraint := none }.emit cursor.offset
    (callForm isVirtual operand frame.constraint).1 target.returns.isSome inputs
    (callForm isVirtual operand frame.constraint).2 (Node.textOf name)

/-- Everything that an effect can do when it succeeds. -/
inductive Performs (lowering : Lowering) (cursor : Cursor) (frame : Frame) :
    Effect -> List Discovery -> Frame -> Prop
  /-- The common rule makes a node without a text. -/
  | common {effect : Effect} {rule : StackEffect} {constants : List UInt64}
      {discoveries : List Discovery} {next : Frame} (isCommon : effect.common? = some rule)
      (constant : effect.constants cursor = .ok constants)
      (discovered : effect.discoveries lowering.linkage.program cursor = .ok discoveries)
      (applied : Applied cursor.offset rule.operation rule.pops rule.produces constants
        (if effect.clears then frame.clear else frame) next) :
      Performs lowering cursor frame effect discoveries next
  | loadString {operand : UInt64} {literal : String} (reads : cursor.operandValue 0 = .ok operand)
      (found : lowering.linkage.program.userString (tokenOf operand) = .ok literal) :
      Performs lowering cursor frame .loadString []
        ((frame.addString literal).emit cursor.offset .loadString true []
          [UInt64.ofNat frame.strings.length] (Node.textOf literal))
  | duplicate {producer : UInt32} {rest : OperandStack}
      (top : frame.stack.pop? = some (producer, rest)) :
      Performs lowering cursor frame .duplicate []
        { frame.emit cursor.offset .duplicate false [producer] [] none with
          stack := frame.stack.push producer }
  | retNothing (empty : frame.stack = OperandStack.empty) :
      Performs lowering cursor frame .ret []
        (frame.emit cursor.offset .ret false [] [] none)
  | retValue {value : UInt32}
      (top : frame.stack.pop? = some (value, OperandStack.empty)) :
      Performs lowering cursor frame .ret []
        (frame.clear.emit cursor.offset .ret false [value] [] none)
  | newArray {operand : UInt64} {name : String} {inputs : List UInt32} {stack : OperandStack}
      (reads : cursor.operandValue 0 = .ok operand)
      (named : lowering.linkage.program.typeName (tokenOf operand) = .ok name)
      (popped : OperandStack.popEach? 1 frame.stack = some (inputs, stack)) :
      Performs lowering cursor frame .newArray [.type (tokenOf operand)]
        ({ frame with stack := stack }.emit cursor.offset .newArray true inputs [operand]
          (Node.textOf name))
  | call {discovery : Discovery} {operand : UInt64} {target : Callable} {name : String}
      {inputs : List UInt32} {stack : OperandStack}
      (called : Called lowering cursor frame discovery operand target name inputs stack) :
      Performs lowering cursor frame .call [discovery]
        (afterCall cursor false frame operand target name inputs stack)
  | callVirtual {discovery : Discovery} {operand : UInt64} {target : Callable} {name : String}
      {inputs : List UInt32} {stack : OperandStack}
      (called : Called lowering cursor frame discovery operand target name inputs stack) :
      Performs lowering cursor frame .callVirtual [discovery]
        (afterCall cursor true frame operand target name inputs stack)
  | newObject {discovery : Discovery} {operand : UInt64} {declared constructor : Callable}
      {typeName name : String} {inputs : List UInt32} {stack : OperandStack}
      (reads : cursor.operandValue 0 = .ok operand)
      (found : lowering.linkage.program.callable (tokenOf operand) = .ok declared)
      (isConstructor : declared.isConstructor = true)
      (named : lowering.linkage.program.typeName declared.declaring = .ok typeName)
      (refers : Referred lowering declared constructor name discovery)
      (popped : frame.stack.popMany? constructor.params.length = some (inputs, stack)) :
      Performs lowering cursor frame .newObject [discovery]
        (({ frame with stack := stack }.addString name).emit cursor.offset .newObject true inputs
          [operand, UInt64.ofNat frame.strings.length] (Node.textOf typeName))
  | reference {operation : Operation} {produces : Bool} {discovery : Discovery} {operand : UInt64}
      {declared target : Callable} {name : String} (reads : cursor.operandValue 0 = .ok operand)
      (found : lowering.linkage.program.callable (tokenOf operand) = .ok declared)
      (refers : Referred lowering declared target name discovery) :
      Performs lowering cursor frame (.reference operation produces) [discovery]
        (frame.emit cursor.offset operation produces [] [operand] (Node.textOf name))
  | constrained {operand : UInt64} (reads : cursor.operandValue 0 = .ok operand) :
      Performs lowering cursor frame .constrained []
        { frame with constraint := some ⟨operand, cursor.offset⟩ }

section Inversion

variable {lowering : Lowering} {cursor : Cursor} {frame next : Frame}
  {discoveries : List Discovery}

theorem loadString_eq_ok (loaded : lowering.loadString cursor frame = .ok next) :
    Performs lowering cursor frame .loadString [] next := by
  rcases Result.bind_eq_ok.mp loaded with ⟨operand, reads, looked⟩
  rcases Result.bind_eq_ok.mp looked with ⟨literal, found, emitted⟩
  cases emitted
  exact .loadString reads found

theorem duplicate_eq_ok (duplicated : lowering.duplicate cursor.offset frame = .ok next) :
    Performs lowering cursor frame .duplicate [] next := by
  unfold duplicate at duplicated
  split at duplicated
  · cases duplicated
  · rename_i producer rest top
    cases duplicated
    exact .duplicate top

/-- A return leaves nothing behind, whether or not there was a value. -/
theorem ret_eq_ok (returned : lowering.ret cursor.offset frame = .ok next) :
    Performs lowering cursor frame .ret [] next := by
  unfold ret at returned
  cases top : frame.stack.pop? with
  | none =>
      have empty : frame.stack = OperandStack.empty := by
        unfold OperandStack.pop? at top
        split at top
        · rename_i slots
          exact congrArg OperandStack.mk slots
        · cases top
      simp only [top] at returned
      split at returned
      · cases returned
        exact .retNothing empty
      · cases returned
  | some popped =>
      rcases popped with ⟨value, rest⟩
      simp only [top] at returned
      split at returned
      · rename_i isEmpty
        have empty : rest = OperandStack.empty :=
          congrArg OperandStack.mk (List.isEmpty_iff.mp isEmpty)
        rw [empty] at top returned
        cases returned
        exact .retValue top
      · cases returned

theorem branch_eq_ok {operation : Operation} {pops : Nat} {effect : Effect}
    (isCommon : effect.common? = some ⟨operation, pops, false⟩)
    (constants : effect.constants cursor = (do
      let opcode ← cursor.opcode
      let width ← cursor.operandSize 0
      let displacement ← cursor.operandValue 0
      .ok [(branchTarget cursor.offset opcode.size width displacement).toUInt64]))
    (discovers : effect.discoveries lowering.linkage.program cursor = .ok [])
    (branched : lowering.branch cursor operation pops
      (if effect.clears then frame.clear else frame) = .ok next) :
    Performs lowering cursor frame effect [] next := by
  rcases Result.bind_eq_ok.mp branched with ⟨opcode, decoded, sized⟩
  rcases Result.bind_eq_ok.mp sized with ⟨width, widthRead, displaced⟩
  rcases Result.bind_eq_ok.mp displaced with ⟨displacement, reads, applied⟩
  refine .common isCommon ?_ discovers (apply_eq_ok applied)
  rw [constants, decoded, widthRead, reads]
  rfl

theorem branchTable_eq_ok (branched : lowering.branchTable cursor frame = .ok next) :
    Performs lowering cursor frame .branchTable [] next := by
  rcases Result.bind_eq_ok.mp branched with ⟨count, counted, sized⟩
  rcases Result.bind_eq_ok.mp sized with ⟨size, sizeRead, targeted⟩
  rcases Result.bind_eq_ok.mp targeted with ⟨targets, computed, applied⟩
  refine .common rfl ?_ rfl (apply_eq_ok applied)
  have sizing : (cursor.instructionSize >>= fun size =>
      tableTargets cursor (cursor.offset + size) (count - 1) 1) = .ok targets :=
    Result.bind_eq_ok.mpr ⟨size, sizeRead, computed⟩
  exact Result.bind_eq_ok.mpr ⟨count, counted, sizing⟩

theorem loadToken_yields (loaded : (lowering.loadToken cursor frame).Yields discoveries next) :
    Performs lowering cursor frame .loadToken discoveries next := by
  rcases Attempt.yields_lift_bind.mp loaded with ⟨operand, reads, discovered⟩
  have constant : Effect.constants cursor .loadToken = .ok [operand] :=
    Result.bind_eq_ok.mpr ⟨operand, reads, rfl⟩
  by_cases isType : (tokenOf operand).kind? = some .typeDef
  · simp only [if_pos isType] at discovered
    rcases Attempt.yields_discover_bind.mp discovered with ⟨after, lifted, together⟩
    rcases Attempt.yields_lift.mp lifted with ⟨nothing, applied⟩
    refine .common rfl constant ?_ (apply_eq_ok applied)
    rw [Effect.discoveries, reads, together, nothing]
    exact congrArg Except.ok (if_pos isType)
  · simp only [if_neg isType] at discovered
    rcases Attempt.yields_lift.mp discovered with ⟨nothing, applied⟩
    refine .common rfl constant ?_ (apply_eq_ok applied)
    rw [Effect.discoveries, reads, nothing]
    exact congrArg Except.ok (if_neg isType)

/-- Both forms of a typed instruction discover the type and apply the common
rule; they differ in the constant before it. -/
theorem typed_yields {operation : Operation} {pops : Nat} {produces : Bool}
    {leading : List UInt64} {effect : Effect}
    (isCommon : effect.common? = some ⟨operation, pops, produces⟩)
    (keeps : effect.clears = false)
    (constants : effect.constants cursor = (do
      let operand ← cursor.operandValue 0
      .ok (leading ++ [operand])))
    (discovers : effect.discoveries lowering.linkage.program cursor = (do
      let operand ← cursor.operandValue 0
      .ok [.type (tokenOf operand)]))
    (typed : (lowering.typed cursor operation pops produces leading frame).Yields discoveries
      next) :
    Performs lowering cursor frame effect discoveries next := by
  rcases Attempt.yields_lift_bind.mp typed with ⟨operand, reads, discovered⟩
  rcases Attempt.yields_discover_bind.mp discovered with ⟨after, lifted, together⟩
  rcases Attempt.yields_lift.mp lifted with ⟨nothing, applied⟩
  have constant : effect.constants cursor = .ok (leading ++ [operand]) := by
    rw [constants, reads]
    rfl
  refine .common isCommon constant ?_ ?_
  · rw [discovers, reads, together, nothing]
    rfl
  · rw [keeps]
    exact apply_eq_ok applied

theorem field_yields {operation : Operation} {pops : Nat} {produces : Bool}
    (used : (lowering.field cursor operation pops produces frame).Yields discoveries next) :
    Performs lowering cursor frame (.field operation pops produces) discoveries next := by
  rcases Attempt.yields_lift_bind.mp used with ⟨operand, reads, looked⟩
  rcases Attempt.yields_lift_bind.mp looked with ⟨field, found, discovered⟩
  rcases Attempt.yields_discover_bind.mp discovered with ⟨after, lifted, together⟩
  rcases Attempt.yields_lift.mp lifted with ⟨nothing, applied⟩
  refine .common rfl ?_ ?_ (apply_eq_ok applied)
  · exact Result.bind_eq_ok.mpr ⟨operand, reads, rfl⟩
  · rw [Effect.discoveries, reads, together, nothing]
    change (lowering.linkage.program.field (tokenOf operand) >>= _) = _
    rw [found]
    rfl

theorem newArray_yields (made : (lowering.newArray cursor frame).Yields discoveries next) :
    Performs lowering cursor frame .newArray discoveries next := by
  rcases Attempt.yields_lift_bind.mp made with ⟨operand, reads, discovered⟩
  rcases Attempt.yields_discover_bind.mp discovered with ⟨after, looked, together⟩
  rcases Attempt.yields_lift_bind.mp looked with ⟨name, named, popping⟩
  rcases Attempt.yields_lift_bind.mp popping with ⟨⟨inputs, taken⟩, popped, returned⟩
  rcases Attempt.yields_pure.mp returned with ⟨nothing, emitted⟩
  unfold popInputs at popped
  split at popped
  · rename_i found
    cases popped
    rw [together, nothing, ← emitted]
    exact .newArray reads named found
  · cases popped

theorem call_yields {isVirtual : Bool}
    (called : (lowering.call cursor isVirtual frame).Yields discoveries next) :
    exists discovery operand target name inputs stack,
      Called lowering cursor frame discovery operand target name inputs stack ∧
        discoveries = [discovery] ∧
        next = afterCall cursor isVirtual frame operand target name inputs stack := by
  rcases Attempt.yields_lift_bind.mp called with ⟨operand, reads, looked⟩
  rcases Attempt.yields_lift_bind.mp looked with ⟨declared, found, referring⟩
  rcases Attempt.yields_bind.mp referring with
    ⟨before, ⟨target, name⟩, after, referred, popping, together⟩
  rcases referTo_yields referred with ⟨discovery, single, refers⟩
  rcases Attempt.yields_lift_bind.mp popping with ⟨⟨inputs, taken⟩, popped, returned⟩
  rcases popArguments_eq_ok popped with ⟨stack, pops, same⟩
  rcases Attempt.yields_pure.mp returned with ⟨nothing, emitted⟩
  refine ⟨discovery, operand, target, name, inputs, stack, ⟨reads, ⟨declared, found, refers⟩, pops⟩,
    ?_, ?_⟩
  · rw [together, single, nothing, List.append_nil]
  · rw [← emitted, same]
    rfl

theorem newObject_yields (made : (lowering.newObject cursor frame).Yields discoveries next) :
    Performs lowering cursor frame .newObject discoveries next := by
  rcases Attempt.yields_lift_bind.mp made with ⟨operand, reads, looked⟩
  rcases Attempt.yields_lift_bind.mp looked with ⟨declared, found, checked⟩
  cases isConstructor : declared.isConstructor with
  | false =>
      simp only [isConstructor, Bool.not_false, if_true] at checked
      exact absurd checked Attempt.not_yields_fail
  | true =>
      simp only [isConstructor, Bool.not_true, Bool.false_eq_true, if_false] at checked
      rcases Attempt.yields_lift_bind.mp checked with ⟨typeName, named, referring⟩
      rcases Attempt.yields_bind.mp referring with
        ⟨before, ⟨constructor, name⟩, after, referred, popping, together⟩
      rcases referTo_yields referred with ⟨discovery, single, refers⟩
      rcases Attempt.yields_lift_bind.mp popping with ⟨⟨inputs, taken⟩, popped, returned⟩
      rcases popArguments_eq_ok popped with ⟨stack, pops, same⟩
      rcases Attempt.yields_pure.mp returned with ⟨nothing, emitted⟩
      rw [together, single, nothing, List.append_nil, ← emitted, same]
      exact .newObject reads found isConstructor named refers pops

theorem reference_yields {operation : Operation} {produces : Bool}
    (named : (lowering.reference cursor operation produces frame).Yields discoveries next) :
    Performs lowering cursor frame (.reference operation produces) discoveries next := by
  rcases Attempt.yields_lift_bind.mp named with ⟨operand, reads, looked⟩
  rcases Attempt.yields_lift_bind.mp looked with ⟨declared, found, referring⟩
  rcases Attempt.yields_bind.mp referring with
    ⟨before, ⟨target, name⟩, after, referred, returned, together⟩
  rcases referTo_yields referred with ⟨discovery, single, refers⟩
  rcases Attempt.yields_pure.mp returned with ⟨nothing, emitted⟩
  rw [together, single, nothing, List.append_nil, ← emitted]
  exact .reference reads found refers

/-- An effect that succeeds does one of the things that `Performs` lists. -/
theorem perform_yields {effect : Effect}
    (performed : (lowering.perform cursor frame effect).Yields discoveries next) :
    Performs lowering cursor frame effect discoveries next := by
  cases effect with
  | plain operation pops produces constants =>
      rcases Attempt.yields_lift.mp performed with ⟨nothing, applied⟩
      exact .common rfl rfl (congrArg Except.ok nothing.symm) (apply_eq_ok applied)
  | sized operation pops produces kind =>
      rcases Attempt.yields_lift.mp performed with ⟨nothing, applied⟩
      exact .common rfl rfl (congrArg Except.ok nothing.symm) (apply_eq_ok applied)
  | literal value =>
      rcases Attempt.yields_lift.mp performed with ⟨nothing, applied⟩
      exact .common rfl rfl (congrArg Except.ok nothing.symm) (apply_eq_ok applied)
  | endFinally =>
      rcases Attempt.yields_lift.mp performed with ⟨nothing, applied⟩
      exact .common rfl rfl (congrArg Except.ok nothing.symm) (apply_eq_ok applied)
  | indexed operation pops produces =>
      rcases Attempt.yields_lift_bind.mp performed with ⟨operand, reads, lifted⟩
      rcases Attempt.yields_lift.mp lifted with ⟨nothing, applied⟩
      refine .common rfl ?_ (congrArg Except.ok nothing.symm) (apply_eq_ok applied)
      exact Result.bind_eq_ok.mpr ⟨operand, reads, rfl⟩
  | integerConstant kind =>
      rcases Attempt.yields_lift_bind.mp performed with ⟨width, sized, reading⟩
      rcases Attempt.yields_lift_bind.mp reading with ⟨operand, reads, lifted⟩
      rcases Attempt.yields_lift.mp lifted with ⟨nothing, applied⟩
      refine .common rfl ?_ (congrArg Except.ok nothing.symm) (apply_eq_ok applied)
      exact Result.bind_eq_ok.mpr ⟨width, sized, Result.bind_eq_ok.mpr ⟨operand, reads, rfl⟩⟩
  | floatConstant kind =>
      rcases Attempt.yields_lift_bind.mp performed with ⟨operand, reads, lifted⟩
      rcases Attempt.yields_lift.mp lifted with ⟨nothing, applied⟩
      refine .common rfl ?_ (congrArg Except.ok nothing.symm) (apply_eq_ok applied)
      exact Result.bind_eq_ok.mpr ⟨operand, reads, rfl⟩
  | branch operation pops =>
      rcases Attempt.yields_lift.mp performed with ⟨nothing, branched⟩
      rw [nothing]
      exact branch_eq_ok rfl rfl rfl branched
  | leave =>
      rcases Attempt.yields_lift.mp performed with ⟨nothing, branched⟩
      rw [nothing]
      exact branch_eq_ok rfl rfl rfl branched
  | branchTable =>
      rcases Attempt.yields_lift.mp performed with ⟨nothing, branched⟩
      rw [nothing]
      exact branchTable_eq_ok branched
  | loadString =>
      rcases Attempt.yields_lift.mp performed with ⟨nothing, loaded⟩
      rw [nothing]
      exact loadString_eq_ok loaded
  | duplicate =>
      rcases Attempt.yields_lift.mp performed with ⟨nothing, duplicated⟩
      rw [nothing]
      exact duplicate_eq_ok duplicated
  | ret =>
      rcases Attempt.yields_lift.mp performed with ⟨nothing, returned⟩
      rw [nothing]
      exact ret_eq_ok returned
  | loadToken => exact loadToken_yields performed
  | typed operation pops produces => exact typed_yields rfl rfl rfl rfl performed
  | element operation pops produces => exact typed_yields rfl rfl rfl rfl performed
  | field operation pops produces => exact field_yields performed
  | newArray => exact newArray_yields performed
  | call =>
      rcases call_yields performed with ⟨_, _, _, _, _, _, called, single, same⟩
      rw [single, same]
      exact .call called
  | callVirtual =>
      rcases call_yields performed with ⟨_, _, _, _, _, _, called, single, same⟩
      rw [single, same]
      exact .callVirtual called
  | newObject => exact newObject_yields performed
  | reference operation produces => exact reference_yields performed
  | constrained =>
      rcases Attempt.yields_lift_bind.mp performed with ⟨operand, reads, returned⟩
      rcases Attempt.yields_pure.mp returned with ⟨nothing, same⟩
      rw [nothing, ← same]
      exact .constrained reads

/-- A step that succeeds decodes an instruction that has a rule and performs its
effect.  If a constraint is pending, the instruction is a virtual call. -/
theorem step_yields (stepped : (lowering.step cursor frame).Yields discoveries next) :
    exists opcode effect, cursor.opcode = .ok opcode ∧ opcode.effect = some effect ∧
      (frame.constraint = none ∨ effect = .callVirtual) ∧
      Performs lowering cursor frame effect discoveries next := by
  rcases Attempt.yields_lift_bind.mp stepped with ⟨opcode, decoded, performed⟩
  split at performed
  · rename_i constraint isCallVirtual
    exact ⟨opcode, _, decoded, isCallVirtual, Or.inr rfl, perform_yields performed⟩
  · exact absurd performed Attempt.not_yields_fail
  · rename_i effect notVirtual noConstraint isEffect
    exact ⟨opcode, effect, decoded, isEffect, Or.inl noConstraint, perform_yields performed⟩
  · exact absurd performed Attempt.not_yields_fail

/-- An instruction that is decoded is one of the table. -/
theorem mem_table_of_opcode {opcode : Opcode} (decodes : cursor.opcode = .ok opcode) :
    opcode ∈ Opcode.table := by
  have found : forall {value : UInt16} {shown : String},
      cursor.lookup value shown = .ok opcode -> opcode ∈ Opcode.table := by
    intro value shown looked
    unfold Cursor.lookup at looked
    split at looked
    · rename_i same
      cases looked
      exact List.mem_of_find?_eq_some same
    · cases looked
  unfold Cursor.opcode at decodes
  split at decodes
  · cases decodes
  · split at decodes
    · split at decodes
      · cases decodes
      · exact found decodes
    · exact found decodes

end Inversion

/-! ## Whole runs -/

/-- The steps of a body from a cursor to the end of the code. -/
inductive Runs (lowering : Lowering) : Cursor -> Frame -> List Discovery -> Frame -> Prop
  | done {cursor : Cursor} {frame : Frame} (exhausted : cursor.rest = []) :
      Runs lowering cursor frame [] frame
  | step {cursor following : Cursor} {frame next final : Frame} {opcode : Opcode}
      {effect : Effect} {before after : List Discovery} (decodes : cursor.opcode = .ok opcode)
      (hasEffect : opcode.effect = some effect)
      (unconstrained : frame.constraint = none ∨ effect = .callVirtual)
      (performs : Performs lowering cursor frame effect before next)
      (advances : cursor.advance = .ok following)
      (continues : Runs lowering following next after final) :
      Runs lowering cursor frame (before ++ after) final

/-- The length of the code left is fuel enough. -/
theorem run_yields {lowering : Lowering} {fuel : Nat} {cursor : Cursor} {frame final : Frame}
    {discoveries : List Discovery} (enough : cursor.rest.length ≤ fuel)
    (ran : (lowering.run fuel cursor frame).Yields discoveries final) :
    Runs lowering cursor frame discoveries final := by
  induction fuel generalizing cursor frame discoveries with
  | zero =>
      have exhausted : cursor.rest = [] := List.eq_nil_of_length_eq_zero (Nat.le_zero.mp enough)
      rcases Attempt.yields_pure.mp ran with ⟨nothing, same⟩
      rw [nothing, ← same]
      exact .done exhausted
  | succ fuel inductionHypothesis =>
      unfold run at ran
      by_cases exhausted : cursor.isExhausted = true
      · rw [if_pos exhausted] at ran
        rcases Attempt.yields_pure.mp ran with ⟨nothing, same⟩
        rw [nothing, ← same]
        exact .done (List.isEmpty_iff.mp exhausted)
      · rw [if_neg exhausted] at ran
        rcases Attempt.yields_bind.mp ran with ⟨before, next, after, stepped, moving, together⟩
        rcases Attempt.yields_lift_bind.mp moving with ⟨following, advances, continued⟩
        rcases step_yields (Attempt.yields_mapError.mp stepped) with
          ⟨opcode, effect, decodes, hasEffect, unconstrained, performs⟩
        have shorter := Cursor.length_rest_advance advances
        rw [together]
        exact .step decodes hasEffect unconstrained performs advances
          (inductionHypothesis (by omega) continued)

/-- A body that is lowered successfully is the result of a run over its whole
code, after which no constraint is pending. -/
theorem lower_yields {lowering : Lowering} {code : List UInt8} {body : LoweredBody}
    {discoveries : List Discovery} (lowered : (lowering.lower code).Yields discoveries body) :
    exists final, Runs lowering (Cursor.start code) Frame.start discoveries final ∧
      final.constraint = none ∧ body = ⟨final.nodes, final.strings⟩ := by
  rcases Attempt.yields_bind.mp lowered with ⟨before, final, after, ran, ended, together⟩
  cases pending : final.constraint with
  | some constraint =>
      simp only [pending] at ended
      exact absurd ended Attempt.not_yields_fail
  | none =>
      simp only [pending] at ended
      rcases Attempt.yields_pure.mp ended with ⟨nothing, same⟩
      rw [nothing, List.append_nil] at together
      rw [together]
      exact ⟨final, run_yields (Nat.le_refl _) ran, pending, same.symm⟩

end Lowering
end CilGraph
