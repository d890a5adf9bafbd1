import CilGraph.Attempt
import CilGraph.Cursor
import CilGraph.Linkage
import CilGraph.MangledName
import CilGraph.Node
import CilGraph.OperandStack

namespace CilGraph

/-!
# Lowering of bodies

A body is lowered instruction by instruction.  The operand stack of the
machine is played through with the numbers of nodes in place of values, and
each instruction becomes a node that names its inputs.  Most instructions take
their operands one by one, the topmost first.  A call takes its arguments as a
block, in the order of its parameters.

A `constrained.` instruction makes no node.  It changes the virtual call that
has to follow it at once.

A truncated instruction is noticed before its node is made, so stepping to the
next instruction does not fail after a node.
-/

/-- A lowered body. -/
structure LoweredBody where
  nodes : List Node
  strings : List String
deriving DecidableEq, Repr

/-- A `constrained.` instruction whose call is still to come. -/
structure Constraint where
  type : UInt64
  offset : Nat
deriving DecidableEq, Repr

/-- The state between two instructions. -/
structure Frame where
  stack : OperandStack
  nodes : List Node
  strings : List String
  constraint : Option Constraint
deriving DecidableEq, Repr

namespace Frame

/-- The state at the beginning of a body. -/
def start : Frame :=
  ⟨OperandStack.empty, [], [], none⟩

/-- The number of the next node. -/
def nextId (frame : Frame) : UInt32 :=
  UInt32.ofNat frame.nodes.length

/-- Add a node, and its value to the stack if it produces one. -/
def emit (frame : Frame) (offset : Nat) (operation : Operation) (produces : Bool)
    (inputs : List UInt32) (constants : List UInt64) (text : Option String) : Frame :=
  let node : Node := ⟨frame.nextId, UInt32.ofNat offset, operation, inputs, constants, text⟩
  { frame with
    nodes := frame.nodes ++ [node]
    stack := if produces then frame.stack.push node.id else frame.stack }

/-- Add a literal to the pool of the body. -/
def addString (frame : Frame) (text : String) : Frame :=
  { frame with strings := frame.strings ++ [text] }

/-- Drop all operands. -/
def clear (frame : Frame) : Frame :=
  { frame with stack := OperandStack.empty }

end Frame

/-- What stays the same while a body is lowered. -/
structure Lowering where
  linkage : Linkage
  /-- The name of the method, for messages. -/
  method : String

namespace Lowering

/-- The error that the stack does not fit. -/
def imbalance (lowering : Lowering) (offset : Nat) (fault : StackFault) : Error :=
  .stackImbalance lowering.method offset fault

/-- Take operands one by one, the topmost first. -/
def popInputs (lowering : Lowering) (offset count : Nat) (frame : Frame) :
    Result (List UInt32 × Frame) :=
  match OperandStack.popEach? count frame.stack with
  | some (inputs, stack) => .ok (inputs, { frame with stack := stack })
  | none => .error (lowering.imbalance offset .emptyPop)

/-- Take the arguments of a call, in the order of the parameters. -/
def popArguments (lowering : Lowering) (offset count : Nat) (frame : Frame) :
    Result (List UInt32 × Frame) :=
  match frame.stack.popMany? count with
  | some (inputs, stack) => .ok (inputs, { frame with stack := stack })
  | none => .error (lowering.imbalance offset (.missingArguments count frame.stack.size))

/-- The common rule: take operands, add a node, and leave its value if it
produces one. -/
def apply (lowering : Lowering) (offset : Nat) (operation : Operation) (pops : Nat)
    (produces : Bool) (constants : List UInt64) (frame : Frame) : Result Frame := do
  let (inputs, frame) ← lowering.popInputs offset pops frame
  .ok (frame.emit offset operation produces inputs constants none)

/-- The token in an operand. -/
def tokenOf (operand : UInt64) : Token :=
  ⟨operand.toUInt32⟩

/-- Load a literal, which also enters the pool. -/
def loadString (lowering : Lowering) (cursor : Cursor) (frame : Frame) : Result Frame := do
  let operand ← cursor.operandValue 0
  let literal ← lowering.linkage.program.userString (tokenOf operand)
  let index := UInt64.ofNat frame.strings.length
  .ok ((frame.addString literal).emit cursor.offset .loadString true [] [index]
    (Node.textOf literal))

/-- Load the handle of a piece of metadata.  Of these only types are discovered. -/
def loadToken (lowering : Lowering) (cursor : Cursor) (frame : Frame) : Attempt Frame := do
  let operand ← cursor.operandValue 0
  if (tokenOf operand).kind? = some .typeDef then
    Attempt.discover (.type (tokenOf operand))
  lowering.apply cursor.offset .loadToken 0 true [operand] frame

/-- Duplicate the topmost operand.  The node stands for neither copy: both are
entries for the producer. -/
def duplicate (lowering : Lowering) (offset : Nat) (frame : Frame) : Result Frame := do
  match frame.stack.pop? with
  | none => .error (lowering.imbalance offset .emptyPop)
  | some (producer, _) =>
    let frame := frame.emit offset .duplicate false [producer] [] none
    .ok { frame with stack := frame.stack.push producer }

/-- Return the topmost operand, if there is one.  It must be the only one. -/
def ret (lowering : Lowering) (offset : Nat) (frame : Frame) : Result Frame :=
  let (inputs, stack) := match frame.stack.pop? with
    | some (value, stack) => ([value], stack)
    | none => ([], frame.stack)
  if stack.isEmpty then
    .ok ({ frame with stack := stack }.emit offset .ret false inputs [] none)
  else .error (lowering.imbalance offset (.leftOver stack.size))

/-- Branch to the operand. -/
def branch (lowering : Lowering) (cursor : Cursor) (operation : Operation) (pops : Nat)
    (frame : Frame) : Result Frame := do
  let opcode ← cursor.opcode
  let width ← cursor.operandSize 0
  let displacement ← cursor.operandValue 0
  let target := branchTarget cursor.offset opcode.size width displacement
  lowering.apply cursor.offset operation pops false [target.toUInt64] frame

/-- The targets of a branch table from one entry on. -/
def tableTargets (cursor : Cursor) (tableEnd : Nat) : Nat -> Nat -> Result (List UInt64)
  | 0, _ => .ok []
  | count + 1, index => do
    let displacement ← cursor.operandValue index
    let target := signExtend displacement 4 + (UInt64.ofNat tableEnd).toInt64
    let others ← tableTargets cursor tableEnd count (index + 1)
    .ok (target.toUInt64 :: others)

/-- Branch by a table.  Its entries count from the end of the table. -/
def branchTable (lowering : Lowering) (cursor : Cursor) (frame : Frame) : Result Frame := do
  let count ← cursor.operandCount
  let size ← cursor.instructionSize
  let targets ← tableTargets cursor (cursor.offset + size) (count - 1) 1
  lowering.apply cursor.offset .switch 1 false targets frame

/-- An instruction whose operand is a type. -/
def typed (lowering : Lowering) (cursor : Cursor) (operation : Operation) (pops : Nat)
    (produces : Bool) (leading : List UInt64) (frame : Frame) : Attempt Frame := do
  let operand ← cursor.operandValue 0
  Attempt.discover (.type (tokenOf operand))
  lowering.apply cursor.offset operation pops produces (leading ++ [operand]) frame

/-- An instruction whose operand is a field. -/
def field (lowering : Lowering) (cursor : Cursor) (operation : Operation) (pops : Nat)
    (produces : Bool) (frame : Frame) : Attempt Frame := do
  let operand ← cursor.operandValue 0
  let field ← lowering.linkage.program.field (tokenOf operand)
  Attempt.discover (.type field.declaring)
  lowering.apply cursor.offset operation pops produces [operand] frame

/-- Make an array, whose node shows the name of the element type. -/
def newArray (lowering : Lowering) (cursor : Cursor) (frame : Frame) : Attempt Frame := do
  let operand ← cursor.operandValue 0
  Attempt.discover (.type (tokenOf operand))
  let name ← lowering.linkage.program.typeName (tokenOf operand)
  let (inputs, frame) ← lowering.popInputs cursor.offset 1 frame
  return frame.emit cursor.offset .newArray true inputs [operand] (Node.textOf name)

/-- The callable that is used in place of a declared one, and its mangled name.
It is discovered as an external symbol or as a callable of the program. -/
def referTo (lowering : Lowering) (declared : Callable) : Attempt (Callable × String) := do
  let resolved ← lowering.linkage.resolveCallable declared
  let name ← lowering.linkage.program.mangle resolved
  match ← lowering.linkage.nativeSymbol? resolved with
  | some symbol => Attempt.discover (.native name symbol)
  | none => Attempt.discover (.callable resolved)
  return (resolved, name)

/-- The operation and the constants of a call, given the constraint that stands
before it. -/
def callForm (isVirtual : Bool) (operand : UInt64) :
    Option Constraint -> Operation × List UInt64
  | some constraint =>
    if isVirtual then (.callVirtualConstrained, [operand, constraint.type])
    else (.call, [operand])
  | none => if isVirtual then (.callVirtual, [operand]) else (.call, [operand])

/-- Call a method or constructor. -/
def call (lowering : Lowering) (cursor : Cursor) (isVirtual : Bool) (frame : Frame) :
    Attempt Frame := do
  let operand ← cursor.operandValue 0
  let declared ← lowering.linkage.program.callable (tokenOf operand)
  let (target, name) ← lowering.referTo declared
  let (inputs, frame) ← lowering.popArguments cursor.offset target.stackInputs frame
  let (operation, constants) := callForm isVirtual operand frame.constraint
  return { frame with constraint := none }.emit cursor.offset operation target.returns.isSome
    inputs constants (Node.textOf name)

/-- Make an object.  Its node shows the declared type, and the pool gets the
mangled name of the constructor. -/
def newObject (lowering : Lowering) (cursor : Cursor) (frame : Frame) : Attempt Frame := do
  let operand ← cursor.operandValue 0
  let declared ← lowering.linkage.program.callable (tokenOf operand)
  if !declared.isConstructor then
    Attempt.fail (.wrongCallable (tokenOf operand) .constructor)
  else
    let typeName ← lowering.linkage.program.typeName declared.declaring
    let (constructor, name) ← lowering.referTo declared
    let (inputs, frame) ←
      lowering.popArguments cursor.offset constructor.params.length frame
    let index := UInt64.ofNat frame.strings.length
    return (frame.addString name).emit cursor.offset .newObject true inputs [operand, index]
      (Node.textOf typeName)

/-- Name a callable without calling it. -/
def reference (lowering : Lowering) (cursor : Cursor) (operation : Operation)
    (produces : Bool) (frame : Frame) : Attempt Frame := do
  let operand ← cursor.operandValue 0
  let declared ← lowering.linkage.program.callable (tokenOf operand)
  let (_, name) ← lowering.referTo declared
  return frame.emit cursor.offset operation produces [] [operand] (Node.textOf name)

/-- Carry out an effect. -/
def perform (lowering : Lowering) (cursor : Cursor) (frame : Frame) :
    Effect -> Attempt Frame
  | .plain operation pops produces constants =>
    lowering.apply cursor.offset operation pops produces constants frame
  | .sized operation pops produces kind =>
    lowering.apply cursor.offset operation pops produces [kind.constant] frame
  | .indexed operation pops produces => do
    let operand ← cursor.operandValue 0
    lowering.apply cursor.offset operation pops produces [operand] frame
  | .literal value =>
    lowering.apply cursor.offset .loadConstant 0 true
      [ValueKind.i4.constant, value.toUInt64] frame
  | .integerConstant kind => do
    let width ← cursor.operandSize 0
    let operand ← cursor.operandValue 0
    lowering.apply cursor.offset .loadConstant 0 true
      [kind.constant, (signExtend operand width).toUInt64] frame
  | .floatConstant kind => do
    let operand ← cursor.operandValue 0
    lowering.apply cursor.offset .loadConstant 0 true [kind.constant, operand] frame
  | .loadString => lowering.loadString cursor frame
  | .loadToken => lowering.loadToken cursor frame
  | .duplicate => lowering.duplicate cursor.offset frame
  | .ret => lowering.ret cursor.offset frame
  | .branch operation pops => lowering.branch cursor operation pops frame
  | .leave => lowering.branch cursor .leave 0 frame.clear
  | .branchTable => lowering.branchTable cursor frame
  | .endFinally => lowering.apply cursor.offset .endFinally 0 false [] frame.clear
  | .typed operation pops produces => lowering.typed cursor operation pops produces [] frame
  | .element operation pops produces =>
    lowering.typed cursor operation pops produces [ValueKind.object.constant] frame
  | .field operation pops produces => lowering.field cursor operation pops produces frame
  | .newArray => lowering.newArray cursor frame
  | .call => lowering.call cursor false frame
  | .callVirtual => lowering.call cursor true frame
  | .newObject => lowering.newObject cursor frame
  | .reference operation produces => lowering.reference cursor operation produces frame
  | .constrained => do
    let operand ← cursor.operandValue 0
    return { frame with constraint := some ⟨operand, cursor.offset⟩ }

/-- The error that a constraint is not followed by a virtual call. -/
def dangling (lowering : Lowering) (constraint : Constraint) : Error :=
  .danglingConstraint lowering.method constraint.offset

/-- Lower the instruction at the cursor. -/
def step (lowering : Lowering) (cursor : Cursor) (frame : Frame) : Attempt Frame := do
  let opcode ← cursor.opcode
  match frame.constraint, opcode.effect with
  | _, some .callVirtual => lowering.perform cursor frame .callVirtual
  | some constraint, _ => Attempt.fail (lowering.dangling constraint)
  | none, some effect => lowering.perform cursor frame effect
  | none, none =>
    Attempt.fail (.unsupportedOpcode lowering.method cursor.offset opcode.mnemonic)

/-- Lower instructions until the code ends.  Every instruction takes a byte,
so the length of the code is fuel enough. -/
def run (lowering : Lowering) : Nat -> Cursor -> Frame -> Attempt Frame
  | 0, _, frame => Attempt.done frame
  | fuel + 1, cursor, frame =>
    if cursor.isExhausted then Attempt.done frame
    else do
      let frame ← (lowering.step cursor frame).mapError (Error.inMethod lowering.method)
      let next ← cursor.advance
      lowering.run fuel next frame

/-- Lower a body. -/
def lower (lowering : Lowering) (code : List UInt8) : Attempt LoweredBody := do
  let frame ← lowering.run code.length (Cursor.start code) Frame.start
  match frame.constraint with
  | some constraint => Attempt.fail (lowering.dangling constraint)
  | none => return ⟨frame.nodes, frame.strings⟩

end Lowering
end CilGraph
