import CilGraph.Operation
import CilGraph.ValueKind

namespace CilGraph

/-!
# Effects of instructions

The many instructions of the language fall into few groups by what they do to
the operand stack and by where the constants of their node come from.  An
effect names the group and holds what still differs within it.

In every group, `pops` is the number of operands that are taken, the topmost
first, and `produces` says whether the node's own value is left on the stack.
-/

/-- What an instruction does when a body is lowered. -/
inductive Effect where
  /-- The constants are fixed. -/
  | plain (operation : Operation) (pops : Nat) (produces : Bool) (constants : List UInt64)
  /-- The only constant is a value kind. -/
  | sized (operation : Operation) (pops : Nat) (produces : Bool) (kind : ValueKind)
  /-- The only constant is the operand, the index of an argument or a local. -/
  | indexed (operation : Operation) (pops : Nat) (produces : Bool)
  /-- Load a 32-bit integer that is part of the instruction's name. -/
  | literal (value : Int64)
  /-- Load an integer operand, extended by its sign. -/
  | integerConstant (kind : ValueKind)
  /-- Load a float operand by its bits. -/
  | floatConstant (kind : ValueKind)
  | loadString
  | loadToken
  | duplicate
  | ret
  /-- Branch to an operand relative to the next instruction. -/
  | branch (operation : Operation) (pops : Nat)
  /-- Empty the stack and branch. -/
  | leave
  | branchTable
  /-- Empty the stack and end a handler. -/
  | endFinally
  /-- The operand is a type. -/
  | typed (operation : Operation) (pops : Nat) (produces : Bool)
  /-- The operand is the type of an array element. -/
  | element (operation : Operation) (pops : Nat) (produces : Bool)
  /-- The operand is a field. -/
  | field (operation : Operation) (pops : Nat) (produces : Bool)
  | newArray
  | call
  | callVirtual
  | newObject
  /-- Name a callable without calling it. -/
  | reference (operation : Operation) (produces : Bool)
  /-- Constrain the receiver of the virtual call that follows. -/
  | constrained
deriving DecidableEq, Repr

end CilGraph
