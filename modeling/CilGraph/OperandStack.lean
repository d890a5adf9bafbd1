namespace CilGraph

/-!
# The operand stack

While a body is lowered, the operand stack holds for each operand the number
of the node that produces it.  It never holds values: an operand that was
duplicated is two entries for one node.
-/

/-- A stack of producers, the topmost first. -/
structure OperandStack where
  slots : List UInt32
deriving DecidableEq, Repr

namespace OperandStack

def empty : OperandStack := ⟨[]⟩

def size (stack : OperandStack) : Nat := stack.slots.length

def isEmpty (stack : OperandStack) : Bool := stack.slots.isEmpty

def push (stack : OperandStack) (id : UInt32) : OperandStack := ⟨id :: stack.slots⟩

/-- Take the topmost entry. -/
def pop? (stack : OperandStack) : Option (UInt32 × OperandStack) :=
  match stack.slots with
  | [] => none
  | id :: rest => some (id, ⟨rest⟩)

/-- Take a number of entries one by one, the topmost first. -/
def popEach? : Nat -> OperandStack -> Option (List UInt32 × OperandStack)
  | 0, stack => some ([], stack)
  | count + 1, stack => do
    let (id, stack) ← stack.pop?
    let (ids, stack) ← popEach? count stack
    some (id :: ids, stack)

/-- Take a number of entries as a block, in the order in which they were
pushed.  Nothing is taken if there are too few. -/
def popMany? (stack : OperandStack) (count : Nat) : Option (List UInt32 × OperandStack) :=
  if count ≤ stack.size then
    some ((stack.slots.take count).reverse, ⟨stack.slots.drop count⟩)
  else none

end OperandStack
end CilGraph
