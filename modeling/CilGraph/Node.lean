import CilGraph.Operation

namespace CilGraph

/-!
# Nodes

A lowered body is a list of nodes.  A node names the nodes that produce its
inputs, so that the operand stack is no longer needed.
-/

/-- One instruction of a lowered body. -/
structure Node where
  /-- The place of the node in its body. -/
  id : UInt32
  /-- The offset of the instruction that it stands for. -/
  offset : UInt32
  operation : Operation
  /-- The nodes that produce the inputs. -/
  inputs : List UInt32
  /-- Numbers whose meaning depends on the operation. -/
  constants : List UInt64
  /-- A literal or a mangled name. -/
  text : Option String
deriving DecidableEq, Repr

/-- An empty text counts as absent, since an image cannot tell the two apart. -/
def Node.textOf (text : String) : Option String :=
  if text.isEmpty then none else some text

end CilGraph
