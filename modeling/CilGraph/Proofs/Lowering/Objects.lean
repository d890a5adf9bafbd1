import CilGraph.Proofs.Lowering.References

namespace CilGraph

/-!
# What nodes that make objects show

A node that makes an object holds two things that need not agree.  Its text is the
full name of the type that the instruction names, as the program declares it.  The
constructor whose name is in the pool is the one that is used in its place, and it
may belong to another type if the declared one is replaced.  Only the constructor is
discovered.  A constructor is never bound to an external symbol, so it is discovered
as a callable.
-/

/-- A node makes an object by a constructor of a type. -/
structure Node.Makes (program : Program) (node : Node) (constructor : Callable) (type : TypeDef) :
    Prop where
  named : exists operand, node.constants.head? = some operand ∧
    program.callable (Lowering.tokenOf operand) = .ok constructor
  isConstructor : constructor.isConstructor = true
  declared : program.typeDef constructor.declaring = .ok type
  shown : node.text = Node.textOf type.fullName

namespace Lowering

/-- A node that makes an object shows a type, and the constructor that is used has
been discovered. -/
def MadeBy (lowering : Lowering) (discoveries : List Discovery) (node : Node) : Prop :=
  node.operation = .newObject -> exists declared resolved type,
    node.Makes lowering.linkage.program declared type ∧
    lowering.linkage.resolveCallable declared = .ok resolved ∧
    Discovery.callable resolved ∈ discoveries

section Steps

variable {lowering : Lowering} {cursor : Cursor} {frame next : Frame}
  {discoveries others : List Discovery} {node : Node}

theorem MadeBy.mono (made : MadeBy lowering discoveries node)
    (included : forall discovery, discovery ∈ discoveries -> discovery ∈ others) :
    MadeBy lowering others node := by
  intro isNew
  rcases made isNew with ⟨declared, resolved, type, makes, resolves, discovered⟩
  exact ⟨declared, resolved, type, makes, resolves, included _ discovered⟩

/-- The rule of an operation tells that it makes no object. -/
theorem madeBy_of_rule {rule : ReferenceRule} (isRule : node.operation.referenceRule = rule)
    (differs : (rule == .constructor) = false) : MadeBy lowering discoveries node := by
  intro isNew
  rw [isNew] at isRule
  rw [← isRule] at differs
  cases differs

theorem madeBy_newObject {discovery : Discovery} {operand index : UInt64}
    {declared constructor : Callable} {typeName name : String}
    (found : lowering.linkage.program.callable (tokenOf operand) = .ok declared)
    (isConstructor : declared.isConstructor = true)
    (named : lowering.linkage.program.typeName declared.declaring = .ok typeName)
    (refers : Referred lowering declared constructor name discovery)
    (constants : node.constants = [operand, index]) (shown : node.text = Node.textOf typeName) :
    MadeBy lowering [discovery] node := by
  rcases Result.map_eq_ok.mp named with ⟨type, declares, isName⟩
  rw [← isName] at shown
  have makes : node.Makes lowering.linkage.program declared type :=
    ⟨⟨operand, by rw [constants]; rfl, found⟩, isConstructor, declares, shown⟩
  have constructs := refers.constructs (Program.known_of_callable found) isConstructor
  refine fun _ => ⟨declared, constructor, type, makes, refers.resolves, ?_⟩
  rcases refers.reported with ⟨symbol, _, isNative⟩ | ⟨_, isCallable⟩
  · rw [isNative] at constructs
    exact constructs.elim
  · rw [isCallable]
    exact List.mem_singleton_self _

/-- A node that a step adds is made by what the step discovers. -/
theorem Performs.madeBy {effect : Effect} (explicit : effect.isExplicit = true)
    (performs : Performs lowering cursor frame effect discoveries next) {node : Node}
    (member : node ∈ next.nodes) : node ∈ frame.nodes ∨ MadeBy lowering discoveries node := by
  have added : forall {base : Frame} {last : Node}, base.nodes = frame.nodes ->
      node ∈ base.nodes ++ [last] -> MadeBy lowering discoveries last ->
      node ∈ frame.nodes ∨ MadeBy lowering discoveries node := by
    intro base last sameNodes among made
    rcases List.mem_append.mp among with earlier | isLast
    · exact Or.inl (sameNodes ▸ earlier)
    · rw [List.mem_singleton.mp isLast]
      exact Or.inr made
  cases performs with
  | common isCommon constant discovered applied =>
      rcases applied with ⟨inputs, stack, popped, same⟩
      unfold Effect.isExplicit at explicit
      rw [isCommon] at explicit
      rw [same] at member
      refine added ?_ member (madeBy_of_rule (eq_of_beq explicit) rfl)
      cases effect.clears <;> rfl
  | loadString reads found => exact added rfl member (madeBy_of_rule rfl rfl)
  | duplicate top => exact added rfl member (madeBy_of_rule rfl rfl)
  | retNothing empty => exact added rfl member (madeBy_of_rule rfl rfl)
  | retValue top => exact added rfl member (madeBy_of_rule rfl rfl)
  | newArray reads named popped => exact added rfl member (madeBy_of_rule rfl rfl)
  | call called =>
      exact added rfl member (madeBy_of_rule (callForm_callable false _ _) rfl)
  | callVirtual called =>
      exact added rfl member (madeBy_of_rule (callForm_callable true _ _) rfl)
  | newObject reads found isConstructor named refers popped =>
      exact added rfl member (madeBy_newObject found isConstructor named refers rfl rfl)
  | reference reads found refers =>
      exact added rfl member (madeBy_of_rule (eq_of_beq explicit) rfl)
  | constrained reads => exact Or.inl member

end Steps

theorem Runs.madeBy {lowering : Lowering} {cursor : Cursor} {frame final : Frame}
    {before discoveries : List Discovery} (runs : Runs lowering cursor frame discoveries final)
    (soFar : forall node, node ∈ frame.nodes -> MadeBy lowering before node) :
    forall node, node ∈ final.nodes -> MadeBy lowering (before ++ discoveries) node := by
  induction runs generalizing before with
  | done exhausted =>
      rw [List.append_nil]
      exact soFar
  | step decodes hasEffect unconstrained performs advances continues inductionHypothesis =>
      have explicit := Opcode.isExplicit_of_mem_table (mem_table_of_opcode decodes) hasEffect
      rw [← List.append_assoc]
      refine inductionHypothesis ?_
      intro node member
      rcases performs.madeBy explicit member with earlier | added
      · exact (soFar node earlier).mono (fun _ among => List.mem_append_left _ among)
      · exact added.mono (fun _ among => List.mem_append_right _ among)

/-- Every node of a lowered body that makes an object shows the declared type, and
the body has discovered the constructor that is used. -/
theorem madeBy_of_lower {lowering : Lowering} {code : List UInt8} {body : LoweredBody}
    (lowered : (lowering.lower code).result = .ok body) {node : Node} (member : node ∈ body.nodes) :
    MadeBy lowering (lowering.lower code).discoveries node := by
  rcases lower_yields (Attempt.yields_of_result lowered) with ⟨final, runs, _, same⟩
  have start : forall node, node ∈ Frame.start.nodes -> MadeBy lowering [] node :=
    fun _ among => absurd among List.not_mem_nil
  rw [same] at member
  exact runs.madeBy start node member

end Lowering
end CilGraph
