import CilGraph.Proofs.Lowering.Replay
import CilGraph.Proofs.Lowering.Turns

namespace CilGraph

/-!
# Reports and nodes agree about callables

A callable that a body calls, constructs or names is told twice: as a discovery
while the body is lowered, and as a name that the node of the instruction shows.
Whoever compiles the discovery makes a record or an external symbol under a name,
and whoever runs the body looks a callable up under the name of the node.

Both come from one resolution of the callable that the operand declares.  So the
discoveries of callables and the nodes that name one are paired in order, and each
pair agrees on what the first constant of the node stands for: on the callable that
is used in its place, on whether an external symbol implements it, and on its
mangled name.  Only the node that makes an object keeps the name elsewhere, in the
pool of the body, and shows the declared type instead.

The pool holds nothing else than these names and the literals of the body.  A place
in it is stored as a machine word, so code must not be longer than one can count.
-/

/-- Whether the nodes of an operation stand for a callable. -/
def Operation.namesCallable : Operation -> Bool
  | .call | .callVirtual | .callVirtualConstrained | .newObject | .loadFunction | .jump => true
  | _ => false

/-- Whether the nodes of an operation have a place in the pool. -/
def Operation.usesPool : Operation -> Bool
  | .loadString | .newObject => true
  | _ => false

theorem Operation.namesCallable_eq (operation : Operation) : operation.namesCallable =
    (operation.referenceRule == .callable || operation.referenceRule == .constructor) := by
  cases operation <;> rfl

theorem Operation.usesPool_eq (operation : Operation) : operation.usesPool =
    (operation.referenceRule == .constructor || operation.referenceRule == .literal) := by
  cases operation <;> rfl

/-- Whether a discovery is a callable, of the program or external. -/
def Discovery.isReference : Discovery -> Bool
  | .type _ => false
  | _ => true

namespace Lowering

/-- Where a node has the name of its callable.  A node that makes an object has it
in the pool and shows the declared type. -/
def HasName (program : Program) (strings : List String) (declared : Callable) (name : String)
    (node : Node) : Prop :=
  if node.operation = .newObject then
    exists (index : UInt64) (typeName : String), node.constants[1]? = some index ∧
      strings[index.toNat]? = some name ∧
      program.typeName declared.declaring = .ok typeName ∧ node.text = Node.textOf typeName
  else node.text = some name

/-- A node and a discovery are about the same callable under the same name. -/
def Tells (lowering : Lowering) (strings : List String) (node : Node) (discovery : Discovery) :
    Prop :=
  exists operand declared resolved name, node.constants.head? = some operand ∧
    lowering.linkage.program.callable (tokenOf operand) = .ok declared ∧
    Referred lowering declared resolved name discovery ∧
    HasName lowering.linkage.program strings declared name node

/-- What a node has entered into the pool: its literal or the name of its constructor. -/
def Pools (lowering : Lowering) (node : Node) (entry : String) : Prop :=
  (node.operation = .loadString ∧ node.text = Node.textOf entry) ∨
    (node.operation = .newObject ∧ exists operand declared resolved,
      node.constants.head? = some operand ∧
      lowering.linkage.program.callable (tokenOf operand) = .ok declared ∧
      lowering.linkage.resolveCallable declared = .ok resolved ∧
      lowering.linkage.program.mangle resolved = .ok entry)

/-- A node keeps its name when the pool grows. -/
theorem Tells.mono {lowering : Lowering} {strings more : List String} {node : Node}
    {discovery : Discovery} (tells : Tells lowering strings node discovery)
    (grows : strings <+: more) : Tells lowering more node discovery := by
  rcases tells with ⟨operand, declared, resolved, name, first, found, referred, hasName⟩
  refine ⟨operand, declared, resolved, name, first, found, referred, ?_⟩
  unfold HasName at hasName ⊢
  by_cases isNew : node.operation = .newObject
  · rw [if_pos isNew] at hasName ⊢
    rcases hasName with ⟨index, typeName, second, stands, named, shown⟩
    refine ⟨index, typeName, second, ?_, named, shown⟩
    rcases grows with ⟨others, rfl⟩
    rw [List.getElem?_append_left (List.getElem?_eq_some_iff.mp stands).1]
    exact stands
  · rw [if_neg isNew] at hasName ⊢
    exact hasName

section Steps

variable {lowering : Lowering} {cursor : Cursor} {frame next : Frame} {effect : Effect}
  {discoveries : List Discovery}

theorem filter_isReference_of_types
    (types : forall discovery, discovery ∈ discoveries -> exists token, discovery = .type token) :
    discoveries.filter Discovery.isReference = [] := by
  refine List.filter_eq_nil_iff.mpr (fun discovery member => ?_)
  rcases types discovery member with ⟨token, isType⟩
  rw [isType]
  nofun

theorem Referred.isReference {declared resolved : Callable} {name : String} {discovery : Discovery}
    (referred : Referred lowering declared resolved name discovery) :
    discovery.isReference = true := by
  rcases referred.reported with ⟨symbol, _, same⟩ | ⟨_, same⟩ <;> rw [same] <;> rfl

/-- A call or a reference, seen from its node. -/
theorem tells_of_referred {strings : List String} {node : Node} {operand : UInt64}
    {declared resolved : Callable} {name : String} {discovery : Discovery}
    (rule : node.operation.referenceRule = .callable) (first : node.constants.head? = some operand)
    (found : lowering.linkage.program.callable (tokenOf operand) = .ok declared)
    (referred : Referred lowering declared resolved name discovery)
    (shown : node.text = Node.textOf name) : Tells lowering strings node discovery := by
  have isOther : node.operation ≠ .newObject := by
    intro isNew
    rw [isNew] at rule
    cases rule
  refine ⟨operand, declared, resolved, name, first, found, referred, ?_⟩
  rw [HasName, if_neg isOther, shown]
  exact (referred.calls (Program.known_of_callable found)).2

/-- One node that stands for a callable, and the discovery of that callable. -/
theorem forall₂_tells_single {strings : List String} {node : Node} {discovery : Discovery}
    (names : node.operation.namesCallable = true) (isReference : discovery.isReference = true)
    (tells : Tells lowering strings node discovery) :
    List.Forall₂ (Tells lowering strings)
      ([node].filter (fun node => node.operation.namesCallable))
      ([discovery].filter Discovery.isReference) := by
  simpa [names, isReference] using tells

theorem forall₂_tells_call {isVirtual : Bool} {discovery : Discovery} {operand : UInt64}
    {target : Callable} {name : String} {inputs : List UInt32} {stack : OperandStack}
    (strings : List String)
    (called : Called lowering cursor frame discovery operand target name inputs stack) :
    List.Forall₂ (Tells lowering strings)
      ((frame.added (afterCall cursor isVirtual frame operand target name inputs stack)).filter
        (fun node => node.operation.namesCallable))
      ([discovery].filter Discovery.isReference) := by
  rcases called.refers with ⟨declared, found, referred⟩
  have rule := callForm_callable isVirtual operand frame.constraint
  have first := (callForm_calls isVirtual operand frame.constraint).2
  have added : frame.added (afterCall cursor isVirtual frame operand target name inputs stack) =
      [_] := added_of_append rfl
  rw [added]
  refine forall₂_tells_single ?_ referred.isReference
    (tells_of_referred rule first found referred rfl)
  rw [Operation.namesCallable_eq, rule]
  rfl

/-- A step that makes a node for a callable reports that callable. -/
theorem Performs.tells (performs : Performs lowering cursor frame effect discoveries next)
    (explicit : effect.isExplicit = true) (countable : frame.strings.length < 2 ^ 64) :
    List.Forall₂ (Tells lowering next.strings)
      ((frame.added next).filter (fun node => node.operation.namesCallable))
      (discoveries.filter Discovery.isReference) := by
  cases performs with
  | common isCommon constant discovered applied =>
      rcases (Performs.common isCommon constant discovered applied).ordinary isCommon with
        ⟨node, ordinary⟩
      unfold Effect.isExplicit at explicit
      rw [isCommon] at explicit
      have noName : node.operation.namesCallable = false := by
        rw [ordinary.operation, Operation.namesCallable_eq, eq_of_beq explicit]
        rfl
      have noReference := filter_isReference_of_types
        (fun discovery member => Effect.exists_type_of_mem_discoveries discovered member)
      rw [ordinary.added, noReference, List.filter_singleton, noName]
      exact .nil
  | loadString | duplicate | retNothing | retValue =>
      rw [added_of_append rfl]
      exact .nil
  | newArray reads named popped =>
      rw [added_of_append rfl]
      exact .nil
  | constrained reads =>
      rw [Frame.added, List.drop_length]
      exact .nil
  | call called => exact forall₂_tells_call _ called
  | callVirtual called => exact forall₂_tells_call _ called
  | reference reads found refers =>
      have rule := eq_of_beq explicit
      rw [added_of_append rfl]
      refine forall₂_tells_single ?_ refers.isReference
        (tells_of_referred rule rfl found refers rfl)
      rw [Operation.namesCallable_eq, rule]
      rfl
  | newObject reads found isConstructor named refers popped =>
      rename_i operand declared constructor typeName name inputs stack
      rw [added_of_append rfl]
      refine forall₂_tells_single rfl refers.isReference
        ⟨operand, declared, constructor, name, rfl, found, refers, ?_⟩
      exact ⟨_, typeName, rfl, getElem?_pool name countable, named, rfl⟩

theorem forall₂_pools {nodes : List Node} {entries : List String}
    (added : next.nodes = frame.nodes ++ nodes) (entered : next.strings = frame.strings ++ entries)
    (paired : List.Forall₂ (Pools lowering)
      (nodes.filter (fun node => node.operation.usesPool)) entries) :
    List.Forall₂ (Pools lowering)
      ((frame.added next).filter (fun node => node.operation.usesPool)) (frame.pooled next) := by
  rw [added_of_append added, pooled_of_append entered]
  exact paired

/-- What a step enters into the pool is what its node stands for there. -/
theorem Performs.pools (performs : Performs lowering cursor frame effect discoveries next)
    (explicit : effect.isExplicit = true) :
    List.Forall₂ (Pools lowering)
      ((frame.added next).filter (fun node => node.operation.usesPool)) (frame.pooled next) := by
  have single : forall {node : Node} {entry : String}, node.operation.usesPool = true ->
      Pools lowering node entry -> List.Forall₂ (Pools lowering)
        ([node].filter (fun node => node.operation.usesPool)) [entry] := by
    intro node entry uses pools
    simpa [uses] using pools
  have apart : forall {node : Node}, node.operation.referenceRule = .callable ->
      List.Forall₂ (Pools lowering) ([node].filter (fun node => node.operation.usesPool)) [] := by
    intro node rule
    simp [Operation.usesPool_eq, rule]
  cases performs with
  | common isCommon constant discovered applied =>
      rcases (Performs.common isCommon constant discovered applied).ordinary isCommon with
        ⟨node, ordinary⟩
      unfold Effect.isExplicit at explicit
      rw [isCommon] at explicit
      have noPlace : node.operation.usesPool = false := by
        rw [ordinary.operation, Operation.usesPool_eq, eq_of_beq explicit]
        rfl
      rw [ordinary.added, ordinary.pooled, List.filter_singleton, noPlace]
      exact .nil
  | loadString reads found => exact forall₂_pools rfl rfl (single rfl (Or.inl ⟨rfl, rfl⟩))
  | newObject reads found isConstructor named refers popped =>
      refine forall₂_pools rfl rfl (single rfl ?_)
      exact Or.inr ⟨rfl, _, _, _, rfl, found, refers.resolves, refers.mangles⟩
  | duplicate | retNothing | retValue | newArray =>
      exact forall₂_pools rfl (List.append_nil _).symm .nil
  | constrained reads => exact forall₂_pools (List.append_nil _).symm (List.append_nil _).symm .nil
  | call called =>
      exact forall₂_pools rfl (List.append_nil _).symm (apart (callForm_callable false _ _))
  | callVirtual called =>
      exact forall₂_pools rfl (List.append_nil _).symm (apart (callForm_callable true _ _))
  | reference reads found refers =>
      exact forall₂_pools rfl (List.append_nil _).symm (apart (eq_of_beq explicit))

theorem Performs.length_strings (performs : Performs lowering cursor frame effect discoveries next)
    : next.strings.length ≤ frame.strings.length + 1 := by
  cases performs with
  | common isCommon constant discovered applied =>
      rcases applied with ⟨inputs, stack, popped, same⟩
      subst same
      cases effect.clears <;> exact Nat.le_succ _
  | loadString | newObject => exact Nat.le_of_eq List.length_append
  | duplicate | retNothing | retValue | newArray | call | callVirtual | reference | constrained =>
      exact Nat.le_succ _

end Steps

/-- A turn enters one literal at most and takes a byte at least. -/
theorem History.length_strings {lowering : Lowering} {cursor : Cursor} {frame final : Frame}
    {turns : List (Turn lowering)} (history : History lowering cursor frame turns final)
    {turn : Turn lowering} (member : turn ∈ turns) :
    turn.before.strings.length ≤ frame.strings.length + cursor.rest.length := by
  induction history with
  | done exhausted => cases member
  | turn first continues inductionHypothesis =>
      rcases List.mem_cons.mp member with same | later
      · rw [same]
        exact Nat.le_add_right _ _
      · have enters := first.performs.length_strings
        have shorter := Cursor.length_rest_advance first.sees.advances
        have bound := inductionHypothesis later
        omega

/-- Reports and nodes agree about callables.  The nodes of a lowered body that stand
for a callable are paired, in order, with the callables and external symbols that the
body has discovered.  The callable that the first constant of a node declares is
resolved once, and the discovery is about the resolved one: as an external symbol
under its mangled name if it is bound to one, and as a callable otherwise.  The node
has that name, too.

The pool of the body is, in order, what the nodes with a place there stand for: their
literals, and the names of their constructors. -/
theorem lower_tells (lowering : Lowering) (code : List UInt8) (body : LoweredBody)
    (countable : code.length < 2 ^ 64) (lowered : (lowering.lower code).result = .ok body) :
    List.Forall₂ (Tells lowering body.strings)
        (body.nodes.filter (fun node => node.operation.namesCallable))
        ((lowering.lower code).discoveries.filter Discovery.isReference) ∧
      List.Forall₂ (Pools lowering)
        (body.nodes.filter (fun node => node.operation.usesPool)) body.strings := by
  rcases accounted_of_lower lowered with ⟨turns, final, accounted⟩
  have explicit : forall turn, turn ∈ turns -> turn.effect.isExplicit = true :=
    fun turn _ => Opcode.isExplicit_of_mem_table turn.listed turn.hasEffect
  have whole : final.strings = body.strings :=
    accounted.history.literals_append.trans accounted.strings.symm
  constructor
  · rw [accounted.nodes, accounted.discoveries, List.filter_flatMap, List.filter_flatMap]
    refine forall₂_flatMap (fun turn member => ?_)
    have entered : turn.before.strings.length ≤ 0 + code.length :=
      accounted.history.length_strings member
    have tells := turn.performs.tells (explicit turn member) (by omega)
    have grows := accounted.history.pool_prefix member
    rw [whole] at grows
    exact tells.imp (fun node discovery tells => tells.mono grows)
  · rw [accounted.nodes, accounted.strings, List.filter_flatMap]
    exact forall₂_flatMap (fun turn member => turn.performs.pools (explicit turn member))

/-- Two types of the same shape, of which the first is replaced by the second.  The
method of the second is an external symbol. -/
def sampleBellLowering : Lowering where
  linkage := {
    program := {
      types := [
        ⟨⟨0x02000001⟩, "Demo", "Note", TypeAttributes.exported, none, none, [], [],
          [⟨0x06000001⟩], [⟨0x06000002⟩]⟩,
        ⟨⟨0x02000002⟩, "Demo", "Bell", TypeAttributes.exported, none, none, [], [],
          [⟨0x06000003⟩], [⟨0x06000004⟩]⟩]
      names := [("Demo.Note", ⟨0x02000001⟩), ("Demo.Bell", ⟨0x02000002⟩)]
      fields := []
      callables := [
        .method ⟨⟨0x06000001⟩, "Ring", ⟨0x02000001⟩, ⟨0, 0x0010, 0⟩, none, [], none⟩,
        .constructor ⟨⟨0x06000002⟩, ⟨0x02000001⟩, false, [], none⟩,
        .method ⟨⟨0x06000003⟩, "Ring", ⟨0x02000002⟩, ⟨0, 0x0010, 0⟩, none, [], none⟩,
        .constructor ⟨⟨0x06000004⟩, ⟨0x02000002⟩, false, [], none⟩]
      strings := [(⟨0x70000001⟩, "ding")] }
    substitutions := [(⟨0x02000001⟩, ⟨0x02000002⟩)]
    natives := [⟨⟨0x02000002⟩, "Ring", none, "bell_ring"⟩] }
  method := "Main"

/-- Load a literal, make a note, ring it and load the function that rings it. -/
def sampleBellCode : List UInt8 :=
  [0x72, 0x01, 0x00, 0x00, 0x70, 0x26, 0x73, 0x02, 0x00, 0x00, 0x06, 0x26,
    0x28, 0x01, 0x00, 0x00, 0x06, 0xFE, 0x06, 0x01, 0x00, 0x00, 0x06, 0x26, 0x2A]

def sampleBellBody : LoweredBody where
  nodes := [
    ⟨0, 0, .loadString, [], [0], some "ding"⟩,
    ⟨1, 5, .pop, [0], [], none⟩,
    ⟨2, 6, .newObject, [], [0x06000002, 1], some "Demo.Note"⟩,
    ⟨3, 11, .pop, [2], [], none⟩,
    ⟨4, 12, .call, [], [0x06000001], some "System.Void____Demo.Bell.Ring_static"⟩,
    ⟨5, 17, .loadFunction, [], [0x06000001], some "System.Void____Demo.Bell.Ring_static"⟩,
    ⟨6, 23, .pop, [5], [], none⟩,
    ⟨7, 24, .ret, [], [], none⟩]
  strings := ["ding", "System.Void____Demo.Bell..ctor_constr"]

def sampleBellReferences : List Discovery := [
  .callable (.constructor ⟨⟨0x06000004⟩, ⟨0x02000002⟩, false, [], none⟩),
  .native "System.Void____Demo.Bell.Ring_static" "bell_ring",
  .native "System.Void____Demo.Bell.Ring_static" "bell_ring"]

theorem lower_sampleBellCode :
    (sampleBellLowering.lower sampleBellCode).result = .ok sampleBellBody := by
  decide +kernel

theorem sampleBellBody_tells : sampleBellCode.length < 2 ^ 64 ∧
    (sampleBellLowering.lower sampleBellCode).result = .ok sampleBellBody ∧
    List.Forall₂ (Tells sampleBellLowering sampleBellBody.strings)
      (sampleBellBody.nodes.filter (fun node => node.operation.namesCallable))
      sampleBellReferences ∧
    List.Forall₂ (Pools sampleBellLowering)
      (sampleBellBody.nodes.filter (fun node => node.operation.usesPool))
      sampleBellBody.strings := by
  have references : (sampleBellLowering.lower sampleBellCode).discoveries.filter
      Discovery.isReference = sampleBellReferences := by decide +kernel
  rcases lower_tells sampleBellLowering sampleBellCode sampleBellBody (by decide)
    lower_sampleBellCode with ⟨tells, pools⟩
  rw [references] at tells
  exact ⟨by decide, lower_sampleBellCode, tells, pools⟩

end Lowering
end CilGraph
