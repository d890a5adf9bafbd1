import CilGraph.Program.Draft
import CilGraph.Proofs.Linkage
import CilGraph.Proofs.Lowering.Step

namespace CilGraph

/-!
# Replacements and the operands of calls

A call takes the arguments and the receiver of the callable that it calls, and
leaves a value if that one returns a value.  Where a type is replaced, the callable
is another one than the instruction names.  It is of the same kind and has as many
parameters, and a constructor is static only if the other is.

That leaves two things of a method on which the call depends and which are not
compared when its counterpart is looked for: whether it is static, and whether it
returns a value.  The first method of the replacement with the name and the
parameters counts, even where a later one agrees in these two as well.
`Linkage.Agrees` says that the first does, and only under that condition a
replacement keeps the effect of every call.
-/

/-- A call of either callable takes and leaves the same. -/
structure Callable.SameEffect (first second : Callable) : Prop where
  isConstructor : first.isConstructor = second.isConstructor
  isStatic : first.isStatic = second.isStatic
  stackInputs : first.stackInputs = second.stackInputs
  returns : first.returns.isSome = second.returns.isSome

instance (first second : Callable) : Decidable (first.SameEffect second) :=
  decidable_of_iff (first.isConstructor = second.isConstructor ∧
      first.isStatic = second.isStatic ∧ first.stackInputs = second.stackInputs ∧
      first.returns.isSome = second.returns.isSome)
    ⟨fun ⟨kind, isStatic, inputs, returns⟩ => ⟨kind, isStatic, inputs, returns⟩,
      fun ⟨kind, isStatic, inputs, returns⟩ => ⟨kind, isStatic, inputs, returns⟩⟩

theorem Callable.SameEffect.refl (callable : Callable) : callable.SameEffect callable :=
  ⟨rfl, rfl, rfl, rfl⟩

theorem Callable.stackInputs_congr {first second : Callable}
    (params : first.params.length = second.params.length)
    (isStatic : first.isStatic = second.isStatic) : first.stackInputs = second.stackInputs := by
  unfold Callable.stackInputs
  rw [params, isStatic]

namespace Linkage

/-! ## Counterparts -/

/-- A method has the name and, after replacement, the parameter types of another. -/
def Matches (linkage : Linkage) (method candidate : MethodDef) : Prop :=
  candidate.name = method.name ∧ linkage.sameParams candidate.params method.params = true

/-- A method is the first in a list that matches another. -/
def FirstMatch (linkage : Linkage) (declared : List MethodDef)
    (method candidate : MethodDef) : Prop :=
  linkage.Matches method candidate ∧ exists before after, declared = before ++ candidate :: after ∧
    forall other, other ∈ before -> ¬ linkage.Matches method other

/-- The methods of every type that is replaced agree with the first methods of the
replacement that match them, in whether they are static and whether they return a
value. -/
def Agrees (linkage : Linkage) : Prop :=
  forall method, linkage.program.Known (.method method) ->
    linkage.resolveType method.declaring ≠ method.declaring ->
    forall type, linkage.program.typeDef (linkage.resolveType method.declaring) = .ok type ->
    forall declared, linkage.program.declaredMethods type = .ok declared ->
    forall candidate, linkage.FirstMatch declared method candidate ->
      candidate.isStatic = method.isStatic ∧ candidate.returns.isSome = method.returns.isSome

section Counterparts

variable {linkage : Linkage} {type : TypeDef} {callable resolved : Callable}

theorem length_of_sameParams {first second : List Param}
    (same : linkage.sameParams first second = true) : first.length = second.length := by
  have lengths := congrArg List.length (eq_of_beq same)
  simpa using lengths

theorem find?_eq_some_iff_firstMatch {declared : List MethodDef} {method candidate : MethodDef} :
    declared.find? (fun other => other.name == method.name &&
        linkage.sameParams other.params method.params) = some candidate ↔
      linkage.FirstMatch declared method candidate := by
  have isMatch : forall other, (other.name == method.name &&
      linkage.sameParams other.params method.params) = true ↔ linkage.Matches method other := by
    simp [Matches]
  rw [List.find?_eq_some_iff_append]
  simp only [isMatch, Bool.not_eq_true', ← Bool.not_eq_true]
  rfl

/-- The counterpart of a method is the first that matches it. -/
theorem counterpart?_method {method : MethodDef} :
    linkage.counterpart? type (.method method) = .ok (some resolved) ↔
      exists declared candidate, linkage.program.declaredMethods type = .ok declared ∧
        linkage.FirstMatch declared method candidate ∧ resolved = .method candidate := by
  constructor
  · intro replaced
    rcases Result.bind_eq_ok.mp replaced with ⟨declared, listed, selected⟩
    rcases Option.map_eq_some_iff.mp (Except.ok.inj selected) with ⟨candidate, first, same⟩
    exact ⟨declared, candidate, listed, find?_eq_some_iff_firstMatch.mp first, same.symm⟩
  · rintro ⟨declared, candidate, listed, first, same⟩
    refine Result.bind_eq_ok.mpr ⟨declared, listed, ?_⟩
    rw [find?_eq_some_iff_firstMatch.mpr first, same]
    rfl

/-- A counterpart is of the same kind, and it has as many parameters.  For a
constructor this is all that a call depends on. -/
theorem effect_of_counterpart?
    (replaced : linkage.counterpart? type callable = .ok (some resolved)) :
    resolved.isConstructor = callable.isConstructor ∧
      resolved.params.length = callable.params.length ∧
      (callable.isConstructor = true -> resolved.SameEffect callable) := by
  cases callable with
  | method method =>
      rcases counterpart?_method.mp replaced with ⟨declared, candidate, _, first, same⟩
      rw [same]
      refine ⟨rfl, length_of_sameParams first.1.2, ?_⟩
      intro impossible
      cases impossible
  | constructor constructor =>
      rcases Result.bind_eq_ok.mp replaced with ⟨declared, _, selected⟩
      rcases Option.map_eq_some_iff.mp (Except.ok.inj selected) with ⟨candidate, first, same⟩
      have selects := List.find?_some first
      rw [Bool.and_eq_true] at selects
      have isStatic : candidate.isStatic = constructor.isStatic := eq_of_beq selects.1
      have params := length_of_sameParams selects.2
      rw [← same]
      refine ⟨rfl, params, ?_⟩
      intro _
      exact ⟨rfl, isStatic, Callable.stackInputs_congr params isStatic, rfl⟩

theorem effect_of_resolveCallable (resolves : linkage.resolveCallable callable = .ok resolved) :
    resolved.isConstructor = callable.isConstructor ∧
      resolved.params.length = callable.params.length ∧
      (callable.isConstructor = true -> resolved.SameEffect callable) := by
  rcases resolveCallable_eq_ok resolves with ⟨_, same⟩ | ⟨_, type, _, replaced⟩
  · rw [same]
    exact ⟨rfl, rfl, fun _ => .refl callable⟩
  · exact effect_of_counterpart? replaced

theorem Agrees.sameEffect (agrees : linkage.Agrees) (known : linkage.program.Known callable)
    (resolves : linkage.resolveCallable callable = .ok resolved) :
    resolved.SameEffect callable := by
  rcases effect_of_resolveCallable resolves with ⟨kind, params, ofConstructor⟩
  cases callable with
  | constructor constructor => exact ofConstructor rfl
  | method method =>
      rcases resolveCallable_eq_ok resolves with ⟨_, same⟩ | ⟨moved, type, isType, replaced⟩
      · rw [same]
        exact .refl _
      · rcases counterpart?_method.mp replaced with ⟨declared, candidate, listed, first, same⟩
        rcases agrees method known moved type isType declared listed candidate first with
          ⟨isStatic, returns⟩
        rw [same] at params ⊢
        exact ⟨rfl, isStatic, Callable.stackInputs_congr params isStatic, returns⟩

theorem agrees_of_sameEffect (keeps : forall callable resolved, linkage.program.Known callable ->
      linkage.resolveCallable callable = .ok resolved -> resolved.SameEffect callable) :
    linkage.Agrees := by
  intro method known moved type isType declared listed candidate first
  have replaced : linkage.counterpart? type (.method method) = .ok (some (.method candidate)) :=
    counterpart?_method.mpr ⟨declared, candidate, listed, first, rfl⟩
  have resolves := resolveCallable_of_counterpart? moved isType replaced
  have same := keeps _ _ known resolves
  exact ⟨same.isStatic, same.returns⟩

end Counterparts
end Linkage

/-! ## Instructions -/

/-- From one state to the next, operands are taken and perhaps the value of a node is
left. -/
def Frame.Exchanges (count : Nat) (produces : Bool) (frame next : Frame) : Prop :=
  exists inputs stack, frame.stack.popMany? count = some (inputs, stack) ∧
    next.stack = if produces then stack.push frame.nextId else stack

namespace Lowering

section Calls

variable {lowering : Lowering} {cursor : Cursor} {frame : Frame} {discovery : Discovery}
  {operand : UInt64} {target declared : Callable} {name : String} {inputs : List UInt32}
  {stack : OperandStack}

/-- A call exchanges operands as the callable says that the instruction names, if the
one that takes its place has the same effect. -/
theorem Called.exchanges
    (called : Called lowering cursor frame discovery operand target name inputs stack)
    (found : lowering.linkage.program.callable (tokenOf operand) = .ok declared)
    (keeps : lowering.linkage.resolveCallable declared = .ok target -> target.SameEffect declared)
    (isVirtual : Bool) :
    Frame.Exchanges declared.stackInputs declared.returns.isSome frame
      (afterCall cursor isVirtual frame operand target name inputs stack) := by
  rcases called.refers with ⟨named, isNamed, referred⟩
  have sameNamed : named = declared := Except.ok.inj (isNamed.symm.trans found)
  rw [sameNamed] at referred
  have same := keeps referred.resolves
  refine ⟨inputs, stack, ?_, ?_⟩
  · rw [← same.stackInputs]
    exact called.pops
  · rw [← same.returns]
    rfl

end Calls

section Steps

variable {lowering : Lowering} {cursor : Cursor} {frame next : Frame} {opcode : Opcode}
  {discoveries : List Discovery} {operand : UInt64} {declared : Callable}

/-- The effect that a step performs is the one of the instruction. -/
theorem performs_of_step (stepped : (lowering.step cursor frame).Yields discoveries next)
    (decoded : cursor.opcode = .ok opcode) {effect : Effect}
    (hasEffect : opcode.effect = some effect) :
    Performs lowering cursor frame effect discoveries next := by
  rcases step_yields stepped with ⟨other, performed, isOther, isEffect, _, performs⟩
  have sameOpcode : other = opcode := Except.ok.inj (isOther.symm.trans decoded)
  rw [sameOpcode, hasEffect] at isEffect
  cases isEffect
  exact performs

/-- Objects are made from as many operands as the constructor that the instruction
names has parameters, and are left on the stack. -/
theorem exchanges_of_newObject
    (performs : Performs lowering cursor frame .newObject discoveries next)
    (reads : cursor.operandValue 0 = .ok operand)
    (found : lowering.linkage.program.callable (tokenOf operand) = .ok declared) :
    Frame.Exchanges declared.params.length true frame next := by
  cases performs with
  | common isCommon => cases isCommon
  | newObject readsThen foundThen isConstructor named refers popped =>
      rw [reads] at readsThen
      cases readsThen
      rw [found] at foundThen
      cases foundThen
      rw [(Linkage.effect_of_resolveCallable refers.resolves).2.1] at popped
      exact ⟨_, _, popped, rfl⟩

theorem exchanges_of_call {effect : Effect} (isCall : effect = .call ∨ effect = .callVirtual)
    (agrees : lowering.linkage.Agrees)
    (performs : Performs lowering cursor frame effect discoveries next)
    (reads : cursor.operandValue 0 = .ok operand)
    (found : lowering.linkage.program.callable (tokenOf operand) = .ok declared) :
    Frame.Exchanges declared.stackInputs declared.returns.isSome frame next := by
  have known := Program.known_of_callable found
  rcases isCall with rfl | rfl
  · cases performs with
    | common isCommon => cases isCommon
    | call called =>
        rw [Except.ok.inj (reads.symm.trans called.reads)] at found
        exact called.exchanges found (agrees.sameEffect known) false
  · cases performs with
    | common isCommon => cases isCommon
    | callVirtual called =>
        rw [Except.ok.inj (reads.symm.trans called.reads)] at found
        exact called.exchanges found (agrees.sameEffect known) true

end Steps
end Lowering

namespace Linkage

/-- A replacement is of the same kind, and it keeps the number of parameters and the
whole effect of constructors.  So an object is made from as many operands as before.
The effect of every callable is kept exactly if the methods of replaced types agree
with the first that match them, and then no call takes or leaves anything else than
the callable that it names. -/
theorem sameEffect_iff_agrees (linkage : Linkage) :
    (forall callable resolved, linkage.resolveCallable callable = .ok resolved ->
      resolved.isConstructor = callable.isConstructor ∧
        resolved.params.length = callable.params.length ∧
        (callable.isConstructor = true -> resolved.SameEffect callable)) ∧
    ((forall callable resolved, linkage.program.Known callable ->
      linkage.resolveCallable callable = .ok resolved -> resolved.SameEffect callable) ↔
        linkage.Agrees) ∧
    forall method cursor frame next discoveries opcode operand declared,
      ((Lowering.mk linkage method).step cursor frame).Yields discoveries next ->
      cursor.opcode = .ok opcode -> cursor.operandValue 0 = .ok operand ->
      linkage.program.callable (Lowering.tokenOf operand) = .ok declared ->
      (opcode.effect = some .newObject ->
        Frame.Exchanges declared.params.length true frame next) ∧
      (linkage.Agrees -> opcode.effect = some .call ∨ opcode.effect = some .callVirtual ->
        Frame.Exchanges declared.stackInputs declared.returns.isSome frame next) := by
  refine ⟨fun _ _ => effect_of_resolveCallable, ⟨agrees_of_sameEffect, ?_⟩, ?_⟩
  · intro agrees callable resolved known resolves
    exact agrees.sameEffect known resolves
  · intro method cursor frame next discoveries opcode operand declared stepped decoded reads found
    constructor
    · intro isNewObject
      exact Lowering.exchanges_of_newObject
        (Lowering.performs_of_step stepped decoded isNewObject) reads found
    · rintro agrees (isCall | isCallVirtual)
      · exact Lowering.exchanges_of_call (Or.inl rfl) agrees
          (Lowering.performs_of_step stepped decoded isCall) reads found
      · exact Lowering.exchanges_of_call (Or.inr rfl) agrees
          (Lowering.performs_of_step stepped decoded isCallVirtual) reads found

end Linkage

/-- A desk, a booth with two more methods of the same names and parameters, and a
kiosk without them. -/
def sampleCounterSteps : List DraftStep := [
  .type none "Demo" "Desk" TypeAttributes.exported none,
  .type none "Demo" "Booth" TypeAttributes.exported none,
  .type none "Demo" "Kiosk" TypeAttributes.exported none,
  .type none "System" "Int32" TypeAttributes.exported none,
  .method none ⟨0x02000001⟩ "Call" ⟨6, 0x0010, 0⟩ none [] none,
  .method none ⟨0x02000001⟩ "Ask" ⟨6, 0x0010, 0⟩ none [] none,
  .method none ⟨0x02000002⟩ "Call" ⟨6, 0, 0⟩ none [] none,
  .method none ⟨0x02000002⟩ "Call" ⟨6, 0x0010, 0⟩ none [] none,
  .method none ⟨0x02000002⟩ "Ask" ⟨6, 0x0010, 0⟩ (some ⟨0x02000004⟩) [] none,
  .method none ⟨0x02000002⟩ "Ask" ⟨6, 0x0010, 0⟩ none [] none,
  .method none ⟨0x02000003⟩ "Call" ⟨6, 0x0010, 0⟩ none [] none,
  .method none ⟨0x02000003⟩ "Ask" ⟨6, 0x0010, 0⟩ none [] none]

def sampleCounter : Program :=
  (Draft.ofSteps sampleCounterSteps).build.toOption.getD ⟨[], [], [], [], []⟩

/-- The linkage that replaces the desk by another type. -/
def sampleCounterLinkage (replacement : String) : Linkage :=
  (Linkage.ofSettings sampleCounter ⟨[⟨"Demo.Desk", replacement⟩], []⟩).toOption.getD
    ⟨sampleCounter, [], []⟩

def sampleBoothLinkage : Linkage := sampleCounterLinkage "Demo.Booth"

def sampleKioskLinkage : Linkage := sampleCounterLinkage "Demo.Kiosk"

def sampleDeskCall : Callable :=
  .method ⟨⟨0x06000001⟩, "Call", ⟨0x02000001⟩, ⟨6, 0x0010, 0⟩, none, [], none⟩

def sampleDeskAsk : Callable :=
  .method ⟨⟨0x06000002⟩, "Ask", ⟨0x02000001⟩, ⟨6, 0x0010, 0⟩, none, [], none⟩

def sampleKioskCall : Callable :=
  .method ⟨⟨0x06000007⟩, "Call", ⟨0x02000003⟩, ⟨6, 0x0010, 0⟩, none, [], none⟩

/-- The kiosk has nothing to confuse. -/
theorem agrees_sampleKiosk : sampleKioskLinkage.Agrees := by
  have each : forall callable, callable ∈ sampleCounter.callables ->
      (sampleKioskLinkage.resolveCallable callable).toOption.all
        (fun resolved => decide (resolved.SameEffect callable)) = true := by
    decide +kernel
  apply Linkage.agrees_of_sameEffect
  intro callable resolved known resolves
  have keeps := each callable known.mem_callables
  rw [resolves] at keeps
  exact of_decide_eq_true keeps

/-- A call of the first method of the desk. -/
def sampleDeskCursor : Cursor :=
  Cursor.start [0x28, 0x01, 0x00, 0x00, 0x06]

/-- The state after the call, which goes to the kiosk. -/
def sampleKioskFrame : Frame :=
  ((Lowering.mk sampleKioskLinkage "Main").step sampleDeskCursor
    Frame.start).result.toOption.getD Frame.start

theorem sampleKiosk_keeps :
    sampleKioskLinkage.Agrees ∧
    sampleKioskLinkage.resolveCallable sampleDeskCall = .ok sampleKioskCall ∧
    ((Lowering.mk sampleKioskLinkage "Main").step sampleDeskCursor Frame.start).result =
      .ok sampleKioskFrame ∧
    Frame.Exchanges 0 false Frame.start sampleKioskFrame := by
  have succeeds : ((Lowering.mk sampleKioskLinkage "Main").step sampleDeskCursor
      Frame.start).result = .ok sampleKioskFrame := Result.eq_ok_getD (by decide +kernel) _
  have decoded : sampleDeskCursor.opcode = .ok ⟨0x28, "call", .method, some .call⟩ := by
    decide +kernel
  have found : sampleKioskLinkage.program.callable (Lowering.tokenOf 0x06000001) =
      .ok sampleDeskCall := by
    decide +kernel
  have keeps := (Linkage.sameEffect_iff_agrees sampleKioskLinkage).2.2 "Main" _ _ _ _ _
    0x06000001 _ (Attempt.yields_of_result succeeds) decoded (by decide +kernel) found
  exact ⟨agrees_sampleKiosk, by decide +kernel, succeeds,
    keeps.2 agrees_sampleKiosk (Or.inl rfl)⟩

/-- A method of instances. -/
def sampleBoothCall : Callable :=
  .method ⟨⟨0x06000003⟩, "Call", ⟨0x02000002⟩, ⟨6, 0, 0⟩, none, [], none⟩

/-- A method that returns a number. -/
def sampleBoothAsk : Callable :=
  .method ⟨⟨0x06000005⟩, "Ask", ⟨0x02000002⟩, ⟨6, 0x0010, 0⟩, some ⟨0x02000004⟩, [], none⟩

/-- Load a constant, call the first method of the desk, and return. -/
def sampleDeskCode : List UInt8 := [0x17, 0x28, 0x01, 0x00, 0x00, 0x06, 0x2A]

/-- Behind each of the two methods that are found, the booth has one that agrees with
the method of the desk.  The call takes the constant, which should be returned. -/
theorem sampleBooth_confuses :
    (Draft.ofSteps sampleCounterSteps).build = .ok sampleCounter ∧
    Linkage.ofSettings sampleCounter ⟨[⟨"Demo.Desk", "Demo.Booth"⟩], []⟩ =
      .ok sampleBoothLinkage ∧
    sampleBoothLinkage.resolveCallable sampleDeskCall = .ok sampleBoothCall ∧
    ¬ sampleBoothCall.SameEffect sampleDeskCall ∧
    sampleBoothLinkage.resolveCallable sampleDeskAsk = .ok sampleBoothAsk ∧
    ¬ sampleBoothAsk.SameEffect sampleDeskAsk ∧
    (sampleCounter.callable ⟨0x06000004⟩).map (fun callable =>
      decide (callable.SameEffect sampleDeskCall)) = .ok true ∧
    (sampleCounter.callable ⟨0x06000006⟩).map (fun callable =>
      decide (callable.SameEffect sampleDeskAsk)) = .ok true ∧
    ((Lowering.mk sampleBoothLinkage "Main").lower sampleDeskCode).result.map
      (fun body => body.nodes.map Node.inputs) = .ok [[], [0], []] ∧
    ((Lowering.mk sampleKioskLinkage "Main").lower sampleDeskCode).result.map
      (fun body => body.nodes.map Node.inputs) = .ok [[], [], [0]] := by
  decide +kernel

end CilGraph
