import CilGraph.Proofs.Linkage
import CilGraph.Proofs.Lowering.Step
import Mathlib.Algebra.Group.Nat.Defs

namespace CilGraph

/-!
# What nodes refer to

Three kinds of node carry a name or a literal beside their inputs.  A call shows
the mangled name of its callable as its text, and so do the nodes that name a
callable without calling it.  A node that makes an object holds the place of the
constructor's name in the pool of the body.  A node that loads a literal shows
it and also holds its place in the pool.

Every name that a node shows comes from a discovery of the same body: a known
callable with that mangled name, or an external symbol bound to it.  Nothing is
said here about what becomes of a discovery.

Places in the pool are stored as machine words.  A body adds at most one literal
for each of its bytes, so a body shorter than a machine word can count has no
place that is cut off.
-/

/-- What a node has beside its inputs. -/
inductive ReferenceRule where
  | nothing
  /-- The text is the name of a callable. -/
  | callable
  /-- The second constant is the place of the name of a constructor. -/
  | constructor
  /-- The only constant is the place of the literal that is also the text. -/
  | literal
deriving DecidableEq, Repr

/-- What the nodes of an operation have beside their inputs. -/
def Operation.referenceRule : Operation -> ReferenceRule
  | .call | .callVirtual | .callVirtualConstrained | .loadFunction | .jump => .callable
  | .newObject => .constructor
  | .loadString => .literal
  | _ => .nothing

/-- A node refers to a called name, to a constructed name or to a literal, as
its operation asks for. -/
def Node.Refers (strings : List String) (called constructed : String -> Prop) (node : Node) :
    Prop :=
  match node.operation.referenceRule with
  | .nothing => True
  | .callable => exists name, node.text = some name ∧ called name
  | .constructor => exists (index : UInt64) (name : String), node.constants[1]? = some index ∧
      strings[index.toNat]? = some name ∧ constructed name
  | .literal => exists (index : UInt64) (literal : String), node.constants = [index] ∧
      strings[index.toNat]? = some literal ∧ node.text = Node.textOf literal

theorem Node.Refers.imp {strings : List String} {called constructed : String -> Prop}
    {called' constructed' : String -> Prop} {node : Node}
    (refers : node.Refers strings called constructed)
    (moreCalled : forall name, called name -> called' name)
    (moreConstructed : forall name, constructed name -> constructed' name) :
    node.Refers strings called' constructed' := by
  unfold Refers at refers ⊢
  cases rule : node.operation.referenceRule with
  | nothing => trivial
  | callable =>
      simp only [rule] at refers
      rcases refers with ⟨name, shown, isCalled⟩
      exact ⟨name, shown, moreCalled name isCalled⟩
  | constructor =>
      simp only [rule] at refers
      rcases refers with ⟨index, name, second, found, isConstructed⟩
      exact ⟨index, name, second, found, moreConstructed name isConstructed⟩
  | literal =>
      simp only [rule] at refers
      exact refers

/-- A node keeps referring when the pool grows. -/
theorem Node.Refers.append {strings : List String} {called constructed : String -> Prop}
    {node : Node} (refers : node.Refers strings called constructed) (more : List String) :
    node.Refers (strings ++ more) called constructed := by
  have kept : forall {index : Nat} {text : String}, strings[index]? = some text ->
      (strings ++ more)[index]? = some text := by
    intro index text found
    rw [List.getElem?_append_left (List.getElem?_eq_some_iff.mp found).1]
    exact found
  unfold Refers at refers ⊢
  cases rule : node.operation.referenceRule with
  | nothing => trivial
  | callable =>
      simp only [rule] at refers
      exact refers
  | constructor =>
      simp only [rule] at refers
      rcases refers with ⟨index, name, second, found, isConstructed⟩
      exact ⟨index, name, second, kept found, isConstructed⟩
  | literal =>
      simp only [rule] at refers
      rcases refers with ⟨index, literal, single, found, shown⟩
      exact ⟨index, literal, single, kept found, shown⟩

namespace Discovery

/-- A discovery stands for a name that is called. -/
def Calls (program : Program) (name : String) : Discovery -> Prop
  | .callable target => program.Known target ∧ program.mangle target = .ok name
  | .type _ => False
  | .native bound _ => bound = name

/-- A discovery stands for the name of a constructor. -/
def Constructs (program : Program) (name : String) : Discovery -> Prop
  | .callable target => program.Known target ∧ target.isConstructor = true ∧
      program.mangle target = .ok name
  | _ => False

/-- A discovered callable is known and has a name. -/
def Known (program : Program) : Discovery -> Prop
  | .callable target => program.Known target ∧ exists name, program.mangle target = .ok name
  | _ => True

end Discovery

namespace Effect

/-- An effect agrees with the operation of its node about what the node has
beside its inputs. -/
def isExplicit (effect : Effect) : Bool :=
  match effect.common?, effect with
  | some rule, _ => rule.operation.referenceRule == .nothing
  | none, .reference operation _ => operation.referenceRule == .callable
  | none, _ => true

/-- The common rule discovers types only. -/
theorem exists_type_of_mem_discoveries {program : Program} {cursor : Cursor} {effect : Effect}
    {discoveries : List Discovery}
    (discovered : effect.discoveries program cursor = .ok discoveries) {discovery : Discovery}
    (member : discovery ∈ discoveries) : exists token, discovery = .type token := by
  cases effect with
  | loadToken =>
      rcases Result.bind_eq_ok.mp discovered with ⟨operand, _, chosen⟩
      cases chosen
      split at member
      · exact ⟨_, List.mem_singleton.mp member⟩
      · cases member
  | typed operation pops produces =>
      rcases Result.bind_eq_ok.mp discovered with ⟨operand, _, chosen⟩
      cases chosen
      exact ⟨_, List.mem_singleton.mp member⟩
  | element operation pops produces =>
      rcases Result.bind_eq_ok.mp discovered with ⟨operand, _, chosen⟩
      cases chosen
      exact ⟨_, List.mem_singleton.mp member⟩
  | field operation pops produces =>
      rcases Result.bind_eq_ok.mp discovered with ⟨operand, _, looked⟩
      rcases Result.bind_eq_ok.mp looked with ⟨field, _, chosen⟩
      cases chosen
      exact ⟨_, List.mem_singleton.mp member⟩
  | _ =>
      cases discovered
      cases member

end Effect

theorem Opcode.isExplicit_of_mem_table {opcode : Opcode} (member : opcode ∈ Opcode.table)
    {effect : Effect} (hasEffect : opcode.effect = some effect) : effect.isExplicit = true :=
  Opcode.check_of_mem_table (fun _ => Effect.isExplicit) (by decide +kernel) member hasEffect

namespace Lowering

/-- A node refers to names that discoveries stand for. -/
def RefersBy (program : Program) (strings : List String) (discoveries : List Discovery)
    (node : Node) : Prop :=
  node.Refers strings
    (fun name => exists discovery, discovery ∈ discoveries ∧ discovery.Calls program name)
    (fun name => exists discovery, discovery ∈ discoveries ∧ discovery.Constructs program name)

theorem RefersBy.mono {program : Program} {strings : List String}
    {discoveries others : List Discovery} {node : Node}
    (refers : RefersBy program strings discoveries node)
    (included : forall discovery, discovery ∈ discoveries -> discovery ∈ others) :
    RefersBy program strings others node := by
  refine Node.Refers.imp refers ?_ ?_
  · rintro name ⟨discovery, member, calls⟩
    exact ⟨discovery, included discovery member, calls⟩
  · rintro name ⟨discovery, member, constructs⟩
    exact ⟨discovery, included discovery member, constructs⟩

section Steps

variable {lowering : Lowering} {cursor : Cursor} {frame next : Frame}
  {discoveries : List Discovery}

theorem Referred.calls {declared target : Callable} {name : String} {discovery : Discovery}
    (known : lowering.linkage.program.Known declared)
    (referred : Referred lowering declared target name discovery) :
    discovery.Calls lowering.linkage.program name ∧ Node.textOf name = some name := by
  have targetKnown := (Linkage.known_of_resolveCallable known referred.resolves).1
  constructor
  · rcases referred.reported with ⟨symbol, _, same⟩ | ⟨_, same⟩
    · rw [same]
      rfl
    · rw [same]
      exact ⟨targetKnown, referred.mangles⟩
  · unfold Node.textOf
    rw [Program.mangle_ne_empty referred.mangles]
    rfl

/-- A constructor is never bound to an external symbol, so it is discovered as
a callable. -/
theorem Referred.constructs {declared target : Callable} {name : String} {discovery : Discovery}
    (known : lowering.linkage.program.Known declared)
    (isConstructor : declared.isConstructor = true)
    (referred : Referred lowering declared target name discovery) :
    discovery.Constructs lowering.linkage.program name := by
  rcases Linkage.known_of_resolveCallable known referred.resolves with ⟨targetKnown, sameKind⟩
  rw [isConstructor] at sameKind
  rcases referred.reported with ⟨symbol, bound, _⟩ | ⟨_, same⟩
  · cases Linkage.nativeSymbol?_of_isConstructor targetKnown sameKind bound
  · rw [same]
    exact ⟨targetKnown, sameKind, referred.mangles⟩

theorem Referred.known {declared target : Callable} {name : String} {discovery : Discovery}
    (known : lowering.linkage.program.Known declared)
    (referred : Referred lowering declared target name discovery) :
    discovery.Known lowering.linkage.program := by
  rcases referred.reported with ⟨symbol, _, same⟩ | ⟨_, same⟩
  · rw [same]
    trivial
  · rw [same]
    exact ⟨(Linkage.known_of_resolveCallable known referred.resolves).1, name, referred.mangles⟩

/-- A discovery is a type, or it is what a known callable stands for. -/
def Reports (lowering : Lowering) (discovery : Discovery) : Prop :=
  (exists token, discovery = .type token) ∨ exists declared target name,
    lowering.linkage.program.Known declared ∧ Referred lowering declared target name discovery

theorem Reports.known {discovery : Discovery} (reports : Reports lowering discovery) :
    discovery.Known lowering.linkage.program := by
  rcases reports with ⟨token, isType⟩ | ⟨declared, target, name, known, referred⟩
  · rw [isType]
    trivial
  · exact referred.known known

theorem Performs.reports {effect : Effect}
    (performs : Performs lowering cursor frame effect discoveries next) {discovery : Discovery}
    (member : discovery ∈ discoveries) : Reports lowering discovery := by
  cases performs with
  | common isCommon constant discovered applied =>
      exact Or.inl (Effect.exists_type_of_mem_discoveries discovered member)
  | newArray reads named popped => exact Or.inl ⟨_, List.mem_singleton.mp member⟩
  | call called =>
      rcases called.refers with ⟨declared, found, referred⟩
      rw [List.mem_singleton.mp member]
      exact Or.inr ⟨_, _, _, Program.known_of_callable found, referred⟩
  | callVirtual called =>
      rcases called.refers with ⟨declared, found, referred⟩
      rw [List.mem_singleton.mp member]
      exact Or.inr ⟨_, _, _, Program.known_of_callable found, referred⟩
  | newObject reads found isConstructor named refers popped =>
      rw [List.mem_singleton.mp member]
      exact Or.inr ⟨_, _, _, Program.known_of_callable found, refers⟩
  | reference reads found refers =>
      rw [List.mem_singleton.mp member]
      exact Or.inr ⟨_, _, _, Program.known_of_callable found, refers⟩
  | loadString | duplicate | retNothing | retValue | constrained => cases member

/-- Of a step only this matters here: the pool grows by one literal at most, and
a new node refers to what the step has discovered. -/
structure Extends (program : Program) (discoveries : List Discovery) (frame next : Frame) :
    Prop where
  pool : exists more, next.strings = frame.strings ++ more ∧ more.length ≤ 1
  nodes : forall node, node ∈ next.nodes ->
    node ∈ frame.nodes ∨ RefersBy program next.strings discoveries node

theorem extends_emit {program : Program} {base : Frame} {more : List String} {offset : Nat}
    {operation : Operation} {produces : Bool} {inputs : List UInt32} {constants : List UInt64}
    {text : Option String} (sameNodes : base.nodes = frame.nodes)
    (pool : base.strings = frame.strings ++ more) (single : more.length ≤ 1)
    (refers : forall id, RefersBy program (frame.strings ++ more) discoveries
      ⟨id, UInt32.ofNat offset, operation, inputs, constants, text⟩) :
    Extends program discoveries frame
      (base.emit offset operation produces inputs constants text) := by
  refine ⟨⟨more, pool, single⟩, ?_⟩
  intro node member
  rcases List.mem_append.mp member with earlier | added
  · rw [sameNodes] at earlier
    exact Or.inl earlier
  · rw [List.mem_singleton.mp added]
    refine Or.inr ?_
    change RefersBy program base.strings discoveries _
    rw [pool]
    exact refers _

theorem refersBy_of_nothing {program : Program} {strings : List String} {node : Node}
    (rule : node.operation.referenceRule = .nothing) :
    RefersBy program strings discoveries node := by
  unfold RefersBy Node.Refers
  rw [rule]
  trivial

theorem refersBy_of_callable {program : Program} {strings : List String} {node : Node}
    {discovery : Discovery} {name : String} (rule : node.operation.referenceRule = .callable)
    (shown : node.text = some name) (calls : discovery.Calls program name) :
    RefersBy program strings [discovery] node := by
  unfold RefersBy Node.Refers
  rw [rule]
  exact ⟨name, shown, discovery, List.mem_singleton_self discovery, calls⟩

/-- The last literal of a pool is found at its place, unless the place is cut off. -/
theorem getElem?_pool {strings : List String} (text : String)
    (countable : strings.length < 2 ^ 64) :
    (strings ++ [text])[(UInt64.ofNat strings.length).toNat]? = some text := by
  rw [UInt64.toNat_ofNat_of_lt' countable, List.getElem?_concat_length]

theorem callForm_callable (isVirtual : Bool) (operand : UInt64) (constraint : Option Constraint) :
    (callForm isVirtual operand constraint).1.referenceRule = .callable := by
  cases constraint with
  | none => cases isVirtual <;> rfl
  | some constraint => cases isVirtual <;> rfl

theorem extends_call {isVirtual : Bool} {discovery : Discovery} {operand : UInt64}
    {target : Callable} {name : String} {inputs : List UInt32} {stack : OperandStack}
    (called : Called lowering cursor frame discovery operand target name inputs stack) :
    Extends lowering.linkage.program [discovery] frame
      (afterCall cursor isVirtual frame operand target name inputs stack) := by
  rcases called.refers with ⟨declared, found, referred⟩
  rcases referred.calls (Program.known_of_callable found) with ⟨calls, shown⟩
  refine extends_emit rfl (List.append_nil _).symm (Nat.zero_le 1) ?_
  intro id
  exact refersBy_of_callable (callForm_callable isVirtual operand frame.constraint) shown calls

theorem Performs.extends {effect : Effect} (explicit : effect.isExplicit = true)
    (countable : frame.strings.length < 2 ^ 64)
    (performs : Performs lowering cursor frame effect discoveries next) :
    Extends lowering.linkage.program discoveries frame next := by
  cases performs with
  | common isCommon constant discovered applied =>
      rename_i rule constants
      rcases applied with ⟨inputs, stack, popped, same⟩
      unfold Effect.isExplicit at explicit
      rw [isCommon] at explicit
      rw [same]
      have noLiteral : ([] : List String).length ≤ 1 := Nat.zero_le 1
      refine extends_emit ?_ ?_ noLiteral (fun id => refersBy_of_nothing (eq_of_beq explicit))
      · cases effect.clears <;> rfl
      · cases effect.clears <;> exact (List.append_nil _).symm
  | loadString reads found =>
      rename_i operand literal
      refine extends_emit rfl rfl (Nat.le_refl 1) ?_
      intro id
      exact ⟨_, literal, rfl, getElem?_pool literal countable, rfl⟩
  | duplicate top =>
      refine ⟨⟨[], (List.append_nil _).symm, Nat.zero_le 1⟩, ?_⟩
      intro node member
      rcases List.mem_append.mp member with earlier | added
      · exact Or.inl earlier
      · rw [List.mem_singleton.mp added]
        exact Or.inr (refersBy_of_nothing rfl)
  | retNothing empty =>
      exact extends_emit rfl (List.append_nil _).symm (Nat.zero_le 1)
        (fun id => refersBy_of_nothing rfl)
  | retValue top =>
      exact extends_emit rfl (List.append_nil _).symm (Nat.zero_le 1)
        (fun id => refersBy_of_nothing rfl)
  | newArray reads named popped =>
      exact extends_emit rfl (List.append_nil _).symm (Nat.zero_le 1)
        (fun id => refersBy_of_nothing rfl)
  | call called => exact extends_call called
  | callVirtual called => exact extends_call called
  | newObject reads found isConstructor named refers popped =>
      rename_i operand declared constructor typeName name inputs stack
      refine extends_emit rfl rfl (Nat.le_refl 1) ?_
      intro id
      exact ⟨_, name, rfl, getElem?_pool name countable, _, List.mem_singleton_self _,
        refers.constructs (Program.known_of_callable found) isConstructor⟩
  | reference reads found refers =>
      rcases refers.calls (Program.known_of_callable found) with ⟨calls, shown⟩
      exact extends_emit rfl (List.append_nil _).symm (Nat.zero_le 1)
        (fun id => refersBy_of_callable (eq_of_beq explicit) shown calls)
  | constrained reads =>
      exact ⟨⟨[], (List.append_nil _).symm, Nat.zero_le 1⟩, fun node member => Or.inl member⟩

end Steps

/-- All nodes so far refer to what has been discovered so far. -/
def Referring (program : Program) (discoveries : List Discovery) (frame : Frame) : Prop :=
  forall node, node ∈ frame.nodes -> RefersBy program frame.strings discoveries node

theorem Referring.extends {program : Program} {before during : List Discovery}
    {frame next : Frame} (referring : Referring program before frame)
    (extension : Extends program during frame next) :
    Referring program (before ++ during) next := by
  rcases extension.pool with ⟨more, pool, _⟩
  intro node member
  rcases extension.nodes node member with earlier | added
  · rw [pool]
    have refers : RefersBy program (frame.strings ++ more) before node :=
      (referring node earlier).append more
    exact refers.mono (fun discovery among => List.mem_append_left during among)
  · exact added.mono (fun discovery among => List.mem_append_right before among)

/-- The bound counts the pool and the bytes that are left together: a step adds
one literal at most and takes one byte at least. -/
theorem Referring.runs {lowering : Lowering} {cursor : Cursor} {frame final : Frame}
    {before discoveries : List Discovery} (runs : Runs lowering cursor frame discoveries final)
    (countable : frame.strings.length + cursor.rest.length < 2 ^ 64)
    (referring : Referring lowering.linkage.program before frame) :
    Referring lowering.linkage.program (before ++ discoveries) final := by
  induction runs generalizing before with
  | done exhausted =>
      rw [List.append_nil]
      exact referring
  | step decodes hasEffect unconstrained performs advances continues inductionHypothesis =>
      have explicit := Opcode.isExplicit_of_mem_table (mem_table_of_opcode decodes) hasEffect
      have shorter := Cursor.length_rest_advance advances
      have extension := performs.extends explicit (by omega)
      rcases extension.pool with ⟨more, pool, single⟩
      have longer := congrArg List.length pool
      rw [List.length_append] at longer
      rw [← List.append_assoc]
      exact inductionHypothesis (by omega) (referring.extends extension)

theorem Runs.reports {lowering : Lowering} {cursor : Cursor} {frame final : Frame}
    {discoveries : List Discovery} (runs : Runs lowering cursor frame discoveries final)
    {discovery : Discovery} (member : discovery ∈ discoveries) : Reports lowering discovery := by
  induction runs with
  | done exhausted => cases member
  | step decodes hasEffect unconstrained performs advances continues inductionHypothesis =>
      rcases List.mem_append.mp member with now | later
      · exact performs.reports now
      · exact inductionHypothesis later

theorem reports_of_lower {lowering : Lowering} {code : List UInt8} {body : LoweredBody}
    (lowered : (lowering.lower code).result = .ok body) {discovery : Discovery}
    (member : discovery ∈ (lowering.lower code).discoveries) : Reports lowering discovery := by
  rcases lower_yields (Attempt.yields_of_result lowered) with ⟨final, runs, _⟩
  exact runs.reports member

/-- Every callable that a lowered body has discovered is known and has a name. -/
theorem known_of_lower {lowering : Lowering} {code : List UInt8} {body : LoweredBody}
    (lowered : (lowering.lower code).result = .ok body) {discovery : Discovery}
    (member : discovery ∈ (lowering.lower code).discoveries) :
    discovery.Known lowering.linkage.program :=
  (reports_of_lower lowered member).known

/-- Every node of a lowered body refers to what the body has discovered. -/
theorem refersBy_of_lower {lowering : Lowering} {code : List UInt8} {body : LoweredBody}
    (countable : code.length < 2 ^ 64) (lowered : (lowering.lower code).result = .ok body)
    {node : Node} (member : node ∈ body.nodes) :
    RefersBy lowering.linkage.program body.strings (lowering.lower code).discoveries node := by
  rcases lower_yields (Attempt.yields_of_result lowered) with ⟨final, runs, _, same⟩
  have start : Referring lowering.linkage.program [] Frame.start :=
    fun node among => absurd among List.not_mem_nil
  have bound : Frame.start.strings.length + (Cursor.start code).rest.length < 2 ^ 64 := by
    change 0 + code.length < 2 ^ 64
    omega
  have referring := start.runs runs bound
  rw [same] at member ⊢
  exact referring node member

end Lowering
end CilGraph
