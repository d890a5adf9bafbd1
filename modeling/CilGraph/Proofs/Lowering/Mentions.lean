import CilGraph.Proofs.Lowering.Coverage
import CilGraph.Proofs.Lowering.References

namespace CilGraph

/-!
# What a body mentions

A body reports callables, external symbols and types while it is lowered.  Here
it is said in terms of the code alone which these are.  An instruction names a
callable if it is one of five, and it asks for a type if its operand is a type,
a field of the type, or a handle of the type.  A `constrained.` has a type as its
operand and does not ask for it.

Every report of a body goes back to an instruction that the body contains.  For
a callable this is what the named callable stands for, or the external symbol
that implements it.  The instruction table decides which effect an instruction
has, and `Opcode.isPlain_of_mem_table` checks that the effects which report
something belong to the instructions said here.
-/

/-! ## Instructions -/

/-- The instructions that call, construct or name a callable. -/
def Opcode.callMnemonics : List String :=
  ["call", "callvirt", "newobj", "ldftn", "jmp"]

namespace Cursor

/-- The instruction at a cursor calls, constructs or names a callable. -/
def Names (cursor : Cursor) (program : Program) (callable : Callable) : Prop :=
  exists opcode operand, cursor.opcode = .ok opcode ∧ opcode.mnemonic ∈ Opcode.callMnemonics ∧
    cursor.operandValue 0 = .ok operand ∧
    program.callable (Lowering.tokenOf operand) = .ok callable

/-- The instruction at a cursor asks for a type. -/
inductive Requests (cursor : Cursor) (program : Program) : Token -> Prop
  | operand {opcode : Opcode} {operand : UInt64} (decodes : cursor.opcode = .ok opcode)
      (isType : opcode.operand = .type) (unconstrained : opcode.mnemonic ≠ "constrained.")
      (reads : cursor.operandValue 0 = .ok operand) :
      Requests cursor program (Lowering.tokenOf operand)
  | field {opcode : Opcode} {operand : UInt64} {field : FieldDef}
      (decodes : cursor.opcode = .ok opcode) (isField : opcode.operand = .field)
      (reads : cursor.operandValue 0 = .ok operand)
      (found : program.field (Lowering.tokenOf operand) = .ok field) :
      Requests cursor program field.declaring
  | handle {opcode : Opcode} {operand : UInt64} (decodes : cursor.opcode = .ok opcode)
      (isHandle : opcode.mnemonic = "ldtoken") (reads : cursor.operandValue 0 = .ok operand)
      (isType : (Lowering.tokenOf operand).kind? = some .typeDef) :
      Requests cursor program (Lowering.tokenOf operand)

end Cursor

namespace Body

/-- A body contains an instruction that calls, constructs or names a callable. -/
def Names (body : Body) (program : Program) (callable : Callable) : Prop :=
  exists visits cursor, Lowering.Walks (Cursor.start body.code) visits cursor ∧
    cursor.Names program callable

/-- A body contains an instruction that asks for a type. -/
def Requests (body : Body) (program : Program) (token : Token) : Prop :=
  exists visits cursor, Lowering.Walks (Cursor.start body.code) visits cursor ∧
    cursor.Requests program token

end Body

namespace Opcode

/-- What an instruction reports can be told from its name and its operand. -/
def isPlain (opcode : Opcode) : Bool :=
  match opcode.effect with
  | some .call | some .callVirtual | some .newObject | some (.reference _ _) =>
    callMnemonics.contains opcode.mnemonic
  | some (.typed _ _ _) | some (.element _ _ _) | some .newArray =>
    opcode.operand == .type && opcode.mnemonic != "constrained."
  | some (.field _ _ _) => opcode.operand == .field
  | some .loadToken => opcode.mnemonic == "ldtoken"
  | _ => true

theorem isPlain_of_mem_table {opcode : Opcode} (member : opcode ∈ Opcode.table) :
    opcode.isPlain = true := by
  have plain : Opcode.table.all isPlain = true := by decide +kernel
  exact List.all_eq_true.mp plain opcode member

end Opcode

namespace Lowering

/-! ## Reports -/

/-- A discovery is a type that the instruction at a cursor asks for, or what a
callable stands for that it names. -/
def Traces (lowering : Lowering) (cursor : Cursor) (discovery : Discovery) : Prop :=
  (exists token, discovery = .type token ∧ cursor.Requests lowering.linkage.program token) ∨
    exists declared resolved name, cursor.Names lowering.linkage.program declared ∧
      Referred lowering declared resolved name discovery

section Steps

variable {lowering : Lowering} {cursor : Cursor} {frame next final : Frame}
  {discoveries : List Discovery} {opcode : Opcode}

theorem requests_of_operand {program : Program} {operand : UInt64}
    (decodes : cursor.opcode = .ok opcode)
    (plain : (opcode.operand == .type && opcode.mnemonic != "constrained.") = true)
    (reads : cursor.operandValue 0 = .ok operand) :
    cursor.Requests program (tokenOf operand) := by
  rcases Bool.and_eq_true_iff.mp plain with ⟨isType, unconstrained⟩
  exact .operand decodes (eq_of_beq isType) (bne_iff_ne.mp unconstrained) reads

theorem traces_of_referred {operand : UInt64} {declared resolved : Callable} {name : String}
    {discovery : Discovery} (decodes : cursor.opcode = .ok opcode)
    (plain : Opcode.callMnemonics.contains opcode.mnemonic = true)
    (reads : cursor.operandValue 0 = .ok operand)
    (found : lowering.linkage.program.callable (tokenOf operand) = .ok declared)
    (referred : Referred lowering declared resolved name discovery) :
    Traces lowering cursor discovery := by
  have names : cursor.Names lowering.linkage.program declared :=
    ⟨opcode, operand, decodes, List.contains_iff_mem.mp plain, reads, found⟩
  exact Or.inr ⟨declared, resolved, name, names, referred⟩

/-- The common rule reports what the operand of its instruction stands for. -/
theorem requests_of_discoveries {effect : Effect} (decodes : cursor.opcode = .ok opcode)
    (hasEffect : opcode.effect = some effect)
    (discovered : effect.discoveries lowering.linkage.program cursor = .ok discoveries)
    {discovery : Discovery} (member : discovery ∈ discoveries) :
    exists token, discovery = .type token ∧ cursor.Requests lowering.linkage.program token := by
  have plain := Opcode.isPlain_of_mem_table (mem_table_of_opcode decodes)
  unfold Opcode.isPlain at plain
  rw [hasEffect] at plain
  cases effect with
  | loadToken =>
      rcases Result.bind_eq_ok.mp discovered with ⟨operand, reads, chosen⟩
      cases chosen
      split at member
      · rename_i isType
        exact ⟨_, List.mem_singleton.mp member, .handle decodes (eq_of_beq plain) reads isType⟩
      · cases member
  | typed operation pops produces =>
      rcases Result.bind_eq_ok.mp discovered with ⟨operand, reads, chosen⟩
      cases chosen
      exact ⟨_, List.mem_singleton.mp member, requests_of_operand decodes plain reads⟩
  | element operation pops produces =>
      rcases Result.bind_eq_ok.mp discovered with ⟨operand, reads, chosen⟩
      cases chosen
      exact ⟨_, List.mem_singleton.mp member, requests_of_operand decodes plain reads⟩
  | field operation pops produces =>
      rcases Result.bind_eq_ok.mp discovered with ⟨operand, reads, looked⟩
      rcases Result.bind_eq_ok.mp looked with ⟨field, found, chosen⟩
      cases chosen
      exact ⟨_, List.mem_singleton.mp member, .field decodes (eq_of_beq plain) reads found⟩
  | _ =>
      cases discovered
      cases member

theorem Performs.traces {effect : Effect} (decodes : cursor.opcode = .ok opcode)
    (hasEffect : opcode.effect = some effect)
    (performs : Performs lowering cursor frame effect discoveries next) {discovery : Discovery}
    (member : discovery ∈ discoveries) : Traces lowering cursor discovery := by
  have plain := Opcode.isPlain_of_mem_table (mem_table_of_opcode decodes)
  unfold Opcode.isPlain at plain
  rw [hasEffect] at plain
  cases performs with
  | common isCommon constant discovered applied =>
      exact Or.inl (requests_of_discoveries decodes hasEffect discovered member)
  | newArray reads named popped =>
      exact Or.inl ⟨_, List.mem_singleton.mp member, requests_of_operand decodes plain reads⟩
  | call called =>
      rcases called.refers with ⟨declared, found, referred⟩
      rw [List.mem_singleton.mp member]
      exact traces_of_referred decodes plain called.reads found referred
  | callVirtual called =>
      rcases called.refers with ⟨declared, found, referred⟩
      rw [List.mem_singleton.mp member]
      exact traces_of_referred decodes plain called.reads found referred
  | newObject reads found isConstructor named refers popped =>
      rw [List.mem_singleton.mp member]
      exact traces_of_referred decodes plain reads found refers
  | reference reads found refers =>
      rw [List.mem_singleton.mp member]
      exact traces_of_referred decodes plain reads found refers
  | loadString | duplicate | retNothing | retValue | constrained => cases member

theorem Runs.traces (runs : Runs lowering cursor frame discoveries final)
    {discovery : Discovery} (member : discovery ∈ discoveries) :
    exists visits place, Walks cursor visits place ∧ Traces lowering place discovery := by
  induction runs with
  | done exhausted => cases member
  | @step cursor following frame next final opcode effect before after decodes hasEffect
      unconstrained performs advances continues inductionHypothesis =>
      rcases List.mem_append.mp member with now | later
      · exact ⟨[], cursor, .done cursor, performs.traces decodes hasEffect now⟩
      · rcases inductionHypothesis later with ⟨visits, place, walks, traces⟩
        exact ⟨_, place, .step decodes advances walks, traces⟩

end Steps

/-- Everything that a lowered body reports goes back to an instruction in it. -/
theorem mentions_of_lower {lowering : Lowering} {body : Body} {lowered : LoweredBody}
    (succeeds : (lowering.lower body.code).result = .ok lowered) {discovery : Discovery}
    (member : discovery ∈ (lowering.lower body.code).discoveries) :
    (exists token, discovery = .type token ∧ body.Requests lowering.linkage.program token) ∨
      exists declared resolved name, body.Names lowering.linkage.program declared ∧
        Referred lowering declared resolved name discovery := by
  rcases lower_yields (Attempt.yields_of_result succeeds) with ⟨final, runs, _⟩
  rcases runs.traces member with
    ⟨visits, cursor, walks, ⟨token, isType, requests⟩ | ⟨declared, resolved, name, names, referred⟩⟩
  · exact Or.inl ⟨token, isType, visits, cursor, walks, requests⟩
  · exact Or.inr ⟨declared, resolved, name, ⟨visits, cursor, walks, names⟩, referred⟩

end Lowering
end CilGraph
