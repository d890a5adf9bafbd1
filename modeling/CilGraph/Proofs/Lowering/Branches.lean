import CilGraph.Proofs.Lowering.Turns
import Mathlib.Algebra.Ring.Int.Defs

namespace CilGraph

/-!
# Branch targets

A branch is encoded as a displacement: a two's-complement number of one or four
bytes that counts from the first byte after the instruction.  A branch table has
entries of four bytes that count from the first byte after the whole table.  A node
has the place itself, as a signed machine word.

The operands come without regard to a sign, so each one is extended from its own
width and added to a base.  Both are exact numbers here: the base lies within the
code, the displacement has at most 32 bits, and their sum is far from the ends of a
machine word.  Nothing is assumed of where a target lies, which may be before the
code or behind it.
-/

/-- An operand as a two's-complement number of its own width. -/
def signedOperand (width : Nat) (operand : UInt64) : Int :=
  (BitVec.ofNat (8 * width) operand.toNat).toInt

/-- The place right after an instruction. -/
def Sighting.following (sighting : Sighting) : Nat :=
  sighting.offset + sighting.size

/-! ## Displacements -/

/-- The widths that an operand is extended from. -/
def IsNarrow (width : Nat) : Prop :=
  width = 1 ∨ width = 2 ∨ width = 4

/-- Extending an operand by its sign keeps its value. -/
theorem toInt_signExtend {width : Nat} (isNarrow : IsNarrow width) (operand : UInt64) :
    (signExtend operand width).toInt = signedOperand width operand := by
  rcases isNarrow with isByte | isShort | isWord
  · subst isByte
    exact Int8.toInt_toInt64 _
  · subst isShort
    exact Int16.toInt_toInt64 _
  · subst isWord
    exact Int32.toInt_toInt64 _

theorem signedOperand_bounds {width : Nat} (isNarrow : IsNarrow width) (operand : UInt64) :
    -2 ^ 31 ≤ signedOperand width operand ∧ signedOperand width operand < 2 ^ 31 := by
  have least := BitVec.le_toInt (BitVec.ofNat (8 * width) operand.toNat)
  have greatest := BitVec.toInt_lt (x := BitVec.ofNat (8 * width) operand.toNat)
  rcases isNarrow with isByte | isShort | isWord <;> subst width <;>
    simp only [signedOperand] <;> omega

theorem toInt_ofNat_of_small {base : Nat} (small : base < 2 ^ 62) :
    (UInt64.ofNat base).toInt64.toInt = base := by
  have inWord : base < 2 ^ 63 := by omega
  simp [UInt64.toInt64_ofNat', Int64.toInt_ofNat_of_lt inWord]

/-- The sum of an extended operand and a base within the code is exact. -/
theorem toInt_add_of_small {base width : Nat} {operand : UInt64} (isNarrow : IsNarrow width)
    (small : base < 2 ^ 62) :
    (signExtend operand width + (UInt64.ofNat base).toInt64).toInt =
      base + signedOperand width operand := by
  rcases signedOperand_bounds isNarrow operand with ⟨least, greatest⟩
  rw [Int64.toInt_add, toInt_signExtend isNarrow, toInt_ofNat_of_small small,
    Int.bmod_eq_of_le (by omega) (by omega), Int.add_comm]

namespace Lowering

/-- A constant is the place at a displacement from a base, and the sum of the two
is a signed machine word. -/
structure Displaced (base width : Nat) (operand constant : UInt64) : Prop where
  place : constant.toInt64.toInt = base + signedOperand width operand
  least : -2 ^ 63 ≤ base + signedOperand width operand
  greatest : base + signedOperand width operand < 2 ^ 63

theorem displaced_of_small {base width : Nat} (isNarrow : IsNarrow width) (small : base < 2 ^ 62)
    (operand : UInt64) :
    Displaced base width operand
      (signExtend operand width + (UInt64.ofNat base).toInt64).toUInt64 := by
  rcases signedOperand_bounds isNarrow operand with ⟨least, greatest⟩
  refine ⟨?_, by omega, by omega⟩
  rw [Int64.toInt64_toUInt64]
  exact toInt_add_of_small isNarrow small

end Lowering

/-- A displacement that fits into a width is read back from its encoding there. -/
theorem signedOperand_encoded {width : Nat} (isNarrow : IsNarrow width) {displacement : Int}
    (least : -2 ^ (8 * width - 1) ≤ displacement)
    (greatest : displacement < 2 ^ (8 * width - 1)) :
    signedOperand width (UInt64.ofNat (displacement % 2 ^ (8 * width)).toNat) = displacement := by
  have positive : (0 : Int) < 2 ^ (8 * width) := Int.pow_pos (by decide)
  have above := Int.emod_nonneg displacement (Int.ne_of_gt positive)
  have below := Int.emod_lt_of_pos displacement positive
  have inWord : (displacement % 2 ^ (8 * width)).toNat < 2 ^ 64 := by
    rcases isNarrow with isByte | isShort | isWord <;> subst width <;> omega
  have modulus : (2 : Int) ^ (8 * width) = (2 ^ (8 * width) : Nat) := (Int.natCast_pow 2 _).symm
  rw [signedOperand, UInt64.toNat_ofNat_of_lt' inWord, BitVec.toInt_ofNat',
    Int.toNat_of_nonneg above, modulus, Int.emod_bmod]
  rcases isNarrow with isByte | isShort | isWord <;> subst width <;>
    exact Int.bmod_eq_of_le (by omega) (by omega)

/-- A branch whose displacement is encoded in its width leads to the place that was
meant. -/
theorem toInt_branchTarget_encoded {offset opcodeSize width : Nat} {target : Int}
    (isNarrow : IsNarrow width) (small : offset + opcodeSize + width < 2 ^ 62)
    (least : -2 ^ (8 * width - 1) ≤ target - offset - opcodeSize - width)
    (greatest : target - offset - opcodeSize - width < 2 ^ (8 * width - 1)) :
    (branchTarget offset opcodeSize width (UInt64.ofNat
      ((target - offset - opcodeSize - width) % 2 ^ (8 * width)).toNat)).toInt = target := by
  rw [branchTarget, toInt_add_of_small isNarrow small,
    signedOperand_encoded isNarrow least greatest]
  omega

/-! ## Instructions that branch -/

namespace Effect

/-- Whether an effect is a branch with a single target. -/
def isBranch : Effect -> Bool
  | .branch _ _ | .leave => true
  | _ => false

/-- Whether an effect is a branch by a table. -/
def isTable : Effect -> Bool
  | .branchTable => true
  | _ => false

theorem common?_of_isBranch {effect : Effect} (isBranch : effect.isBranch = true) :
    exists rule, effect.common? = some rule := by
  cases effect with
  | branch operation pops => exact ⟨_, rfl⟩
  | leave => exact ⟨_, rfl⟩
  | _ => cases isBranch

theorem eq_branchTable {effect : Effect} (isTable : effect.isTable = true) :
    effect = .branchTable := by
  cases effect with
  | branchTable => rfl
  | _ => cases isTable

theorem constants_of_isBranch {effect : Effect} (isBranch : effect.isBranch = true)
    (cursor : Cursor) : effect.constants cursor = (do
      let opcode ← cursor.opcode
      let width ← cursor.operandSize 0
      let displacement ← cursor.operandValue 0
      .ok [(branchTarget cursor.offset opcode.size width displacement).toUInt64]) := by
  cases effect with
  | branch operation pops => rfl
  | leave => rfl
  | _ => cases isBranch

end Effect

namespace Opcode

/-- The instructions with one branch target, in both forms. -/
def branchMnemonics : List String :=
  ["br", "brfalse", "brtrue", "beq", "bge", "bgt", "ble", "blt", "bne.un", "bge.un", "bgt.un",
    "ble.un", "blt.un", "leave", "br.s", "brfalse.s", "brtrue.s", "beq.s", "bge.s", "bgt.s", "ble.s",
    "blt.s", "bne.un.s", "bge.un.s", "bgt.un.s", "ble.un.s", "blt.un.s", "leave.s"]

def isBranch (opcode : Opcode) : Bool :=
  branchMnemonics.contains opcode.mnemonic

def isSwitch (opcode : Opcode) : Bool :=
  opcode.mnemonic == "switch"

/-- The name of an instruction, the kind of its operand and the operation of its
node agree with its effect about branch targets. -/
def isDirected (opcode : Opcode) (effect : Effect) : Bool :=
  opcode.isBranch == effect.isBranch && opcode.isSwitch == effect.isTable &&
    (!effect.isBranch || opcode.operand.isBranch) &&
    (!effect.isTable || opcode.operand == .branchTable) &&
    [false, true].all (fun constrained => (effect.operation? constrained).all (fun operation =>
      operation.isBranch == effect.isBranch && (operation == .switch) == effect.isTable))

theorem isDirected_of_mem_table {opcode : Opcode} (member : opcode ∈ table) {effect : Effect}
    (hasEffect : opcode.effect = some effect) : opcode.isDirected effect = true :=
  check_of_mem_table isDirected (by decide +kernel) member hasEffect

end Opcode

namespace Lowering

/-- A branch leads to the place at its displacement from the next instruction. -/
structure Leads (length : Nat) (sighting : Sighting) (node : Node) : Prop where
  placed : node.offset.toNat = sighting.offset
  within : sighting.following ≤ length
  target : exists width operand constant, sighting.operands = [(width, operand)] ∧
    node.constants = [constant] ∧ Displaced sighting.following width operand constant

/-- A branch table has as many entries as its first operand says, and leads to the
places at their displacements from the end of the table. -/
structure Spreads (length : Nat) (sighting : Sighting) (node : Node) : Prop where
  placed : node.offset.toNat = sighting.offset
  within : sighting.following ≤ length
  targets : exists count entries, sighting.operands = (4, count) :: entries.map (Prod.mk 4) ∧
    entries.length = count.toNat ∧
    List.Forall₂ (Displaced sighting.following 4) entries node.constants

/-- The targets of a branch table, entry by entry. -/
theorem forall₂_tableTargets {cursor : Cursor} {tableEnd count index : Nat}
    {targets : List UInt64} (computed : tableTargets cursor tableEnd count index = .ok targets) :
    List.Forall₂ (fun place target => exists displacement,
      cursor.operandValue place = .ok displacement ∧
      target = (signExtend displacement 4 + (UInt64.ofNat tableEnd).toInt64).toUInt64)
      (List.range' index count) targets := by
  induction count generalizing index targets with
  | zero =>
      cases computed
      exact .nil
  | succ count inductionHypothesis =>
      rcases Result.bind_eq_ok.mp computed with ⟨displacement, reads, continued⟩
      rcases Result.bind_eq_ok.mp continued with ⟨others, later, assembled⟩
      cases assembled
      exact .cons ⟨displacement, reads, rfl⟩ (inductionHypothesis later)

section Turns

variable {lowering : Lowering} (turn : Turn lowering)

/-- A node is placed where its instruction is, if that fits into its field. -/
theorem Turn.placed {node : Node} (member : node ∈ turn.nodes)
    (short : turn.cursor.codeLength < 2 ^ 32) : node.offset.toNat = turn.sighting.offset := by
  have within := turn.sees.within
  have inWord : turn.sighting.offset < 2 ^ 32 := by omega
  rw [(turn.prescribed member).1, UInt32.toNat_ofNat_of_lt' inWord]

theorem Turn.following_eq : turn.sighting.following =
    turn.cursor.offset + turn.sighting.opcode.size +
      turn.sighting.operandCount * turn.sighting.opcode.operand.size := by
  have sized := Except.ok.inj (turn.sees.answers turn.sees.sized)
  rw [Sighting.following, turn.sees.offset, ← sized, Nat.add_assoc]

/-- The constant of a branch, computed from its operand. -/
theorem Turn.displaced {constants : List UInt64}
    (isBranch : turn.sighting.opcode.operand.isBranch = true)
    (short : turn.cursor.codeLength < 2 ^ 32)
    (computed : (do
      let opcode ← turn.cursor.opcode
      let width ← turn.cursor.operandSize 0
      let displacement ← turn.cursor.operandValue 0
      .ok [(branchTarget turn.cursor.offset opcode.size width displacement).toUInt64]) =
        .ok constants) :
    exists width operand constant, turn.sighting.operands = [(width, operand)] ∧
      constants = [constant] ∧ Displaced turn.sighting.following width operand constant := by
  rcases Result.bind_eq_ok.mp computed with ⟨opcode, decodes, sizing⟩
  rcases Result.bind_eq_ok.mp sizing with ⟨width, sized, reading⟩
  rcases Result.bind_eq_ok.mp reading with ⟨displacement, reads, assembled⟩
  rw [turn.sees.decodes] at decodes
  cases decodes
  cases assembled
  have hasOperand : turn.sighting.opcode.operand ≠ .none := by
    intro isNone
    rw [isNone] at isBranch
    cases isBranch
  have isSingle : turn.sighting.opcode.operand ≠ .branchTable := by
    intro isTable
    rw [isTable] at isBranch
    cases isBranch
  have operands := turn.sees.operands_eq hasOperand isSingle reads
  have counted : 1 = turn.sighting.operandCount := by
    simpa [Sighting.instruction, operands] using turn.sees.length_operands
  have widthIs := turn.sees.answers sized
  rw [if_pos (by omega)] at widthIs
  cases widthIs
  have isNarrow : IsNarrow turn.sighting.opcode.operand.size := by
    cases kind : turn.sighting.opcode.operand with
    | shortBranch => exact Or.inl rfl
    | branch => exact Or.inr (Or.inr rfl)
    | _ =>
        rw [kind] at isBranch
        cases isBranch
  have following := turn.following_eq
  rw [← counted, Nat.one_mul] at following
  have within := turn.sees.within
  have small : turn.sighting.following < 2 ^ 62 := by
    rw [Sighting.following]
    omega
  refine ⟨_, _, _, operands, rfl, ?_⟩
  rw [branchTarget, ← following]
  exact displaced_of_small isNarrow small displacement

/-- The constants of a branch table, computed from its entries. -/
theorem Turn.displacedTable {constants : List UInt64}
    (isTable : turn.sighting.opcode.operand = .branchTable)
    (short : turn.cursor.codeLength < 2 ^ 32)
    (computed : Effect.constants turn.cursor .branchTable = .ok constants) :
    exists count entries, turn.sighting.operands = (4, count) :: entries.map (Prod.mk 4) ∧
      entries.length = count.toNat ∧
      List.Forall₂ (Displaced turn.sighting.following 4) entries constants := by
  rcases Result.bind_eq_ok.mp computed with ⟨count, counted, sizing⟩
  rcases Result.bind_eq_ok.mp sizing with ⟨size, sized, tabled⟩
  cases turn.sees.counted.symm.trans counted
  cases turn.sees.sized.symm.trans sized
  have tableEnd : turn.cursor.offset + turn.sighting.size = turn.sighting.following := by
    rw [Sighting.following, turn.sees.offset]
  have within := turn.sees.within
  have small : turn.sighting.following < 2 ^ 62 := by
    rw [Sighting.following]
    omega
  have admitted := turn.sees.admitted
  rw [isTable] at admitted
  rcases admitted with ⟨values, isValues, short, _⟩
  have length := turn.sees.length_operands
  rw [isValues, List.length_cons] at length
  rw [← length, Nat.add_sub_cancel, tableEnd] at tabled
  have each := turn.sees.forall₂_operands
  rw [← length, List.range_eq_range', List.range'_succ, isTable] at each
  rcases List.forall₂_cons_left_iff.mp each with ⟨⟨width, first⟩, others, ⟨widthIs, _⟩, rest, same⟩
  cases widthIs
  rw [Sighting.instruction, same] at isValues
  rcases List.cons_eq_cons.mp isValues with ⟨isCount, areValues⟩
  have isCount : first = UInt64.ofNat values.length := isCount
  have wide : others = values.map (Prod.mk 4) := by
    rw [← areValues, List.map_map]
    refine (List.map_id' others).symm.trans (List.map_congr_left ?_)
    intro other member
    rcases Result.exists_of_mem_right rest member with ⟨place, _, widthIs, _⟩
    exact Prod.ext widthIs rfl
  refine ⟨first, values, ?_, ?_, ?_⟩
  · rw [same, wide]
  · rw [isCount, UInt64.toNat_ofNat_of_lt' (Nat.lt_trans short (by decide))]
  · rw [wide, List.forall₂_map_right_iff] at rest
    refine forall₂_of_shared ?_ rest (forall₂_tableTargets tabled)
    rintro place entry target ⟨_, isEntry⟩ ⟨displacement, reads, isTarget⟩
    cases isEntry.symm.trans reads
    rw [isTarget]
    exact displaced_of_small (Or.inr (Or.inr rfl)) small entry

/-- What the instruction table says of a turn about branch targets. -/
structure Turn.Directed (turn : Turn lowering) : Prop where
  branches : turn.sighting.opcode.isBranch = turn.effect.isBranch
  switches : turn.sighting.opcode.isSwitch = turn.effect.isTable
  branchKind : turn.effect.isBranch = true -> turn.sighting.opcode.operand.isBranch = true
  tableKind : turn.effect.isTable = true -> turn.sighting.opcode.operand = .branchTable
  nodes : forall node, node ∈ turn.nodes -> node.operation.isBranch = turn.effect.isBranch ∧
    (node.operation == .switch) = turn.effect.isTable

theorem Turn.directed : turn.Directed := by
  have directed := Opcode.isDirected_of_mem_table turn.listed turn.hasEffect
  simp only [Opcode.isDirected, Bool.and_eq_true, beq_iff_eq, Bool.or_eq_true, Bool.not_eq_true',
    List.all_cons, List.all_nil, Bool.and_true] at directed
  rcases directed with ⟨⟨⟨⟨branches, switches⟩, branchKind⟩, tableKind⟩, free, constrained⟩
  refine ⟨branches, switches, fun isBranch => branchKind.resolve_left (by simp [isBranch]),
    fun isTable => tableKind.resolve_left (by simp [isTable]), ?_⟩
  intro node member
  have agrees := turn.before.constraint.isSome.rec (motive := fun pending =>
    (turn.effect.operation? pending).all _ = true) free constrained
  rw [(turn.prescribed member).2] at agrees
  simpa using agrees

/-- If the table tells alike of an instruction and of its nodes, then there is nothing to
pair, or the instruction is paired with its only node. -/
theorem Turn.pairs {related : Sighting -> Node -> Prop} {ofOpcode : Opcode -> Bool}
    {ofNode : Node -> Bool} {kept : Bool} (opcodes : ofOpcode turn.sighting.opcode = kept)
    (nodes : forall node, node ∈ turn.nodes -> ofNode node = kept)
    (paired : kept = true -> exists node, turn.nodes = [node] ∧ related turn.sighting node) :
    List.Forall₂ related ([turn.sighting].filter (fun sighting => ofOpcode sighting.opcode))
      (turn.nodes.filter ofNode) := by
  cases kept with
  | false =>
      have noNode : turn.nodes.filter ofNode = [] :=
        List.filter_eq_nil_iff.mpr (fun node member => by simp [nodes node member])
      rw [noNode, List.filter_singleton, opcodes]
      exact .nil
  | true =>
      rcases paired rfl with ⟨node, only, relates⟩
      have isKept := nodes node (only ▸ List.mem_singleton_self node)
      simpa [only, opcodes, isKept] using relates

/-- At one instruction, a branch is paired with a node that branches. -/
theorem Turn.leads (short : turn.cursor.codeLength < 2 ^ 32) :
    List.Forall₂ (Leads turn.cursor.codeLength)
      ([turn.sighting].filter (fun sighting => sighting.opcode.isBranch))
      (turn.nodes.filter (fun node => node.operation.isBranch)) := by
  have directed := turn.directed
  refine turn.pairs directed.branches (fun node member => (directed.nodes node member).1) ?_
  intro isBranch
  rcases Effect.common?_of_isBranch isBranch with ⟨rule, isCommon⟩
  rcases turn.performs.ordinary isCommon with ⟨node, ordinary⟩
  have only : turn.nodes = [node] := ordinary.added
  have target := turn.displaced (directed.branchKind isBranch) short
    ((Effect.constants_of_isBranch isBranch turn.cursor).symm.trans ordinary.constants)
  have placed := turn.placed (only ▸ List.mem_singleton_self node) short
  exact ⟨node, only, placed, turn.sees.within, target⟩

/-- At one instruction, a branch table is paired with a node that has targets. -/
theorem Turn.spreads (short : turn.cursor.codeLength < 2 ^ 32) :
    List.Forall₂ (Spreads turn.cursor.codeLength)
      ([turn.sighting].filter (fun sighting => sighting.opcode.isSwitch))
      (turn.nodes.filter (fun node => node.operation == .switch)) := by
  have directed := turn.directed
  refine turn.pairs directed.switches (fun node member => (directed.nodes node member).2) ?_
  intro isTable
  have isEffect := Effect.eq_branchTable isTable
  have isCommon : turn.effect.common? = some ⟨.switch, 1, false⟩ := by
    rw [isEffect]
    rfl
  rcases turn.performs.ordinary isCommon with ⟨node, ordinary⟩
  have only : turn.nodes = [node] := ordinary.added
  have targets := turn.displacedTable (directed.tableKind isTable) short
    (isEffect ▸ ordinary.constants)
  have placed := turn.placed (only ▸ List.mem_singleton_self node) short
  exact ⟨node, only, placed, turn.sees.within, targets⟩

end Turns

/-- Branch targets are exact.  The nodes of a lowered body that branch are paired, in
order, with the branch instructions that a walk over its code sees.  Each has one
constant, which is the place at the displacement of its instruction from the next
instruction.  The same holds of branch tables, with one constant for each entry and
the end of the table as base.  In return, a displacement that fits into its width
leads to the place for which it was computed. -/
theorem lower_branches (lowering : Lowering) (code : List UInt8) (short : code.length < 2 ^ 32) :
    (forall body, (lowering.lower code).result = .ok body ->
      (Cursor.start code).walk.2 = .ok ⟨code.length, []⟩ ∧
      List.Forall₂ (Leads code.length)
        ((Cursor.start code).walk.1.filter (fun sighting => sighting.opcode.isBranch))
        (body.nodes.filter (fun node => node.operation.isBranch)) ∧
      List.Forall₂ (Spreads code.length)
        ((Cursor.start code).walk.1.filter (fun sighting => sighting.opcode.isSwitch))
        (body.nodes.filter (fun node => node.operation == .switch))) ∧
    (forall (offset opcodeSize width : Nat) (target : Int), offset < 2 ^ 32 ->
      (opcodeSize = 1 ∨ opcodeSize = 2) -> IsNarrow width ->
      -2 ^ (8 * width - 1) ≤ target - offset - opcodeSize - width ->
      target - offset - opcodeSize - width < 2 ^ (8 * width - 1) ->
      (branchTarget offset opcodeSize width (UInt64.ofNat
        ((target - offset - opcodeSize - width) % 2 ^ (8 * width)).toNat)).toInt = target) := by
  constructor
  · intro body lowered
    rcases accounted_of_lower lowered with ⟨turns, final, accounted⟩
    have length : forall turn, turn ∈ turns -> turn.cursor.codeLength = code.length := by
      intro turn member
      rw [accounted.history.codeLength_eq member]
      exact Nat.zero_add _
    rw [accounted.walk, accounted.nodes, List.map_eq_flatMap]
    simp only [List.filter_flatMap]
    refine ⟨trivial, forall₂_flatMap ?_, forall₂_flatMap ?_⟩
    · intro turn member
      exact length turn member ▸ turn.leads (length turn member ▸ short)
    · intro turn member
      exact length turn member ▸ turn.spreads (length turn member ▸ short)
  · intro offset opcodeSize width target small isSize isNarrow least greatest
    have inWord : offset + opcodeSize + width < 2 ^ 62 := by
      rcases isNarrow with isByte | isShort | isWord <;> omega
    exact toInt_branchTarget_encoded isNarrow inWord least greatest

/-- A branch table with an entry that leads back, and branches in both forms.  The
long one leads to a place before the code. -/
def sampleBranchCode : List UInt8 :=
  [0x16, 0x45, 0x02, 0x00, 0x00, 0x00, 0xFC, 0xFF, 0xFF, 0xFF, 0x01, 0x00, 0x00, 0x00,
    0x2B, 0xF0, 0x38, 0x80, 0xFF, 0xFF, 0xFF, 0xDE, 0x7F, 0x2A]

def sampleBranchBody : LoweredBody where
  nodes := [
    ⟨0, 0, .loadConstant, [], [ValueKind.i4.constant, 0], none⟩,
    ⟨1, 1, .switch, [0], [10, 15], none⟩,
    ⟨2, 14, .branch, [], [0], none⟩,
    ⟨3, 16, .branch, [], [(-107 : Int64).toUInt64], none⟩,
    ⟨4, 21, .leave, [], [150], none⟩,
    ⟨5, 23, .ret, [], [], none⟩]
  strings := []

theorem lower_sampleBranchCode :
    (sampleLowering.lower sampleBranchCode).result = .ok sampleBranchBody := by
  decide +kernel

theorem sampleBranchBody_branches : sampleBranchCode.length < 2 ^ 32 ∧
    (sampleLowering.lower sampleBranchCode).result = .ok sampleBranchBody ∧
    List.Forall₂ (Leads 24)
      ((Cursor.start sampleBranchCode).walk.1.filter (fun sighting => sighting.opcode.isBranch))
      (sampleBranchBody.nodes.filter (fun node => node.operation.isBranch)) ∧
    List.Forall₂ (Spreads 24)
      ((Cursor.start sampleBranchCode).walk.1.filter (fun sighting => sighting.opcode.isSwitch))
      (sampleBranchBody.nodes.filter (fun node => node.operation == .switch)) ∧
    (branchTarget 16 1 4 (UInt64.ofNat (((-107 : Int) - 16 - 1 - 4) % 2 ^ 32).toNat)).toInt = -107 := by
  rcases lower_branches sampleLowering sampleBranchCode (by decide) with ⟨exact, encoded⟩
  rcases exact sampleBranchBody lower_sampleBranchCode with ⟨_, branches, tables⟩
  exact ⟨by decide, lower_sampleBranchCode, branches, tables,
    encoded 16 1 4 (-107) (by decide) (by decide) (Or.inr (Or.inr rfl)) (by decide) (by decide)⟩

end Lowering
end CilGraph
