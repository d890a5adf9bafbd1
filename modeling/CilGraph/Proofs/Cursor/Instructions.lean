import CilGraph.Proofs.Bytes.LittleEndian
import CilGraph.Proofs.Lowering.Coverage
import Mathlib.Data.List.Forall2

namespace CilGraph

/-!
# Code and its instructions

Code is a list of instructions written one after another, and a cursor that
walks over code finds these instructions again.  An instruction here is an entry
of the instruction table with the operands that its kind of operand demands.

Two facts about single instructions carry everything.  A cursor at the beginning
of an encoded instruction sees that instruction and steps to the byte behind it,
whatever follows.  And whatever a cursor sees is the encoding of a well-formed
instruction, so it is exactly the bytes that the cursor steps over.  The walk
over a whole body then needs no bound of its own: each step leaves fewer bytes.

Nothing is assumed of the bytes in the second direction.  Code that cannot be
decoded to its end has no encoding, and the walk ends with the error.
-/

/-- An instruction with its operands.  A branch table has the number of its
entries as first operand. -/
structure Instruction where
  opcode : Opcode
  operands : List UInt64
deriving DecidableEq, Repr

/-- Whether operands are what a kind of operand demands. -/
def OperandKind.Admits : OperandKind -> List UInt64 -> Prop
  | .none, operands => operands = []
  | .branchTable, operands => exists entries : List UInt64,
      operands = UInt64.ofNat entries.length :: entries ∧ entries.length < 2 ^ 32 ∧
        forall entry, entry ∈ entries -> entry.toNat < 2 ^ 32
  | kind, operands => exists value, operands = [value] ∧ value.toNat < 2 ^ (8 * kind.size)

namespace Instruction

/-- An instruction of the table with operands of the right shape. -/
structure WellFormed (instruction : Instruction) : Prop where
  listed : instruction.opcode ∈ Opcode.table
  admitted : instruction.opcode.operand.Admits instruction.operands

/-- The bytes of operands, all of the same width. -/
def encodeOperands (width : Nat) (operands : List UInt64) : List UInt8 :=
  operands.flatMap (fun operand => LittleEndian.split width operand.toNat)

/-- The bytes of an instruction. -/
def encode (instruction : Instruction) : List UInt8 :=
  instruction.opcode.bytes ++
    encodeOperands instruction.opcode.operand.size instruction.operands

/-- The bytes of instructions one after another. -/
def encodeAll (instructions : List Instruction) : List UInt8 :=
  instructions.flatMap encode

end Instruction

/-! ## Walking over code -/

/-- What a cursor tells about the instruction at which it stands. -/
structure Sighting where
  offset : Nat
  opcode : Opcode
  operandCount : Nat
  /-- The width and the value of every operand. -/
  operands : List (Nat × UInt64)
  size : Nat
deriving DecidableEq, Repr

/-- The instruction that was seen. -/
def Sighting.instruction (sighting : Sighting) : Instruction :=
  ⟨sighting.opcode, sighting.operands.map Prod.snd⟩

/-- What is to be seen of an instruction at an offset. -/
def Instruction.sightingAt (instruction : Instruction) (offset : Nat) : Sighting where
  offset := offset
  opcode := instruction.opcode
  operandCount := instruction.operands.length
  operands := instruction.operands.map (fun operand => (instruction.opcode.operand.size, operand))
  size := instruction.encode.length

/-- What is to be seen of instructions that lie one after another. -/
def Instruction.sightingsFrom : Nat -> List Instruction -> List Sighting
  | _, [] => []
  | offset, instruction :: rest =>
    instruction.sightingAt offset :: sightingsFrom (offset + instruction.encode.length) rest

namespace Cursor

/-- The width and the value of an operand. -/
def operand (cursor : Cursor) (index : Nat) : Result (Nat × UInt64) := do
  let width ← cursor.operandSize index
  let value ← cursor.operandValue index
  .ok (width, value)

/-- Ask everything about the instruction at a cursor, and step over it. -/
def sight (cursor : Cursor) : Result (Sighting × Cursor) := do
  let opcode ← cursor.opcode
  let count ← cursor.operandCount
  let operands ← (List.range count).mapM cursor.operand
  let size ← cursor.instructionSize
  let next ← cursor.advance
  .ok (⟨cursor.offset, opcode, count, operands, size⟩, next)

/-- The parts of a successful sighting. -/
structure Sees (cursor : Cursor) (sighting : Sighting) (next : Cursor) : Prop where
  offset : sighting.offset = cursor.offset
  decodes : cursor.opcode = .ok sighting.opcode
  counted : cursor.operandCount = .ok sighting.operandCount
  reads : (List.range sighting.operandCount).mapM cursor.operand = .ok sighting.operands
  sized : cursor.instructionSize = .ok sighting.size
  advances : cursor.advance = .ok next

theorem sight_eq_ok {cursor next : Cursor} {sighting : Sighting} :
    cursor.sight = .ok (sighting, next) ↔ Sees cursor sighting next := by
  constructor
  · intro seen
    rcases Result.bind_eq_ok.mp seen with ⟨opcode, decodes, counting⟩
    rcases Result.bind_eq_ok.mp counting with ⟨count, counted, reading⟩
    rcases Result.bind_eq_ok.mp reading with ⟨operands, reads, sizing⟩
    rcases Result.bind_eq_ok.mp sizing with ⟨size, sized, moving⟩
    rcases Result.bind_eq_ok.mp moving with ⟨following, advances, assembled⟩
    cases assembled
    exact ⟨rfl, decodes, counted, reads, sized, advances⟩
  · rintro ⟨isOffset, decodes, counted, reads, sized, advances⟩
    rcases sighting with ⟨offset, opcode, count, operands, size⟩
    cases isOffset
    refine Result.bind_eq_ok.mpr ⟨opcode, decodes, ?_⟩
    refine Result.bind_eq_ok.mpr ⟨count, counted, ?_⟩
    refine Result.bind_eq_ok.mpr ⟨operands, reads, ?_⟩
    refine Result.bind_eq_ok.mpr ⟨size, sized, ?_⟩
    exact Result.bind_eq_ok.mpr ⟨next, advances, rfl⟩

/-- Everything that is seen from a cursor on, and the cursor at the end of the
code or the error that ended the walk before. -/
def walk (cursor : Cursor) : List Sighting × Result Cursor :=
  if cursor.isExhausted then ([], .ok cursor)
  else
    match _seen : cursor.sight with
    | .error error => ([], .error error)
    | .ok (sighting, next) =>
      let rest := walk next
      (sighting :: rest.1, rest.2)
termination_by cursor.rest.length
decreasing_by exact Cursor.length_rest_advance (sight_eq_ok.mp _seen).advances

theorem walk_of_exhausted {cursor : Cursor} (exhausted : cursor.rest = []) :
    cursor.walk = ([], .ok cursor) := by
  unfold walk
  rw [if_pos]
  exact List.isEmpty_iff.mpr exhausted

theorem walk_of_fails {cursor : Cursor} {error : Error} (goesOn : ¬ cursor.isExhausted = true)
    (failed : cursor.sight = .error error) : cursor.walk = ([], .error error) := by
  rw [walk, if_neg goesOn]
  split
  · rename_i again
    rw [failed] at again
    cases again
    rfl
  · rename_i again
    rw [failed] at again
    cases again

theorem walk_of_sees {cursor next : Cursor} {sighting : Sighting}
    (sees : Sees cursor sighting next) :
    cursor.walk = (sighting :: next.walk.1, next.walk.2) := by
  have shorter := Cursor.length_rest_advance sees.advances
  have goesOn : ¬ cursor.isExhausted = true := by
    intro exhausted
    rw [List.isEmpty_iff.mp exhausted] at shorter
    exact absurd shorter (Nat.not_lt_zero _)
  have seen := sight_eq_ok.mpr sees
  rw [walk, if_neg goesOn]
  split
  · rename_i failed
    rw [seen] at failed
    cases failed
  · rename_i found following again
    rw [seen] at again
    cases again
    rfl

end Cursor

/-! ## Operand bytes -/

namespace Instruction

theorem length_encodeOperands (width : Nat) (operands : List UInt64) :
    (encodeOperands width operands).length = operands.length * width := by
  induction operands with
  | nil => exact (Nat.zero_mul width).symm
  | cons operand rest inductionHypothesis =>
      change (LittleEndian.split width operand.toNat ++ encodeOperands width rest).length = _
      rw [List.length_append, LittleEndian.length_split, inductionHypothesis, List.length_cons,
        Nat.succ_mul, Nat.add_comm]

/-- The bytes of an operand lie as many widths from the beginning as there are
operands before it. -/
theorem take_encodeOperands {width index : Nat} {operands : List UInt64} {operand : UInt64}
    (found : operands[index]? = some operand) (rest : List UInt8) :
    ((encodeOperands width operands ++ rest).drop (index * width)).take width =
      LittleEndian.split width operand.toNat := by
  induction operands generalizing index with
  | nil => cases found
  | cons first others inductionHypothesis =>
      have size := LittleEndian.length_split width first.toNat
      change (((LittleEndian.split width first.toNat ++ encodeOperands width others) ++
        rest).drop _).take _ = _
      rw [List.append_assoc]
      cases index with
      | zero =>
          cases found
          rw [Nat.zero_mul, List.drop_zero, List.take_left' size]
      | succ index =>
          rw [Nat.succ_mul, Nat.add_comm, ← List.drop_drop, List.drop_left' size]
          exact inductionHypothesis found

/-- Pieces of one width, put together again. -/
theorem flatMap_pieces {width count : Nat} {bytes : List UInt8}
    (enough : count * width ≤ bytes.length) :
    (List.range count).flatMap (fun index => (bytes.drop (index * width)).take width) =
      bytes.take (count * width) := by
  induction count with
  | zero => rw [List.range_zero, List.flatMap_nil, Nat.zero_mul, List.take_zero]
  | succ count inductionHypothesis =>
      rw [Nat.succ_mul] at enough ⊢
      rw [List.range_succ, List.flatMap_append, inductionHypothesis (by omega),
        List.flatMap_singleton, List.take_add]

/-- Operands whose bytes are given place by place. -/
theorem encodeOperands_eq {width : Nat} {operands : List UInt64} {piece : Nat -> List UInt8}
    (each : forall index operand, operands[index]? = some operand ->
      LittleEndian.split width operand.toNat = piece index) :
    encodeOperands width operands = (List.range operands.length).flatMap piece := by
  induction operands generalizing piece with
  | nil => rfl
  | cons operand rest inductionHypothesis =>
      have later := inductionHypothesis (fun index other found => each (index + 1) other found)
      change LittleEndian.split width operand.toNat ++ encodeOperands width rest = _
      rw [List.length_cons, List.range_succ_eq_map, List.flatMap_cons, List.flatMap_map,
        each 0 operand rfl, later]

theorem length_bytes (opcode : Opcode) : opcode.bytes.length = opcode.size := by
  unfold Opcode.bytes Opcode.size
  split <;> rfl

theorem length_encode (instruction : Instruction) : instruction.encode.length =
    instruction.opcode.size + instruction.operands.length * instruction.opcode.operand.size := by
  rw [encode, List.length_append, length_bytes, length_encodeOperands]

/-- Every admitted operand fits into its width. -/
theorem WellFormed.fits {instruction : Instruction} (wellFormed : instruction.WellFormed)
    {operand : UInt64} (member : operand ∈ instruction.operands) :
    operand.toNat < 256 ^ instruction.opcode.operand.size := by
  have admitted := wellFormed.admitted
  generalize instruction.opcode.operand = kind at admitted ⊢
  have power : 2 ^ (8 * kind.size) = 256 ^ kind.size := Nat.pow_mul 2 8 kind.size
  unfold OperandKind.Admits at admitted
  split at admitted
  · rw [admitted] at member
    cases member
  · rcases admitted with ⟨entries, same, short, each⟩
    rw [same] at member
    rcases List.mem_cons.mp member with isCount | isEntry
    · rw [isCount, UInt64.toNat_ofNat_of_lt' (Nat.lt_trans short (by decide))]
      exact short
    · exact each operand isEntry
  · rcases admitted with ⟨value, same, fits⟩
    rw [same] at member
    rw [List.mem_singleton.mp member, ← power]
    exact fits

end Instruction

/-! ## The bytes of an opcode -/

namespace Opcode

/-- The value of an instruction is given by its bytes, and an encoding in one byte
does not begin with the escape byte. -/
def hasForm (opcode : Opcode) : Bool :=
  if opcode.value > 0xFF then 0xFE00 + opcode.value.toUInt8.toUInt16 == opcode.value
  else opcode.value.toUInt8 != escapeByte && opcode.value.toUInt8.toUInt16 == opcode.value

theorem hasForm_of_mem_table {opcode : Opcode} (listed : opcode ∈ Opcode.table) :
    opcode.hasForm = true := by
  have checked : Opcode.table.all hasForm = true := by decide +kernel
  exact List.all_eq_true.mp checked opcode listed

/-- The table gives every instruction under its own encoding, since encodings
increase along it. -/
theorem ofValue?_of_mem_table {opcode : Opcode} (listed : opcode ∈ Opcode.table) :
    Opcode.ofValue? opcode.value = some opcode := by
  have increasing : Opcode.table.Pairwise (fun first second => first.value < second.value) := by
    have chain : Opcode.table.IsChain (fun first second => first.value < second.value) := by
      decide +kernel
    have : Trans (fun first second : Opcode => first.value < second.value)
        (fun first second : Opcode => first.value < second.value)
        (fun first second : Opcode => first.value < second.value) :=
      ⟨fun earlier later => UInt16.lt_trans earlier later⟩
    exact List.isChain_iff_pairwise.mp chain
  rcases List.append_of_mem listed with ⟨before, behind, table⟩
  rw [table] at increasing
  have noneBefore : before.find? (fun other => other.value == opcode.value) = none := by
    refine List.find?_eq_none.mpr ?_
    intro other member same
    have less := (List.pairwise_append.mp increasing).2.2 other member opcode List.mem_cons_self
    rw [eq_of_beq same] at less
    exact UInt16.lt_irrefl _ less
  rw [ofValue?, table, List.find?_append, noneBefore, Option.none_or]
  exact List.find?_cons_of_pos (beq_self_eq_true opcode.value)

end Opcode

namespace Cursor

theorem lookup_of_ofValue? {cursor : Cursor} {value : UInt16} {opcode : Opcode}
    (found : Opcode.ofValue? value = some opcode) (shown : String) :
    cursor.lookup value shown = .ok opcode := by
  unfold lookup
  rw [found]

/-- A cursor at the bytes of an opcode sees that opcode. -/
theorem opcode_bytes {opcode : Opcode} (listed : opcode ∈ Opcode.table) (offset : Nat)
    (rest : List UInt8) : Cursor.opcode ⟨offset, opcode.bytes ++ rest⟩ = .ok opcode := by
  have isFound := Opcode.ofValue?_of_mem_table listed
  have form := Opcode.hasForm_of_mem_table listed
  unfold Opcode.hasForm at form
  unfold Opcode.bytes
  by_cases isLong : opcode.value > 0xFF
  · rw [if_pos isLong] at form
    rw [if_pos isLong]
    unfold Cursor.opcode
    simp only [List.cons_append, List.nil_append, if_true]
    refine lookup_of_ofValue? ?_ _
    rw [eq_of_beq form]
    exact isFound
  · rw [if_neg isLong] at form
    rw [if_neg isLong]
    rcases Bool.and_eq_true_iff.mp form with ⟨noEscape, same⟩
    unfold Cursor.opcode
    simp only [List.cons_append, List.nil_append]
    rw [if_neg (bne_iff_ne.mp noEscape)]
    refine lookup_of_ofValue? ?_ _
    rw [eq_of_beq same]
    exact isFound

/-- What a cursor decodes stands at the cursor. -/
theorem rest_of_opcode {cursor : Cursor} {opcode : Opcode}
    (decodes : cursor.opcode = .ok opcode) :
    exists others, cursor.rest = opcode.bytes ++ others := by
  unfold Cursor.opcode at decodes
  split at decodes
  · cases decodes
  · rename_i first others code
    rw [code]
    split at decodes
    · rename_i isEscape
      split at decodes
      · cases decodes
      · rename_i second behind
        have bound := second.toNat_lt
        have value : opcode.value.toNat = 0xFE00 + second.toNat := by
          rw [value_of_lookup decodes, UInt16.toNat_add, UInt8.toNat_toUInt16]
          change (0xFE00 + second.toNat) % 2 ^ 16 = _
          omega
        have isLong : opcode.value > 0xFF := by
          rw [gt_iff_lt, UInt16.lt_iff_toNat_lt, value]
          change 255 < _
          omega
        have low : opcode.value.toUInt8 = second := by
          apply UInt8.toNat_inj.mp
          rw [UInt16.toNat_toUInt8, value]
          omega
        refine ⟨behind, ?_⟩
        rw [Opcode.bytes, if_pos isLong, low, isEscape]
        rfl
    · have bound := first.toNat_lt
      have value : opcode.value.toNat = first.toNat := by
        rw [value_of_lookup decodes, UInt8.toNat_toUInt16]
      have isShort : ¬ opcode.value > 0xFF := by
        rw [gt_iff_lt, UInt16.lt_iff_toNat_lt, value]
        change ¬ 255 < _
        omega
      have low : opcode.value.toUInt8 = first := by
        apply UInt8.toNat_inj.mp
        rw [UInt16.toNat_toUInt8, value]
        omega
      refine ⟨others, ?_⟩
      rw [Opcode.bytes, if_neg isShort, low]
      rfl

/-! ## One instruction -/

theorem read_of_take {cursor : Cursor} {distance width value : Nat}
    (there : (cursor.rest.drop distance).take width = LittleEndian.split width value)
    (fits : value < 256 ^ width) : cursor.read distance width = .ok value := by
  unfold read
  simp only [there, LittleEndian.length_split, if_true, LittleEndian.combine_split_of_lt fits]

theorem read_eq_ok {cursor : Cursor} {distance width value : Nat}
    (reads : cursor.read distance width = .ok value) :
    (cursor.rest.drop distance).take width = LittleEndian.split width value ∧
      value < 256 ^ width := by
  unfold read at reads
  simp only at reads
  split at reads
  · rename_i complete
    have same := Except.ok.inj reads
    have back := LittleEndian.split_combine ((cursor.rest.drop distance).take width)
    have bound := LittleEndian.combine_lt ((cursor.rest.drop distance).take width)
    rw [complete, same] at back bound
    exact ⟨back.symm, bound⟩
  · cases reads

section Encoded

variable {instruction : Instruction}

theorem opcode_encode (wellFormed : instruction.WellFormed) (offset : Nat)
    (rest : List UInt8) :
    Cursor.opcode ⟨offset, instruction.encode ++ rest⟩ = .ok instruction.opcode := by
  rw [Instruction.encode, List.append_assoc]
  exact opcode_bytes wellFormed.listed offset _

theorem read_encode (wellFormed : instruction.WellFormed) (offset : Nat)
    (rest : List UInt8) {index : Nat} {operand : UInt64}
    (found : instruction.operands[index]? = some operand) :
    Cursor.read ⟨offset, instruction.encode ++ rest⟩
      (instruction.opcode.size + index * instruction.opcode.operand.size)
      instruction.opcode.operand.size = .ok operand.toNat := by
  refine read_of_take ?_ (wellFormed.fits (List.mem_of_getElem? found))
  rw [Instruction.encode, List.append_assoc, ← List.drop_drop,
    List.drop_left' (Instruction.length_bytes _), Instruction.take_encodeOperands found]

/-- The count of a branch table is its first operand. -/
theorem operandCount_encode (wellFormed : instruction.WellFormed) (offset : Nat)
    (rest : List UInt8) :
    Cursor.operandCount ⟨offset, instruction.encode ++ rest⟩ =
      .ok instruction.operands.length := by
  refine Result.bind_eq_ok.mpr ⟨instruction.opcode, opcode_encode wellFormed offset rest, ?_⟩
  have admitted := wellFormed.admitted
  unfold OperandKind.Admits at admitted
  split at admitted
  · rename_i isNone
    rw [isNone, admitted]
    rfl
  · rename_i isTable
    rcases admitted with ⟨entries, same, short, _⟩
    have first : instruction.operands[0]? = some (UInt64.ofNat entries.length) := by
      rw [same]
      rfl
    have reads := read_encode wellFormed offset rest first
    rw [isTable, UInt64.toNat_ofNat_of_lt' (Nat.lt_trans short (by decide))] at reads
    simp only [isTable]
    refine Result.bind_eq_ok.mpr ⟨entries.length, reads, ?_⟩
    rw [same, List.length_cons, Nat.add_comm]
  · rename_i notNone notTable
    rcases admitted with ⟨value, same, _⟩
    rw [same]
    split
    · rename_i isNone
      exact absurd isNone notNone
    · rename_i isTable
      exact absurd isTable notTable
    · rfl

theorem operand_encode (wellFormed : instruction.WellFormed) (offset : Nat)
    (rest : List UInt8) {index : Nat} {operand : UInt64}
    (found : instruction.operands[index]? = some operand) :
    Cursor.operand ⟨offset, instruction.encode ++ rest⟩ index =
      .ok (instruction.opcode.operand.size, operand) := by
  have decodes := opcode_encode wellFormed offset rest
  have counted := operandCount_encode wellFormed offset rest
  have within := (List.getElem?_eq_some_iff.mp found).1
  refine Result.bind_eq_ok.mpr ⟨instruction.opcode.operand.size, ?_, ?_⟩
  · refine Result.bind_eq_ok.mpr ⟨_, decodes, Result.bind_eq_ok.mpr ⟨_, counted, ?_⟩⟩
    rw [if_pos within]
  · refine Result.bind_eq_ok.mpr ⟨operand, ?_, rfl⟩
    refine Result.bind_eq_ok.mpr ⟨_, decodes, Result.bind_eq_ok.mpr ⟨_, counted, ?_⟩⟩
    rw [if_pos within]
    refine Result.bind_eq_ok.mpr ⟨_, read_encode wellFormed offset rest found, ?_⟩
    rw [UInt64.ofNat_toNat]

/-- A cursor at an encoded instruction sees it and steps behind it. -/
theorem sees_encode (wellFormed : instruction.WellFormed) (offset : Nat)
    (rest : List UInt8) :
    Sees ⟨offset, instruction.encode ++ rest⟩ (instruction.sightingAt offset)
      ⟨offset + instruction.encode.length, rest⟩ := by
  have decodes := opcode_encode wellFormed offset rest
  have counted := operandCount_encode wellFormed offset rest
  have sized : instructionSize ⟨offset, instruction.encode ++ rest⟩ =
      .ok instruction.encode.length := by
    refine Result.bind_eq_ok.mpr ⟨_, decodes, Result.bind_eq_ok.mpr ⟨_, counted, ?_⟩⟩
    rw [Instruction.length_encode]
  refine ⟨rfl, decodes, counted, ?_, sized, ?_⟩
  · refine Result.mapM_of_forall₂ (List.forall₂_iff_get.mpr ⟨?_, ?_⟩)
    · rw [List.length_range]
      exact (List.length_map _).symm
    · intro index inRange inOperands
      have within : index < instruction.operands.length := by
        rw [List.length_range] at inRange
        exact inRange
      have reads := operand_encode wellFormed offset rest (List.getElem?_eq_getElem within)
      simpa [Instruction.sightingAt] using reads
  · refine advance_eq_ok.mpr ⟨_, sized, ?_, ?_⟩
    · rw [List.length_append]
      exact Nat.le_add_right _ _
    · rw [List.drop_left]

end Encoded

section Decoded

variable {cursor next : Cursor} {sighting : Sighting}

/-- The value of a number that was read, as an operand holds it. -/
theorem toNat_of_read {distance value : Nat} {kind : OperandKind}
    (reads : cursor.read distance kind.size = .ok value) :
    (UInt64.ofNat value).toNat = value := by
  have narrow : kind.size ≤ 8 := by cases kind <;> decide
  have widest : 256 ^ kind.size ≤ 256 ^ 8 := Nat.pow_le_pow_right (by decide) narrow
  exact UInt64.toNat_ofNat_of_lt' (Nat.lt_of_lt_of_le (read_eq_ok reads).2 widest)

/-- A question whose answer depends on the opcode and on the number of operands. -/
theorem Sees.answers {Value : Type} {question : Opcode -> Nat -> Result Value} {value : Value}
    (sees : Sees cursor sighting next)
    (answered : (do
      let opcode ← cursor.opcode
      let count ← cursor.operandCount
      question opcode count) = .ok value) :
    question sighting.opcode sighting.operandCount = .ok value := by
  rcases Result.bind_eq_ok.mp answered with ⟨opcode, decodes, counting⟩
  rcases Result.bind_eq_ok.mp counting with ⟨count, counted, answer⟩
  rw [sees.decodes] at decodes
  rw [sees.counted] at counted
  cases decodes
  cases counted
  exact answer

theorem Sees.length_operands (sees : Sees cursor sighting next) :
    sighting.instruction.operands.length = sighting.operandCount := by
  have length := (Result.mapM_eq_ok sees.reads).length_eq
  rw [List.length_range] at length
  rw [Sighting.instruction, List.length_map, length]

/-- An operand that is seen was read at its place. -/
theorem Sees.operand_at {index : Nat} {operand : UInt64} (sees : Sees cursor sighting next)
    (found : sighting.instruction.operands[index]? = some operand) :
    cursor.read (sighting.opcode.size + index * sighting.opcode.operand.size)
      sighting.opcode.operand.size = .ok operand.toNat := by
  rcases List.getElem?_eq_some_iff.mp found with ⟨inOperands, isOperand⟩
  have within := sees.length_operands ▸ inOperands
  have each := Result.mapM_eq_ok sees.reads
  rw [Sighting.instruction, List.length_map] at inOperands
  have reads := each.get ((List.length_range).symm ▸ within) inOperands
  simp only [List.get_eq_getElem, List.getElem_range] at reads
  rcases Result.bind_eq_ok.mp reads with ⟨width, _, valuing⟩
  rcases Result.bind_eq_ok.mp valuing with ⟨again, valued, assembled⟩
  have answer := sees.answers valued
  rw [if_pos within] at answer
  rcases Result.bind_eq_ok.mp answer with ⟨value, isRead, isAgain⟩
  have same : operand = UInt64.ofNat value := by
    rw [← isOperand, Except.ok.inj isAgain]
    simp only [Sighting.instruction, List.getElem_map, ← Except.ok.inj assembled]
  rw [same, toNat_of_read isRead]
  exact isRead

/-- The operands that are seen are admitted.  The entries of a branch table are
as many as its first operand says, since that is how they were counted. -/
theorem Sees.admitted (sees : Sees cursor sighting next) :
    sighting.opcode.operand.Admits sighting.instruction.operands := by
  have length := sees.length_operands
  have readAt : forall index operand, sighting.instruction.operands[index]? = some operand ->
      cursor.read (sighting.opcode.size + index * sighting.opcode.operand.size)
        sighting.opcode.operand.size = .ok operand.toNat :=
    fun _ _ found => sees.operand_at found
  have fits : forall operand, operand ∈ sighting.instruction.operands ->
      operand.toNat < 256 ^ sighting.opcode.operand.size := by
    intro operand member
    rcases List.getElem?_of_mem member with ⟨index, found⟩
    exact (read_eq_ok (readAt index operand found)).2
  rcases Result.bind_eq_ok.mp sees.counted with ⟨opcode, decodes, counting⟩
  rw [sees.decodes] at decodes
  cases decodes
  generalize sighting.instruction.operands = operands at length readAt fits
  cases kind : sighting.opcode.operand with
  | none =>
      rw [kind] at counting
      rw [← Except.ok.inj counting] at length
      exact List.eq_nil_of_length_eq_zero length
  | branchTable =>
      simp only [kind] at counting readAt fits
      rcases Result.bind_eq_ok.mp counting with ⟨entries, isRead, total⟩
      rw [← Except.ok.inj total] at length
      cases operands with
      | nil =>
          rw [List.length_nil] at length
          omega
      | cons first others =>
          have isFirst := readAt 0 first rfl
          rw [Nat.zero_mul, Nat.add_zero] at isFirst
          have isCount : entries = first.toNat := Except.ok.inj (isRead.symm.trans isFirst)
          have count : others.length = first.toNat := by
            rw [List.length_cons] at length
            omega
          refine ⟨others, ?_, ?_, ?_⟩
          · rw [count, UInt64.ofNat_toNat]
          · rw [count]
            exact fits first List.mem_cons_self
          · intro entry member
            exact fits entry (List.mem_cons_of_mem first member)
  | _ =>
      rw [kind] at counting fits
      rw [← Except.ok.inj counting] at length
      rcases List.length_eq_one_iff.mp length with ⟨value, single⟩
      rw [single] at fits ⊢
      exact ⟨value, rfl, fits value List.mem_cons_self⟩

/-- What is seen is well-formed, and it is what the cursor steps over. -/
theorem Sees.encodes (sees : Sees cursor sighting next) :
    sighting.instruction.WellFormed ∧ cursor.rest = sighting.instruction.encode ++ next.rest := by
  refine ⟨⟨Lowering.mem_table_of_opcode sees.decodes, sees.admitted⟩, ?_⟩
  rcases rest_of_opcode sees.decodes with ⟨others, code⟩
  obtain ⟨size, sized, enough, isNext⟩ := advance_eq_ok.mp sees.advances
  subst isNext
  have isSize := Except.ok.inj (sees.answers sized)
  have beyond : cursor.rest.drop sighting.opcode.size = others := by
    rw [code, List.drop_left' (Instruction.length_bytes _)]
  have fits : sighting.operandCount * sighting.opcode.operand.size ≤ others.length := by
    rw [code, List.length_append, Instruction.length_bytes] at enough
    omega
  have pieces : Instruction.encodeOperands sighting.opcode.operand.size
      sighting.instruction.operands =
        others.take (sighting.operandCount * sighting.opcode.operand.size) := by
    rw [← Instruction.flatMap_pieces fits, ← sees.length_operands]
    refine Instruction.encodeOperands_eq ?_
    intro index operand found
    rw [← (read_eq_ok (sees.operand_at found)).1, ← List.drop_drop, beyond]
  change cursor.rest = (sighting.opcode.bytes ++ Instruction.encodeOperands
    sighting.opcode.operand.size sighting.instruction.operands) ++ cursor.rest.drop size
  rw [pieces, ← isSize, ← List.drop_drop, beyond, List.append_assoc, List.take_append_drop,
    code]

end Decoded

/-! ## A whole body -/

/-- Over the encoding of instructions a cursor sees these instructions, one after
another, and comes to the end. -/
theorem walk_encodeAll {instructions : List Instruction}
    (wellFormed : forall instruction, instruction ∈ instructions -> instruction.WellFormed)
    (offset : Nat) :
    Cursor.walk ⟨offset, Instruction.encodeAll instructions⟩ =
      (Instruction.sightingsFrom offset instructions,
        .ok ⟨offset + (Instruction.encodeAll instructions).length, []⟩) := by
  induction instructions generalizing offset with
  | nil => exact walk_of_exhausted rfl
  | cons instruction rest inductionHypothesis =>
      have sees := sees_encode (wellFormed instruction List.mem_cons_self) offset
        (Instruction.encodeAll rest)
      have later := inductionHypothesis
        (fun other member => wellFormed other (List.mem_cons_of_mem instruction member))
        (offset + instruction.encode.length)
      change Cursor.walk ⟨offset, instruction.encode ++ Instruction.encodeAll rest⟩ = _
      rw [walk_of_sees sees, later]
      change _ = (_, Except.ok (⟨offset + (instruction.encode ++
        Instruction.encodeAll rest).length, []⟩ : Cursor))
      rw [List.length_append, Nat.add_assoc]
      rfl

/-- A walk that comes to the end has seen well-formed instructions, and their
encoding is the code. -/
theorem encodeAll_walk {cursor final : Cursor} (ends : cursor.walk.2 = .ok final) :
    final.rest = [] ∧
      (forall sighting, sighting ∈ cursor.walk.1 -> sighting.instruction.WellFormed) ∧
      Instruction.encodeAll (cursor.walk.1.map Sighting.instruction) = cursor.rest := by
  induction cursor using walk.induct with
  | case1 cursor exhausted =>
      have done := List.isEmpty_iff.mp exhausted
      rw [walk_of_exhausted done] at ends ⊢
      cases ends
      refine ⟨done, ?_, done.symm⟩
      intro sighting impossible
      cases impossible
  | case2 cursor goesOn error failed =>
      rw [walk_of_fails goesOn failed] at ends
      cases ends
  | case3 cursor goesOn sighting next seen inductionHypothesis =>
      have sees := sight_eq_ok.mp seen
      rw [walk_of_sees sees] at ends ⊢
      rcases inductionHypothesis ends with ⟨exhausted, later, encoded⟩
      rcases sees.encodes with ⟨wellFormed, code⟩
      refine ⟨exhausted, ?_, ?_⟩
      · intro other member
        rcases List.mem_cons.mp member with same | among
        · rw [same]
          exact wellFormed
        · exact later other among
      · change sighting.instruction.encode ++ Instruction.encodeAll _ = _
        rw [encoded, code]

/-- A walk makes no more steps than there are bytes.  An instruction that cannot
be decoded is a step as well. -/
theorem length_walk (cursor : Cursor) :
    cursor.walk.1.length + (if cursor.walk.2.isOk then 0 else 1) ≤ cursor.rest.length := by
  induction cursor using walk.induct with
  | case1 cursor exhausted =>
      rw [walk_of_exhausted (List.isEmpty_iff.mp exhausted)]
      exact Nat.zero_le _
  | case2 cursor goesOn error failed =>
      rw [walk_of_fails goesOn failed]
      refine List.length_pos_iff.mpr ?_
      intro exhausted
      exact goesOn (List.isEmpty_iff.mpr exhausted)
  | case3 cursor goesOn sighting next seen inductionHypothesis =>
      have sees := sight_eq_ok.mp seen
      have shorter := Cursor.length_rest_advance sees.advances
      rw [walk_of_sees sees, List.length_cons]
      change _ + (if next.walk.2.isOk then 0 else 1) ≤ _
      omega

/-- Decoding inverts encoding.  A walk over encoded instructions sees these, each
at the offset where its encoding begins, and ends behind the last.  A walk over
any code ends after at most as many steps as there are bytes, and if it ends
without an error, then the code is the encoding of what was seen. -/
theorem walk_inverts_encodeAll (instructions : List Instruction) (code : List UInt8)
    (wellFormed : forall instruction, instruction ∈ instructions -> instruction.WellFormed) :
    (start (Instruction.encodeAll instructions)).walk =
        (Instruction.sightingsFrom 0 instructions,
          .ok ⟨(Instruction.encodeAll instructions).length, []⟩) ∧
      (start code).walk.1.length + (if (start code).walk.2.isOk then 0 else 1) ≤ code.length ∧
      forall final, (start code).walk.2 = .ok final ->
        final.isExhausted = true ∧
        (forall sighting, sighting ∈ (start code).walk.1 -> sighting.instruction.WellFormed) ∧
        Instruction.encodeAll ((start code).walk.1.map Sighting.instruction) = code := by
  refine ⟨?_, length_walk (start code), ?_⟩
  · have walked := walk_encodeAll wellFormed 0
    rw [Nat.zero_add] at walked
    exact walked
  · intro final ends
    rcases encodeAll_walk ends with ⟨exhausted, seen, encoded⟩
    exact ⟨List.isEmpty_iff.mpr exhausted, seen, encoded⟩

/-- A branch table between instructions of one and of two bytes. -/
def sampleInstructions : List Instruction := [
  ⟨⟨0x21, "ldc.i8", .longInteger, some (.integerConstant .i8)⟩, [0xFE45FE45FE45FE45]⟩,
  ⟨⟨0x45, "switch", .branchTable, some .branchTable⟩, [2, 0xFFFFFFF0, 1]⟩,
  ⟨⟨0xFE01, "ceq", .none, some (.plain .compareEqual 2 true [])⟩, []⟩]

theorem wellFormed_sampleInstructions (instruction : Instruction)
    (member : instruction ∈ sampleInstructions) : instruction.WellFormed := by
  have listed : forall other, other ∈ sampleInstructions -> other.opcode ∈ Opcode.table := by
    decide +kernel
  refine ⟨listed instruction member, ?_⟩
  simp only [sampleInstructions, List.mem_cons, List.not_mem_nil, or_false] at member
  rcases member with isConstant | isTable | isComparison
  · rw [isConstant]
    exact ⟨0xFE45FE45FE45FE45, rfl, by decide⟩
  · rw [isTable]
    have fits : forall entry : UInt64, entry ∈ [0xFFFFFFF0, 1] -> entry.toNat < 2 ^ 32 :=
      List.forall_mem_cons.mpr ⟨by decide, List.forall_mem_singleton.mpr (by decide)⟩
    exact ⟨[0xFFFFFFF0, 1], rfl, by decide, fits⟩
  · rw [isComparison]
    rfl

theorem walk_inverts_encodeAll_sampleInstructions :
    (start (Instruction.encodeAll sampleInstructions)).walk =
        (Instruction.sightingsFrom 0 sampleInstructions, .ok ⟨24, []⟩) ∧
      (start [0x45, 1]).walk.1.length ≤ 2 := by
  have both := walk_inverts_encodeAll sampleInstructions [0x45, 1] wellFormed_sampleInstructions
  exact ⟨both.1, Nat.le_trans (Nat.le_add_right _ _) both.2.1⟩

end Cursor
end CilGraph
