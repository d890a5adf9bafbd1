import CilGraph.Proofs.Lowering.Turns

namespace CilGraph

/-!
# Code that is cut off

A cursor checks on its own account, for each question, whether the bytes that
the answer needs are there.  The opcode needs one byte or two, the number of
operands may need the count of a branch table, an operand needs the bytes up to
its own end, and a step needs the whole instruction.  The checks agree: a cursor
can step exactly when it can answer the other questions, operand by operand.  The
reason is that the last operand ends where the instruction ends, so that a cursor
which can read it has the whole instruction before it.

A refusal that gives numbers gives true ones.  `Truthful` says this of a result,
and it passes from the halves of a sequence to the sequence, so that every
question is truthful because reading bytes is.

The cursors in question are those that walk over a body from its beginning, with
any number of steps, the refused ones included.
-/

namespace Cursor

/-! ## Steps that may be refused -/

/-- The cursor after a number of tries from the beginning of a body. -/
def after (code : List UInt8) : Nat -> Cursor
  | 0 => start code
  | tries + 1 => (after code tries).proceed.2

variable {cursor next : Cursor} {code : List UInt8}

theorem proceed_ok_iff :
    (exists follows, cursor.proceed.1 = .ok follows) ↔ exists next, cursor.advance = .ok next := by
  unfold advance
  rcases cursor.proceed with ⟨result, later⟩
  cases result <;> simp

/-- A cursor stands on a body if the bytes at it are those of the body from its
offset on. -/
structure StandsOn (cursor : Cursor) (code : List UInt8) : Prop where
  inside : cursor.offset ≤ code.length
  rest : cursor.rest = code.drop cursor.offset

theorem StandsOn.length_rest (stands : cursor.StandsOn code) :
    cursor.rest.length = code.length - cursor.offset := by
  rw [stands.rest, List.length_drop]

theorem standsOn_start (code : List UInt8) : (start code).StandsOn code :=
  ⟨Nat.zero_le _, rfl⟩

theorem StandsOn.advance (stands : cursor.StandsOn code) (advances : cursor.advance = .ok next) :
    next.StandsOn code := by
  obtain ⟨size, _, enough, isNext⟩ := advance_eq_ok.mp advances
  subst isNext
  have inside := stands.inside
  rw [stands.length_rest] at enough
  constructor
  · change cursor.offset + size ≤ code.length
    omega
  · change cursor.rest.drop size = code.drop (cursor.offset + size)
    rw [stands.rest, List.drop_drop]

theorem StandsOn.proceed (stands : cursor.StandsOn code) : cursor.proceed.2.StandsOn code := by
  cases stepped : cursor.advance with
  | ok next =>
      rw [proceed_of_advance stepped]
      exact stands.advance stepped
  | error error =>
      rw [proceed_of_error (advance_eq_error.mp stepped)]
      exact stands

theorem standsOn_after (code : List UInt8) (tries : Nat) : (after code tries).StandsOn code := by
  induction tries with
  | zero => exact standsOn_start code
  | succ tries inductionHypothesis => exact inductionHypothesis.proceed

/-! ## When a cursor can step -/

/-- An instruction that has operands at all has operands of some width. -/
theorem width_pos_of_operandCount {opcode : Opcode} {count : Nat}
    (decodes : cursor.opcode = .ok opcode) (counted : cursor.operandCount = .ok (count + 1)) :
    0 < opcode.operand.size := by
  obtain ⟨same, decoded, counting⟩ := Result.bind_eq_ok.mp counted
  rw [decodes] at decoded
  cases decoded
  cases kind : opcode.operand with
  | none =>
      rw [kind] at counting
      cases counting
  | _ => decide

/-- A cursor can step if and only if it can tell the opcode and the number of
operands and can read every operand. -/
theorem advance_ok_iff :
    (exists next, cursor.advance = .ok next) ↔
      (exists opcode, cursor.opcode = .ok opcode) ∧
        exists count, cursor.operandCount = .ok count ∧
          forall index, index < count -> exists value, cursor.operandValue index = .ok value := by
  constructor
  · rintro ⟨next, advances⟩
    obtain ⟨sighting, sees⟩ := sees_of_advance advances
    refine ⟨⟨_, sees.decodes⟩, _, sees.counted, ?_⟩
    intro index within
    obtain ⟨operand, _, _, reads⟩ :=
      Result.exists_of_mem_left sees.forall₂_operands (List.mem_range.mpr within)
    exact ⟨operand.2, reads⟩
  · rintro ⟨⟨opcode, decodes⟩, count, counted, readable⟩
    apply advance_of_fits decodes counted
    cases count with
    | zero =>
        rw [Nat.zero_mul, Nat.add_zero]
        exact size_le_of_opcode decodes
    | succ count =>
        -- The last operand ends with the instruction.
        obtain ⟨value, reads⟩ := readable count (Nat.lt_succ_self count)
        exact fits_of_operandValue decodes counted (Nat.lt_succ_self count)
          (width_pos_of_operandCount decodes counted) reads

/-! ## What a refusal says -/

/-- The numbers of a result that reports a truncation are true: the offset and
the number of bytes that are left are those of the cursor, and more are needed. -/
def Truthful {Value : Type} (cursor : Cursor) (result : Result Value) : Prop :=
  forall offset needed available, result = .error (.truncatedStream offset needed available) ->
    offset = cursor.offset ∧ available = cursor.rest.length ∧ available < needed

theorem truthful_ok {Value : Type} (value : Value) : cursor.Truthful (.ok value) := by
  intro offset needed available impossible
  cases impossible

theorem truthful_truncated {Value : Type} {needed : Nat} (lacks : cursor.rest.length < needed) :
    cursor.Truthful (.error (cursor.truncated needed) : Result Value) := by
  intro offset others available same
  cases same
  exact ⟨rfl, rfl, lacks⟩

theorem Truthful.bind {First Second : Type} {result : Result First}
    {following : First -> Result Second} (first : cursor.Truthful result)
    (second : forall value, result = .ok value -> cursor.Truthful (following value)) :
    cursor.Truthful (result >>= following) := by
  intro offset needed available failed
  rcases Result.bind_eq_error.mp failed with failedFirst | ⟨value, succeeded, failedThen⟩
  · exact first offset needed available failedFirst
  · exact second value succeeded offset needed available failedThen

theorem truthful_lookup (value : UInt16) (shown : String) :
    cursor.Truthful (cursor.lookup value shown) := by
  unfold lookup
  split
  · apply truthful_ok
  · intro offset needed available impossible
    cases impossible

theorem truthful_opcode (cursor : Cursor) : cursor.Truthful cursor.opcode := by
  unfold Cursor.opcode
  split
  · rename_i empty
    apply truthful_truncated
    simp [empty]
  · rename_i first others code
    split
    · split
      · apply truthful_truncated
        simp [code]
      · apply truthful_lookup
    · apply truthful_lookup

theorem truthful_read (cursor : Cursor) (distance width : Nat) :
    cursor.Truthful (cursor.read distance width) := by
  unfold read
  simp only
  split
  · apply truthful_ok
  · rename_i incomplete
    apply truthful_truncated
    rw [List.length_take, List.length_drop] at incomplete
    omega

theorem truthful_operandCount (cursor : Cursor) : cursor.Truthful cursor.operandCount := by
  apply (truthful_opcode cursor).bind
  intro opcode _
  split
  · apply truthful_ok
  · apply (truthful_read cursor _ _).bind
    intro entries _
    apply truthful_ok
  · apply truthful_ok

/-- A question that is answered from the opcode and the number of operands. -/
theorem truthful_of_shape {Value : Type} {answer : Opcode -> Nat -> Result Value}
    (truthful : forall opcode count, cursor.Truthful (answer opcode count)) :
    cursor.Truthful (do
      let opcode ← cursor.opcode
      let count ← cursor.operandCount
      answer opcode count) := by
  apply (truthful_opcode cursor).bind
  intro opcode _
  apply (truthful_operandCount cursor).bind
  intro count _
  exact truthful opcode count

theorem truthful_operandSize (cursor : Cursor) (index : Nat) :
    cursor.Truthful (cursor.operandSize index) := by
  apply truthful_of_shape
  intro opcode count
  apply truthful_ok

theorem truthful_operandValue (cursor : Cursor) (index : Nat) :
    cursor.Truthful (cursor.operandValue index) := by
  apply truthful_of_shape
  intro opcode count
  split
  · apply (truthful_read cursor _ _).bind
    intro value _
    apply truthful_ok
  · apply truthful_ok

theorem truthful_instructionSize (cursor : Cursor) : cursor.Truthful cursor.instructionSize := by
  apply truthful_of_shape
  intro opcode count
  apply truthful_ok

theorem truthful_advance (cursor : Cursor) : cursor.Truthful cursor.advance := by
  intro offset needed available refused
  rcases error_of_advance refused with unsized | ⟨size, lacks, same⟩
  · exact truthful_instructionSize cursor offset needed available unsized
  · cases same
    exact ⟨rfl, rfl, lacks⟩

/-- What a cursor can be asked. -/
inductive Question where
  | opcode
  | operandCount
  | operandSize (index : Nat)
  | operandValue (index : Nat)
  | instructionSize
  | advance

/-- The error with which a cursor refuses a question. -/
def Refuses (cursor : Cursor) (error : Error) : Question -> Prop
  | .opcode => cursor.opcode = .error error
  | .operandCount => cursor.operandCount = .error error
  | .operandSize index => cursor.operandSize index = .error error
  | .operandValue index => cursor.operandValue index = .error error
  | .instructionSize => cursor.instructionSize = .error error
  | .advance => cursor.advance = .error error

theorem numbers_of_refuses {question : Question} {offset needed available : Nat}
    (refuses : cursor.Refuses (.truncatedStream offset needed available) question) :
    offset = cursor.offset ∧ available = cursor.rest.length ∧ available < needed := by
  cases question with
  | opcode => exact truthful_opcode cursor _ _ _ refuses
  | operandCount => exact truthful_operandCount cursor _ _ _ refuses
  | operandSize index => exact truthful_operandSize cursor index _ _ _ refuses
  | operandValue index => exact truthful_operandValue cursor index _ _ _ refuses
  | instructionSize => exact truthful_instructionSize cursor _ _ _ refuses
  | advance => exact truthful_advance cursor _ _ _ refuses

/-! ## All checks together -/

/-- The checks of a cursor on a body agree, and its refusals are true. -/
structure Agrees (cursor : Cursor) (code : List UInt8) : Prop where
  steps_iff : (exists follows, cursor.proceed.1 = .ok follows) ↔
    (exists opcode, cursor.opcode = .ok opcode) ∧
      exists count, cursor.operandCount = .ok count ∧
        forall index, index < count -> exists value, cursor.operandValue index = .ok value
  moves : forall follows, cursor.proceed.1 = .ok follows ->
    exists size, cursor.instructionSize = .ok size ∧ 1 ≤ size ∧
      cursor.proceed.2.offset = cursor.offset + size ∧ cursor.proceed.2.offset ≤ code.length
  stays : forall error, cursor.proceed.1 = .error error -> cursor.proceed.2 = cursor
  refusals : forall question offset needed available,
    cursor.Refuses (.truncatedStream offset needed available) question ->
      offset = cursor.offset ∧ available = code.length - cursor.offset ∧ available < needed

/-- Wherever steps from the beginning of a body lead, the checks agree.  A step
succeeds if and only if the opcode, the number of operands and every operand can
be told, it leads on by the size of the instruction and not beyond the end, and a
refused step leads nowhere.  Whatever is refused because the code is cut off is
refused with the offset of the cursor, the number of bytes that are left and a
number of bytes that is larger. -/
theorem after_agrees (code : List UInt8) (tries : Nat) : (after code tries).Agrees code := by
  have stands := standsOn_after code tries
  generalize after code tries = cursor at stands
  constructor
  case steps_iff =>
    rw [proceed_ok_iff]
    exact advance_ok_iff
  case moves =>
    intro follows stepped
    obtain ⟨next, advances⟩ := proceed_ok_iff.mp ⟨follows, stepped⟩
    obtain ⟨size, sized, _, isNext⟩ := advance_eq_ok.mp advances
    rw [proceed_of_advance advances]
    refine ⟨size, sized, one_le_instructionSize sized, ?_, (stands.advance advances).inside⟩
    rw [isNext]
  case stays =>
    exact fun error failed => proceed_of_error failed
  case refusals =>
    intro question offset needed available refuses
    rw [← stands.length_rest]
    exact numbers_of_refuses refuses

/-- An entry of a branch table that is cut off after its first byte. -/
example : (after [0x00, 0x45, 0x01, 0, 0, 0, 0x07] 2).offset = 1 ∧
    (after [0x00, 0x45, 0x01, 0, 0, 0, 0x07] 1).operandValue 1 =
      .error (.truncatedStream 1 9 6) := by
  decide +kernel

end Cursor
end CilGraph
