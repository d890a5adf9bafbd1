import CilGraph.Cursor
import CilGraph.Proofs.Result
import CilGraph.Proofs.Stateful

namespace CilGraph
namespace Cursor

/-!
# Stepping over an instruction

A step is refused if the size of the instruction cannot be told, or if the code is cut
off before its end.  The cursor is moved behind both refusals, so wherever a step is
refused the cursor is left where it was.
-/

variable {cursor next : Cursor}

theorem size_pos (opcode : Opcode) : 1 ≤ opcode.size := by
  unfold Opcode.size
  split <;> decide

theorem one_le_instructionSize {size : Nat} (sized : cursor.instructionSize = .ok size) :
    1 ≤ size := by
  obtain ⟨opcode, _, counting⟩ := Result.bind_eq_ok.mp sized
  obtain ⟨count, _, total⟩ := Result.bind_eq_ok.mp counting
  rw [← Except.ok.inj total]
  exact Nat.le_trans (size_pos opcode) (Nat.le_add_right _ _)

/-- What a step does at a cursor. -/
inductive Steps (cursor : Cursor) : Result Bool × Cursor -> Prop
  | unsized {error : Error} (sized : cursor.instructionSize = .error error) :
      Steps cursor (.error error, cursor)
  | cutOff {size : Nat} (sized : cursor.instructionSize = .ok size)
      (lacks : cursor.rest.length < size) : Steps cursor (.error (cursor.truncated size), cursor)
  | moved {size : Nat} (sized : cursor.instructionSize = .ok size)
      (enough : size ≤ cursor.rest.length) :
      Steps cursor (.ok (!(cursor.rest.drop size).isEmpty),
        ⟨cursor.offset + size, cursor.rest.drop size⟩)

theorem steps_proceed (cursor : Cursor) : cursor.Steps cursor.proceed := by
  have read : (get : Stateful Cursor Cursor) cursor = (.ok cursor, cursor) := rfl
  unfold proceed stepOver
  rw [Stateful.bind_apply, read]
  dsimp only
  rw [Stateful.bind_apply]
  cases sized : cursor.instructionSize with
  | error error => exact .unsized sized
  | ok size =>
      rw [Stateful.lift_apply rfl]
      dsimp only
      unfold codeLength
      by_cases lacks : cursor.rest.length < size
      · rw [if_pos (Nat.add_lt_add_left lacks _)]
        exact .cutOff sized lacks
      · rw [if_neg (fun beyond => lacks (Nat.lt_of_add_lt_add_left beyond))]
        exact .moved sized (Nat.le_of_not_lt lacks)

/-- The cursor moves over the bytes of one instruction, which are all there. -/
theorem advance_eq_ok :
    cursor.advance = .ok next ↔
      exists size, cursor.instructionSize = .ok size ∧ size ≤ cursor.rest.length ∧
        next = ⟨cursor.offset + size, cursor.rest.drop size⟩ := by
  have steps := steps_proceed cursor
  unfold advance
  generalize cursor.proceed = outcome at steps
  cases steps with
  | unsized failed =>
      constructor
      · intro impossible
        cases impossible
      · rintro ⟨size, sized, _, _⟩
        rw [failed] at sized
        cases sized
  | cutOff sized lacks =>
      constructor
      · intro impossible
        cases impossible
      · rintro ⟨size, again, enough, _⟩
        rw [sized] at again
        cases again
        exact absurd enough (Nat.not_le_of_lt lacks)
  | @moved size sized enough =>
      constructor
      · intro same
        exact ⟨size, sized, enough, (Except.ok.inj same).symm⟩
      · rintro ⟨other, again, _, isNext⟩
        rw [sized] at again
        cases again
        rw [isNext]

theorem proceed_of_advance (advances : cursor.advance = .ok next) :
    cursor.proceed = (.ok (!next.isExhausted), next) := by
  obtain ⟨size, sized, enough, isNext⟩ := advance_eq_ok.mp advances
  have steps := steps_proceed cursor
  generalize cursor.proceed = outcome at steps
  cases steps with
  | unsized failed =>
      rw [sized] at failed
      cases failed
  | cutOff again lacks =>
      rw [sized] at again
      cases again
      exact absurd enough (Nat.not_le_of_lt lacks)
  | moved again =>
      rw [sized] at again
      cases again
      rw [isNext]
      rfl

/-- A step that is refused leaves the cursor where it was. -/
theorem proceed_of_error {error : Error} (failed : cursor.proceed.1 = .error error) :
    cursor.proceed.2 = cursor := by
  have steps := steps_proceed cursor
  generalize cursor.proceed = outcome at failed steps ⊢
  cases steps with
  | unsized => rfl
  | cutOff => rfl
  | moved => cases failed

theorem advance_eq_error {error : Error} :
    cursor.advance = .error error ↔ cursor.proceed.1 = .error error := by
  unfold advance
  rcases cursor.proceed with ⟨result, later⟩
  cases result <;> simp

/-- What a refusal of a step says. -/
theorem error_of_advance {error : Error} (refused : cursor.advance = .error error) :
    cursor.instructionSize = .error error ∨ exists size, cursor.rest.length < size ∧
      error = cursor.truncated size := by
  have steps := steps_proceed cursor
  have failed := advance_eq_error.mp refused
  generalize cursor.proceed = outcome at failed steps
  cases steps with
  | unsized sized =>
      cases failed
      exact Or.inl sized
  | cutOff sized lacks =>
      cases failed
      exact Or.inr ⟨_, lacks, rfl⟩
  | moved => cases failed

theorem advance_lt (advances : cursor.advance = .ok next) : cursor.offset < next.offset := by
  obtain ⟨size, sized, _, isNext⟩ := advance_eq_ok.mp advances
  rw [isNext]
  exact Nat.lt_add_of_pos_right (one_le_instructionSize sized)

theorem codeLength_of_advance (advances : cursor.advance = .ok next) :
    next.codeLength = cursor.codeLength := by
  obtain ⟨size, _, enough, isNext⟩ := advance_eq_ok.mp advances
  rw [isNext]
  change cursor.offset + size + (cursor.rest.drop size).length = cursor.offset + _
  rw [List.length_drop]
  omega

/-- An instruction takes at least one byte and no more than there are. -/
theorem length_rest_advance (advances : cursor.advance = .ok next) :
    next.rest.length < cursor.rest.length := by
  have moved := advance_lt advances
  have same := codeLength_of_advance advances
  unfold codeLength at same
  omega

end Cursor
end CilGraph
