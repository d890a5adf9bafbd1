import CilGraph.Image.Reader
import Mathlib.Algebra.BigOperators.Fin

namespace CilGraph
namespace Image

/-!
# Lengths in groups of seven bits

A length ends with its first group whose top bit is clear.  A reader takes up to
five groups and sets the other seven bits of each into a word, at seven times the
position of the group.  Those of the first four groups have their place in the
word.  Of the fifth group only the lowest four have, and the shift drops the
others without a trace.

So a length that is read is the value of its groups modulo `2 ^ 32`, and it is the
value itself exactly if a fifth group is below 16.  An overflow is noticed only by
the number of groups: five that all ask for another one are refused, whatever the
sixth would be, whereas five groups whose value does not fit into a word are read
as something smaller.

A writer makes no such groups.  What it writes for a word has the value of the
word and is no longer than it has to be.
-/

/-! ## Groups and their value -/

/-- A group with its top bit set is followed by another one. -/
def Continues (group : UInt8) : Prop :=
  128 ≤ group.toNat

instance (group : UInt8) : Decidable (Continues group) :=
  inferInstanceAs (Decidable (128 ≤ group.toNat))

/-- Groups are a whole length if the last is the only one that does not continue. -/
inductive Terminated : List UInt8 -> Prop
  | last {group : UInt8} (ends : ¬ Continues group) : Terminated [group]
  | more {group : UInt8} {rest : List UInt8} (continues : Continues group)
      (terminated : Terminated rest) : Terminated (group :: rest)

/-- The number that groups stand for, each by its lowest seven bits and its position. -/
def positional (groups : List UInt8) : Nat :=
  ∑ index : Fin groups.length, groups[index].toNat % 128 * 128 ^ index.val

theorem positional_nil : positional [] = 0 :=
  rfl

theorem positional_cons (group : UInt8) (rest : List UInt8) :
    positional (group :: rest) = group.toNat % 128 + 128 * positional rest := by
  unfold positional
  change ∑ index : Fin (rest.length + 1), _ = _
  rw [Fin.sum_univ_succ, Finset.mul_sum]
  congr 1
  · simp
  · refine Finset.sum_congr rfl fun index _ => ?_
    rw [Fin.val_succ, Nat.pow_succ', Nat.mul_left_comm]
    rfl

theorem positional_lt (groups : List UInt8) : positional groups < 128 ^ groups.length := by
  induction groups with
  | nil => exact Nat.one_pos
  | cons group rest inductionHypothesis =>
      rw [positional_cons, List.length_cons, Nat.pow_succ']
      omega

theorem Terminated.length_pos {groups : List UInt8} (terminated : Terminated groups) :
    0 < groups.length := by
  cases terminated <;> exact Nat.succ_pos _

theorem Terminated.continues_of_mem_take {groups : List UInt8} (terminated : Terminated groups)
    {count : Nat} (before : count < groups.length) :
    forall group, group ∈ groups.take count -> Continues group := by
  induction terminated generalizing count with
  | last ends =>
      rw [Nat.lt_one_iff.mp before]
      exact fun _ member => absurd member List.not_mem_nil
  | more continues terminated inductionHypothesis =>
      cases count with
      | zero => exact fun _ member => absurd member List.not_mem_nil
      | succ count =>
          rw [List.take_succ_cons]
          exact List.forall_mem_cons.mpr
            ⟨continues, inductionHypothesis (Nat.lt_of_succ_lt_succ before)⟩

theorem Terminated.ends {groups : List UInt8} (terminated : Terminated groups) {index : Nat}
    (isLast : groups.length = index + 1) {group : UInt8} (found : groups[index]? = some group) :
    ¬ Continues group := by
  induction terminated generalizing index with
  | last ends =>
      rw [← Nat.succ.inj isLast] at found
      rwa [← Option.some.inj found]
  | more continues terminated inductionHypothesis =>
      rw [List.length_cons] at isLast
      obtain ⟨earlier, isIndex⟩ := Nat.exists_eq_add_of_le' (Nat.le_trans
        terminated.length_pos (Nat.le_of_eq (Nat.succ.inj isLast)))
      subst isIndex
      exact inductionHypothesis (Nat.succ.inj isLast) found

/-- Bytes begin with a whole length, unless all of them continue. -/
theorem exists_terminated_or_continues (bytes : List UInt8) :
    (exists groups after, Terminated groups ∧ bytes = groups ++ after) ∨
      forall group, group ∈ bytes -> Continues group := by
  induction bytes with
  | nil => exact Or.inr fun _ member => absurd member List.not_mem_nil
  | cons group rest inductionHypothesis =>
      by_cases continues : Continues group
      · rcases inductionHypothesis with ⟨groups, after, terminated, split⟩ | others
        · exact Or.inl ⟨group :: groups, after, .more continues terminated,
            congrArg (group :: ·) split⟩
        · exact Or.inr (List.forall_mem_cons.mpr ⟨continues, others⟩)
      · exact Or.inl ⟨[group], rest, .last continues, rfl⟩

/-! ## One group -/

/-- The bits of a group without the top bit. -/
theorem toNat_payload (group : UInt8) : (group &&& 0x7F).toUInt32.toNat = group.toNat % 128 := by
  rw [UInt8.toNat_toUInt32, UInt8.toNat_and]
  exact Nat.and_two_pow_sub_one_eq_mod group.toNat 7

theorem topBit_eq_zero_iff (group : UInt8) : group &&& 0x80 = 0 ↔ ¬ Continues group := by
  have checked : forall value, value < 256 ->
      (UInt8.ofNat value &&& 0x80 = 0 ↔ ¬ 128 ≤ value) := by
    decide +kernel
  have checkedGroup := checked group.toNat group.toNat_lt
  rwa [UInt8.ofNat_toNat] at checkedGroup

/-- Setting bits above those in use is addition, except for the bits that have no
place in the word. -/
theorem or_shiftLeft {known payload shift : UInt32} (low : known.toNat < 2 ^ shift.toNat)
    (shiftBound : shift.toNat < 32) :
    known ||| (payload <<< shift) =
      UInt32.ofNat (known.toNat + payload.toNat * 2 ^ shift.toNat) := by
  have power : 2 ^ 32 = 2 ^ shift.toNat * 2 ^ (32 - shift.toNat) := by
    rw [← Nat.pow_add, Nat.add_sub_cancel' (Nat.le_of_lt shiftBound)]
  have kept : payload.toNat * 2 ^ shift.toNat % 2 ^ 32 =
      2 ^ shift.toNat * (payload.toNat % 2 ^ (32 - shift.toNat)) := by
    rw [power, Nat.mul_comm payload.toNat, Nat.mul_mod_mul_left]
  have fits : known.toNat + payload.toNat * 2 ^ shift.toNat % 2 ^ 32 < 2 ^ 32 := by
    have most : payload.toNat % 2 ^ (32 - shift.toNat) + 1 ≤ 2 ^ (32 - shift.toNat) :=
      Nat.mod_lt _ (Nat.two_pow_pos _)
    rw [kept]
    calc known.toNat + 2 ^ shift.toNat * (payload.toNat % 2 ^ (32 - shift.toNat))
        < 2 ^ shift.toNat + 2 ^ shift.toNat * (payload.toNat % 2 ^ (32 - shift.toNat)) :=
          Nat.add_lt_add_right low _
      _ = 2 ^ shift.toNat * (payload.toNat % 2 ^ (32 - shift.toNat) + 1) := by
          rw [Nat.mul_add, Nat.mul_one, Nat.add_comm]
      _ ≤ 2 ^ shift.toNat * 2 ^ (32 - shift.toNat) := Nat.mul_le_mul_left _ most
      _ = 2 ^ 32 := power.symm
  apply UInt32.toNat_inj.mp
  rw [UInt32.toNat_or, UInt32.toNat_shiftLeft, Nat.mod_eq_of_lt shiftBound, Nat.shiftLeft_eq,
    UInt32.toNat_ofNat', ← Nat.add_mod_mod, Nat.mod_eq_of_lt fits, kept, Nat.or_comm,
    ← Nat.two_pow_add_eq_or_of_lt low, Nat.add_comm]

namespace Reader

theorem byte_cons (offset : Nat) (first : UInt8) (rest : List UInt8) :
    Reader.byte ⟨offset, first :: rest⟩ = .ok (first, ⟨offset + 1, rest⟩) := by
  change Except.ok (UInt8.ofNat (first.toNat + 256 * 0), _) = _
  rw [Nat.mul_zero, Nat.add_zero, UInt8.ofNat_toNat]
  rfl

section Steps

variable (left offset : Nat) (shift known : UInt32)

/-- One step of reading a length. -/
theorem lengthGroups_cons (group : UInt8) (rest : List UInt8) :
    lengthGroups (left + 1) shift known ⟨offset, group :: rest⟩ =
      if Continues group then
        lengthGroups left (shift + 7) (known ||| ((group &&& 0x7F).toUInt32 <<< shift))
          ⟨offset + 1, rest⟩
      else .ok (known ||| ((group &&& 0x7F).toUInt32 <<< shift), ⟨offset + 1, rest⟩) := by
  change (Reader.byte ⟨offset, group :: rest⟩ >>= fun result =>
    (if result.1 &&& 0x80 = 0 then
      pure (known ||| ((result.1 &&& 0x7F).toUInt32 <<< shift))
    else lengthGroups left (shift + 7) (known ||| ((result.1 &&& 0x7F).toUInt32 <<< shift)) :
      Reader UInt32) result.2) = _
  rw [byte_cons]
  by_cases continues : Continues group
  · rw [if_pos continues]
    change (if group &&& 0x80 = 0 then _ else _ : Reader UInt32) _ = _
    rw [if_neg (fun clear => (topBit_eq_zero_iff group).mp clear continues)]
  · rw [if_neg continues]
    change (if group &&& 0x80 = 0 then _ else _ : Reader UInt32) _ = _
    rw [if_pos ((topBit_eq_zero_iff group).mpr continues)]
    rfl

end Steps

/-! ## Whole lengths -/

/-- What was read so far lies below the bits of the next group, and the groups that
may still be read are five with those before. -/
structure Room (left : Nat) (shift known : UInt32) : Prop where
  position : shift.toNat + 7 * left = 35
  low : known.toNat < 2 ^ shift.toNat

namespace Room

variable {left : Nat} {shift known : UInt32}

theorem start : Room 5 0 0 :=
  ⟨rfl, by decide⟩

theorem shift_le (room : Room (left + 1) shift known) : shift.toNat ≤ 28 := by
  have position := room.position
  omega

theorem two_pow_next (room : Room (left + 1) shift known) :
    2 ^ (shift + 7).toNat = 128 * 2 ^ shift.toNat := by
  have bound := room.shift_le
  have next : (shift + 7).toNat = shift.toNat + 7 := by
    rw [UInt32.toNat_add]
    change (shift.toNat + 7) % 2 ^ 32 = _
    omega
  rw [next, Nat.pow_add, Nat.mul_comm]

/-- A group before the fifth has a place in the word for all of its bits. -/
theorem next (room : Room (left + 2) shift known) (group : UInt8) :
    Room (left + 1) (shift + 7) (known ||| ((group &&& 0x7F).toUInt32 <<< shift)) ∧
      (known ||| ((group &&& 0x7F).toUInt32 <<< shift)).toNat =
        known.toNat + group.toNat % 128 * 2 ^ shift.toNat := by
  have position := room.position
  have low : known.toNat + group.toNat % 128 * 2 ^ shift.toNat < 128 * 2 ^ shift.toNat := by
    have most : group.toNat % 128 ≤ 127 := by omega
    calc known.toNat + group.toNat % 128 * 2 ^ shift.toNat
        < 2 ^ shift.toNat + 127 * 2 ^ shift.toNat :=
          Nat.add_lt_add_of_lt_of_le room.low (Nat.mul_le_mul_right _ most)
      _ = 128 * 2 ^ shift.toNat := by omega
  have fits : 128 * 2 ^ shift.toNat ≤ 2 ^ 32 := by
    rw [← Nat.pow_add 2 7]
    exact Nat.pow_le_pow_right (by decide) (by omega)
  have sum : (known ||| ((group &&& 0x7F).toUInt32 <<< shift)).toNat =
      known.toNat + group.toNat % 128 * 2 ^ shift.toNat := by
    rw [or_shiftLeft room.low (by omega), toNat_payload]
    exact UInt32.toNat_ofNat_of_lt' (Nat.lt_of_lt_of_le low fits)
  refine ⟨⟨?_, ?_⟩, sum⟩
  · rw [UInt32.toNat_add]
    change (shift.toNat + 7) % 2 ^ 32 + _ = _
    omega
  · rwa [sum, room.two_pow_next]

end Room

/-- Groups of a whole length add their value, at the present shift, to what was read
before them.  The induction is on the groups before the last, which lose no bits. -/
theorem lengthGroups_of_terminated {groups : List UInt8} (terminated : Terminated groups)
    {left : Nat} {shift known : UInt32} (room : Room left shift known)
    (few : groups.length ≤ left) (offset : Nat) (rest : List UInt8) :
    lengthGroups left shift known ⟨offset, groups ++ rest⟩ =
      .ok (UInt32.ofNat (known.toNat + positional groups * 2 ^ shift.toNat),
        ⟨offset + groups.length, rest⟩) := by
  induction terminated generalizing left shift known offset with
  | @last group ends =>
      obtain ⟨others, isLeft⟩ := Nat.exists_eq_add_of_le' few
      subst isLeft
      have bound := room.shift_le
      change lengthGroups (others + 1) shift known ⟨offset, group :: rest⟩ = _
      rw [lengthGroups_cons, if_neg ends, or_shiftLeft room.low (by omega), toNat_payload,
        positional_cons, positional_nil, Nat.mul_zero, Nat.add_zero]
      rfl
  | @more group groups continues terminated inductionHypothesis =>
      have several : 2 ≤ left := Nat.le_trans (Nat.succ_le_succ terminated.length_pos) few
      obtain ⟨others, isLeft⟩ := Nat.exists_eq_add_of_le' several
      subst isLeft
      obtain ⟨roomLater, sum⟩ := room.next group
      have value : known.toNat + positional (group :: groups) * 2 ^ shift.toNat =
          known.toNat + group.toNat % 128 * 2 ^ shift.toNat +
            positional groups * 2 ^ (shift + 7).toNat := by
        rw [positional_cons, room.two_pow_next, Nat.add_mul, Nat.add_assoc, Nat.mul_comm 128,
          Nat.mul_assoc]
      change lengthGroups (others + 2) shift known ⟨offset, group :: (groups ++ rest)⟩ = _
      rw [lengthGroups_cons, if_pos continues,
        inductionHypothesis roomLater (Nat.le_of_succ_le_succ few) (offset + 1), sum, ← value,
        List.length_cons, Nat.add_right_comm, Nat.add_assoc]

/-- Up to five groups of a whole length are read with the value that they have modulo
`2 ^ 32`. -/
theorem length_of_terminated {groups : List UInt8} (terminated : Terminated groups)
    (few : groups.length ≤ 5) (offset : Nat) (rest : List UInt8) :
    Reader.length ⟨offset, groups ++ rest⟩ =
      .ok (UInt32.ofNat (positional groups), ⟨offset + groups.length, rest⟩) := by
  have read := lengthGroups_of_terminated terminated Room.start few offset rest
  simpa [Reader.length] using read

/-- Groups that all continue are refused: as an overflow behind the last that may be
read, and before that as cut off. -/
theorem lengthGroups_of_continues (left : Nat) (shift known : UInt32) (offset : Nat)
    {bytes : List UInt8} (continues : forall group, group ∈ bytes.take left -> Continues group) :
    lengthGroups left shift known ⟨offset, bytes⟩ =
      .error (if left ≤ bytes.length then .lengthOverflow (offset + left)
        else .truncated 1 (offset + bytes.length) 0) := by
  induction left generalizing shift known offset bytes with
  | zero =>
      rw [if_pos (Nat.zero_le _)]
      rfl
  | succ left inductionHypothesis =>
      cases bytes with
      | nil => rfl
      | cons group rest =>
          rw [List.take_succ_cons] at continues
          obtain ⟨continuesHere, continuesLater⟩ := List.forall_mem_cons.mp continues
          rw [lengthGroups_cons, if_pos continuesHere, inductionHypothesis _ _ _ continuesLater,
            List.length_cons, Nat.add_assoc, Nat.add_assoc, Nat.add_comm 1, Nat.add_comm 1]
          simp only [Nat.add_le_add_iff_right]

/-- Five groups that all continue are refused, whatever the sixth is. -/
theorem length_of_overlong {groups : List UInt8} (terminated : Terminated groups)
    (many : 5 < groups.length) (offset : Nat) (rest : List UInt8) :
    Reader.length ⟨offset, groups ++ rest⟩ = .error (.lengthOverflow (offset + 5)) := by
  have firstFive : (groups ++ rest).take 5 = groups.take 5 :=
    List.take_append_of_le_length (Nat.le_of_lt many)
  have enough : 5 ≤ (groups ++ rest).length := by
    rw [List.length_append]
    omega
  have refused := lengthGroups_of_continues 5 0 0 offset
    (firstFive ▸ terminated.continues_of_mem_take many)
  rwa [if_pos enough] at refused

theorem length_of_continues (offset : Nat) {bytes : List UInt8}
    (continues : forall group, group ∈ bytes -> Continues group) :
    Reader.length ⟨offset, bytes⟩ =
      .error (if 5 ≤ bytes.length then .lengthOverflow (offset + 5)
        else .truncated 1 (offset + bytes.length) 0) :=
  lengthGroups_of_continues 5 0 0 offset fun group member =>
    continues group (List.mem_of_mem_take member)

end Reader

/-- Four groups have fewer bits than a word. -/
theorem positional_lt_of_length_le {groups : List UInt8} (short : groups.length ≤ 4) :
    positional groups < 2 ^ 32 :=
  calc positional groups < 128 ^ groups.length := positional_lt groups
    _ ≤ 128 ^ 4 := Nat.pow_le_pow_right (by decide) short
    _ < 2 ^ 32 := by decide

/-- The value of up to five groups fits into a word unless the bits of a fifth one
that have no place there are set. -/
theorem Terminated.positional_lt_iff {groups : List UInt8} (terminated : Terminated groups)
    (few : groups.length ≤ 5) :
    positional groups < 2 ^ 32 ↔
      forall fifth, groups[4]? = some fifth -> fifth.toNat < 16 := by
  rcases Nat.lt_or_eq_of_le few with fewer | five
  · have short : groups.length ≤ 4 := Nat.le_of_lt_succ fewer
    rw [List.getElem?_eq_none short]
    exact iff_of_true (positional_lt_of_length_le short)
      fun fifth impossible => nomatch impossible
  · match groups, five with
    | [first, second, third, fourth, fifth], _ =>
      have ends : ¬ 128 ≤ fifth.toNat := terminated.ends rfl rfl
      have value : positional [first, second, third, fourth, fifth] =
          first.toNat % 128 + 128 * (second.toNat % 128 + 128 * (third.toNat % 128 +
            128 * (fourth.toNat % 128 + 128 * (fifth.toNat % 128)))) := by
        simp only [positional_cons, positional_nil, Nat.mul_zero, Nat.add_zero]
      rw [value]
      constructor
      · intro fits other same
        cases same
        omega
      · intro small
        have bound : fifth.toNat < 16 := small fifth rfl
        omega

/-! ## Lengths that are written -/

theorem not_continues_ofNat {value : Nat} (single : value < 128) :
    ¬ Continues (UInt8.ofNat value) := by
  unfold Continues
  rw [UInt8.toNat_ofNat_of_lt' (show value < 256 by omega)]
  omega

theorem continues_ofNat (value : Nat) : Continues (UInt8.ofNat (value % 128 + 128)) := by
  unfold Continues
  rw [UInt8.toNat_ofNat_of_lt' (show value % 128 + 128 < 256 by omega)]
  omega

section Written

variable {more value : Nat}

theorem div_lt_of_lengthGroups (small : value < 128 ^ (more + 1 + 1)) :
    value / 128 < 128 ^ (more + 1) := by
  rw [Nat.pow_succ] at small
  exact Nat.div_lt_of_lt_mul (by rwa [Nat.mul_comm])

theorem terminated_lengthGroups (small : value < 128 ^ (more + 1)) :
    Terminated (lengthGroups more value) := by
  induction more generalizing value with
  | zero => exact .last (not_continues_ofNat (by simpa using small))
  | succ more inductionHypothesis =>
      unfold lengthGroups
      split
      · rename_i single
        exact .last (not_continues_ofNat single)
      · exact .more (continues_ofNat value) (inductionHypothesis (div_lt_of_lengthGroups small))

theorem positional_lengthGroups (small : value < 128 ^ (more + 1)) :
    positional (lengthGroups more value) = value := by
  have single {value : Nat} (single : value < 128) : positional [UInt8.ofNat value] = value := by
    rw [positional_cons, positional_nil, UInt8.toNat_ofNat_of_lt' (show value < 256 by omega)]
    omega
  induction more generalizing value with
  | zero => exact single (by simpa using small)
  | succ more inductionHypothesis =>
      unfold lengthGroups
      split
      · rename_i isSingle
        exact single isSingle
      · rw [positional_cons, inductionHypothesis (div_lt_of_lengthGroups small),
          UInt8.toNat_ofNat_of_lt' (show value % 128 + 128 < 256 by omega)]
        omega

/-- A length below `128 ^ groups` is written in at most that many groups. -/
theorem length_lengthGroups_le {groups : Nat} (more value : Nat) (some : 0 < groups)
    (small : value < 128 ^ groups) : (lengthGroups more value).length ≤ groups := by
  induction groups generalizing more value with
  | zero => cases some
  | succ groups inductionHypothesis =>
      cases more with
      | zero => exact Nat.succ_le_succ (Nat.zero_le groups)
      | succ more =>
          by_cases single : value < 128
          · rw [lengthGroups, if_pos single]
            exact Nat.succ_le_succ (Nat.zero_le groups)
          · rw [lengthGroups, if_neg single, List.length_cons]
            have several : 0 < groups := by
              refine Nat.pos_of_ne_zero ?_
              intro none
              rw [none] at small
              exact single small
            have quotient : value / 128 < 128 ^ groups := by
              rw [Nat.pow_succ] at small
              exact Nat.div_lt_of_lt_mul (by rwa [Nat.mul_comm])
            exact Nat.succ_le_succ (inductionHypothesis more (value / 128) several quotient)

end Written

/-- What is written for a word is read back, whatever follows. -/
theorem Reader.length_of_written {value : Nat} (bound : value < 2 ^ 32) (offset : Nat)
    (rest : List UInt8) :
    Reader.length ⟨offset, Image.length value ++ rest⟩ =
      .ok (UInt32.ofNat value, ⟨offset + (Image.length value).length, rest⟩) := by
  have small : value < 128 ^ (4 + 1) := Nat.lt_trans bound (by decide)
  have reduced : value % UInt32.size = value := Nat.mod_eq_of_lt bound
  have read := length_of_terminated (terminated_lengthGroups small)
    (length_lengthGroups_le 4 value (Nat.succ_pos 4) small) offset rest
  rw [positional_lengthGroups small] at read
  rwa [Image.length, reduced]

/-! ## All lengths -/

/-- A length that is read was a whole one of at most five groups. -/
theorem Reader.exists_of_length_eq_ok {place later : Place} {value : UInt32}
    (succeeded : Reader.length place = .ok (value, later)) :
    exists groups, Terminated groups ∧ groups.length ≤ 5 ∧ place.rest = groups ++ later.rest ∧
      later.offset = place.offset + groups.length ∧
      value.toNat = positional groups % 2 ^ 32 := by
  rcases place with ⟨offset, bytes⟩
  rcases exists_terminated_or_continues bytes with ⟨groups, after, terminated, split⟩ | continues
  · subst split
    by_cases few : groups.length ≤ 5
    · rw [length_of_terminated terminated few] at succeeded
      cases succeeded
      exact ⟨groups, terminated, few, rfl, rfl, UInt32.toNat_ofNat'⟩
    · rw [length_of_overlong terminated (Nat.lt_of_not_le few)] at succeeded
      cases succeeded
  · rw [length_of_continues offset continues] at succeeded
    cases succeeded

/-- What becomes of the bytes at a place when a length is read there. -/
structure ReadsLength (place : Place) : Prop where
  /-- A length that is accepted ends its groups, and has their value modulo `2 ^ 32`.
  The value is exact if and only if a fifth group is below 16. -/
  accepted : forall value later, Reader.length place = .ok (value, later) ->
    exists groups, Terminated groups ∧ groups.length ≤ 5 ∧ place.rest = groups ++ later.rest ∧
      later.offset = place.offset + groups.length ∧
      value.toNat = positional groups % 2 ^ 32 ∧
      (value.toNat = positional groups ↔
        forall fifth, groups[4]? = some fifth -> fifth.toNat < 16)
  /-- Whether a whole length is accepted depends on the number of its groups alone. -/
  terminated : forall groups after, Terminated groups -> place.rest = groups ++ after ->
    (groups.length ≤ 5 -> exists value,
      Reader.length place = .ok (value, ⟨place.offset + groups.length, after⟩)) ∧
    (5 < groups.length -> Reader.length place = .error (.lengthOverflow (place.offset + 5)))
  /-- A value that does not fit into a word is refused, unless it has five groups. -/
  tooLarge : forall groups after, Terminated groups -> place.rest = groups ++ after ->
    2 ^ 32 ≤ positional groups ->
    (Reader.length place = .error (.lengthOverflow (place.offset + 5)) ↔ groups.length ≠ 5)
  /-- Bytes that never end a length are refused. -/
  unterminated : (forall group, group ∈ place.rest -> Continues group) ->
    Reader.length place = .error (if 5 ≤ place.rest.length then .lengthOverflow (place.offset + 5)
      else .truncated 1 (place.offset + place.rest.length) 0)
  /-- What is written for a word is read back. -/
  written : forall (value : UInt32) after, place.rest = length value.toNat ++ after ->
    Reader.length place =
      .ok (value, ⟨place.offset + (length value.toNat).length, after⟩)

/-- At every place, a length is read as the value of its groups modulo `2 ^ 32`, or
refused because five groups all ask for another one or the bytes end before. -/
theorem length_reads (place : Place) : ReadsLength place := by
  rcases place with ⟨offset, bytes⟩
  constructor
  case accepted =>
    intro value later succeeded
    obtain ⟨groups, terminated, few, split, moved, isValue⟩ :=
      Reader.exists_of_length_eq_ok succeeded
    refine ⟨groups, terminated, few, split, moved, isValue, ?_⟩
    rw [isValue, ← terminated.positional_lt_iff few]
    constructor
    · intro same
      rw [← same]
      exact Nat.mod_lt _ (by decide)
    · exact Nat.mod_eq_of_lt
  case terminated =>
    intro groups after terminated split
    change bytes = groups ++ after at split
    subst split
    exact ⟨fun few => ⟨_, Reader.length_of_terminated terminated few offset after⟩,
      fun many => Reader.length_of_overlong terminated many offset after⟩
  case tooLarge =>
    intro groups after terminated split tooLarge
    change bytes = groups ++ after at split
    subst split
    constructor
    · intro refused five
      rw [Reader.length_of_terminated terminated (Nat.le_of_eq five)] at refused
      cases refused
    · intro notFive
      apply Reader.length_of_overlong terminated
      by_contra few
      have short : groups.length ≤ 4 := by omega
      exact Nat.not_lt_of_le tooLarge (positional_lt_of_length_le short)
  case unterminated => exact Reader.length_of_continues offset
  case written =>
    intro value after split
    change bytes = length value.toNat ++ after at split
    subst split
    rw [Reader.length_of_written value.toNat_lt, UInt32.ofNat_toNat]

/-- Five groups of which only the last has a bit set, one that has no place in a word. -/
def sampleSurplus : List UInt8 :=
  [0x80, 0x80, 0x80, 0x80, 0x10]

theorem terminated_sampleSurplus : Terminated sampleSurplus :=
  .more (by decide) (.more (by decide) (.more (by decide) (.more (by decide) (.last (by decide)))))

theorem positional_sampleSurplus : positional sampleSurplus = 2 ^ 32 := by
  decide +kernel

/-- The five groups are accepted, with a sixth they are refused, and the length of
300 bytes is read back. -/
theorem sampleSurplus_reads :
    Terminated sampleSurplus ∧ 2 ^ 32 ≤ positional sampleSurplus ∧
      (exists value, Reader.length ⟨16, sampleSurplus ++ [0x54]⟩ = .ok (value, ⟨21, [0x54]⟩)) ∧
      Reader.length ⟨16, 0x80 :: sampleSurplus⟩ = .error (.lengthOverflow 21) ∧
      length 300 = [0xAC, 0x02] ∧
      Reader.length ⟨0, [0xAC, 0x02, 0x61]⟩ = .ok (300, ⟨2, [0x61]⟩) := by
  have five := length_reads ⟨16, sampleSurplus ++ [0x54]⟩
  have six := length_reads ⟨16, 0x80 :: sampleSurplus⟩
  have written := length_reads ⟨0, [0xAC, 0x02, 0x61]⟩
  refine ⟨terminated_sampleSurplus, Nat.le_of_eq positional_sampleSurplus.symm, ?_, ?_, ?_, ?_⟩
  · exact (five.terminated sampleSurplus [0x54] terminated_sampleSurplus rfl).1 (by decide)
  · have longer : Terminated (0x80 :: sampleSurplus) := .more (by decide) terminated_sampleSurplus
    exact (six.terminated _ [] longer (List.append_nil _).symm).2 (by decide)
  · decide +kernel
  · exact written.written 300 [0x61] (by decide +kernel)

/-- The five groups stand for `2 ^ 32` and are read as nothing. -/
theorem sampleSurplus_lost :
    Terminated sampleSurplus ∧ positional sampleSurplus = 2 ^ 32 ∧
      Reader.length ⟨0, sampleSurplus⟩ = .ok (0, ⟨5, []⟩) :=
  ⟨terminated_sampleSurplus, positional_sampleSurplus, by decide +kernel⟩

end Image
end CilGraph
