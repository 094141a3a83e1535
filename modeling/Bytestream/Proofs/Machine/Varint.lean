import Mathlib
import Bytestream.Machine.Varint
import Bytestream.Proofs.Machine.Simulation
import Bytestream.Proofs.Varint.Consumption

/-!
# Varints without faults

The width is clamped before anything is computed from it, so a varint has ten groups at most.  Each
round of the loop adds seven to the shift and one to the continuation bytes, and the shift is seven
times their number: neither comes near the end of its word, and the rounds last until the
continuation bytes exceed the groups.  A sign is filled in only where the shift is below the width,
which is no wider than the word.
-/

namespace Bytestream.Machine

open Varint

theorem toNat_clamp (maxBits : UInt32) : (clamp maxBits).toNat = clampWidth maxBits.toNat := by
  rw [clamp, UInt32.toNat_max, UInt32.toNat_min]
  rfl

theorem toNat_clamp_le (maxBits : UInt32) : (clamp maxBits).toNat ≤ 64 := by
  rw [toNat_clamp]
  exact clampWidth_le maxBits.toNat

theorem getD_shiftLeft? (group : UInt8) (shift : UInt32) :
    (shiftLeft? group.toUInt64 shift).getD 0 = place group shift.toNat := by
  rw [shiftLeft?, place]
  by_cases hshift : shift.toNat < 64
  · simp [hshift]
  · simp [hshift]

theorem shiftLeft_eq_fillFrom (shift : UInt32) :
    (0xFFFFFFFFFFFFFFFF : UInt64) <<< shift.toUInt64 = fillFrom shift.toNat := by
  simp [fillFrom]

/-- The loop has gathered what the groups of a varint amount to. -/
structure Gathered.Gathers (gathered : Gathered) (g : Groups) : Prop where
  word_eq : gathered.word = g.word
  shift_eq : gathered.shift.toNat = g.width
  last_eq : gathered.last = g.last

/-- What holds before each round of the loop: the continuation bytes so far and those that may still
follow make up the groups, each of them has moved the shift by seven, and there is a round for each
byte that may still follow and one more. -/
structure Turn (maxGroups : UInt32) (rounds allowance : Nat) (shift continuations : UInt32) :
    Prop where
  groups_le : maxGroups.toNat ≤ 10
  shift_eq : shift.toNat = 7 * continuations.toNat
  allowance_eq : continuations.toNat + allowance = maxGroups.toNat
  rounds_eq : rounds = allowance + 1

namespace Turn

variable {maxGroups : UInt32} {rounds allowance : Nat} {shift continuations : UInt32}

theorem continuations_le (hturn : Turn maxGroups rounds allowance shift continuations) :
    continuations.toNat ≤ 10 :=
  (Nat.le_add_right _ allowance).trans (hturn.allowance_eq ▸ hturn.groups_le)

theorem add_shift (hturn : Turn maxGroups rounds allowance shift continuations) :
    ∃ shift', add32 shift 7 = .ok shift' ∧ shift'.toNat = shift.toNat + 7 := by
  have hsum : shift.toNat + (7 : UInt32).toNat < UInt32.size := by
    have hle := hturn.continuations_le
    rw [hturn.shift_eq]
    exact Nat.lt_of_le_of_lt (Nat.add_le_add_right (Nat.mul_le_mul_left 7 hle) 7) (by decide)
  exact ⟨_, add32_of_lt hsum⟩

theorem add_continuation (hturn : Turn maxGroups rounds allowance shift continuations) :
    ∃ continuations', add32 continuations 1 = .ok continuations' ∧
      continuations'.toNat = continuations.toNat + 1 := by
  have hsum : continuations.toNat + (1 : UInt32).toNat < UInt32.size :=
    Nat.lt_of_le_of_lt (Nat.add_le_add_right hturn.continuations_le 1) (by decide)
  exact ⟨_, add32_of_lt hsum⟩

/-- A round that reads a continuation byte is followed by one fewer. -/
theorem next (hturn : Turn maxGroups (rounds + 1) (allowance + 1) shift continuations)
    {shift' continuations' : UInt32} (hshift : shift'.toNat = shift.toNat + 7)
    (hcontinuations : continuations'.toNat = continuations.toNat + 1) :
    Turn maxGroups rounds allowance shift' continuations' where
  groups_le := hturn.groups_le
  shift_eq := by rw [hshift, hcontinuations, hturn.shift_eq, Nat.mul_add]
  allowance_eq := by rw [hcontinuations, Nat.add_assoc, Nat.add_comm 1, hturn.allowance_eq]
  rounds_eq := Nat.succ.inj hturn.rounds_eq

end Turn

/-- The loop is over before its rounds are: in the round after the last group, a byte that says that
another follows is an overflow. -/
theorem simulates_gather (bits : UInt32) (start : UInt64) {maxGroups : UInt32}
    {rounds allowance : Nat} (word : UInt64) {shift continuations : UInt32}
    (hturn : Turn maxGroups rounds allowance shift continuations) :
    Simulates Gathered.Gathers (gather bits start maxGroups rounds word shift continuations)
      (readGroups bits.toNat start.toNat allowance word shift.toNat) := by
  induction rounds generalizing allowance word shift continuations with
  | zero => exact absurd hturn.rounds_eq (Nat.succ_ne_zero allowance).symm
  | succ rounds ih =>
      obtain ⟨shift', hshift, hshiftNat⟩ := hturn.add_shift
      obtain ⟨continuations', hcontinuations, hcontinuationsNat⟩ := hturn.add_continuation
      rw [gather, readGroups]
      apply simulates_u8.bind
      rintro byte _ rfl
      apply Simulates.lift hshift
      rw [getD_shiftLeft?, ← hshiftNat]
      by_cases hbyte : continues byte = true
      · simp only [hbyte, ↓reduceIte]
        apply Simulates.lift hcontinuations
        rcases allowance with _ | allowance
        · have hover : maxGroups < continuations' := by
            rw [UInt32.lt_iff_toNat_lt, hcontinuationsNat, ← hturn.allowance_eq]
            exact Nat.lt_succ_self _
          simp only [hover, ↓reduceIte]
          exact simulates_throw _
        · have hnot : ¬ maxGroups < continuations' := by
            rw [UInt32.lt_iff_toNat_lt, hcontinuationsNat, ← hturn.allowance_eq]
            omega
          simp only [hnot, ↓reduceIte]
          exact ih _ (hturn.next hshiftNat hcontinuationsNat)
      · simp only [hbyte, Bool.false_eq_true, ↓reduceIte]
        exact simulates_pure ⟨rfl, rfl, rfl⟩

/-- The groups of a clamped width are counted without a fault. -/
theorem exists_maxGroups {bits : UInt32} (hbits : bits.toNat ≤ 64) :
    ∃ sum, add32 bits 6 = .ok sum ∧ (sum / 7).toNat = groupLimit bits.toNat := by
  have hsum : bits.toNat + (6 : UInt32).toNat < UInt32.size :=
    Nat.lt_of_le_of_lt (Nat.add_le_add_right hbits 6) (by decide)
  obtain ⟨hadd, hsumNat⟩ := add32_of_lt hsum
  refine ⟨_, hadd, ?_⟩
  rw [UInt32.toNat_div, hsumNat]
  rfl

theorem simulates_groups {bits : UInt32} (hbits : bits.toNat ≤ 64) :
    Simulates Gathered.Gathers (groups bits) (Varint.groups bits.toNat) := by
  obtain ⟨sum, hadd, hgroups⟩ := exists_maxGroups hbits
  have hturn : Turn (sum / 7) (roundLimit bits) (groupLimit bits.toNat) 0 0 :=
    { groups_le := hgroups ▸ groupLimit_le hbits
      shift_eq := rfl
      allowance_eq := (Nat.zero_add _).trans hgroups.symm
      rounds_eq := rfl }
  apply Simulates.atomically
  apply Simulates.lift hadd
  apply simulates_offset.bind
  rintro start _ rfl
  exact simulates_gather bits start 0 hturn

theorem simulates_unsigned (maxBits : UInt32) :
    Simulates Eq (unsigned maxBits) (Varint.unsigned maxBits.toNat) := by
  rw [Varint.unsigned, ← toNat_clamp]
  exact (simulates_groups (toNat_clamp_le maxBits)).map fun _ _ hgathers => hgathers.word_eq

/-- The sign is shifted only below the width, which is no wider than a word. -/
theorem simulates_signed (maxBits : UInt32) :
    Simulates Eq (signed maxBits) (Varint.signed maxBits.toNat) := by
  rw [Varint.signed, ← toNat_clamp]
  apply (simulates_groups (toNat_clamp_le maxBits)).bind
  rintro ⟨word, shift, last⟩ ⟨_, _, _⟩ ⟨rfl, rfl, rfl⟩
  simp only [Groups.extended, UInt32.lt_iff_toNat_lt]
  by_cases hfill : shift.toNat < (clamp maxBits).toNat ∧ signSet last = true
  · have hshift : shift.toNat < 64 := Nat.lt_of_lt_of_le hfill.1 (toNat_clamp_le maxBits)
    simp only [hfill, and_self, ↓reduceIte]
    apply Simulates.lift (shiftLeft_of_lt hshift _)
    rw [shiftLeft_eq_fillFrom]
    exact simulates_pure rfl
  · simp only [hfill, ↓reduceIte]
    exact simulates_pure rfl

theorem toNat_bits (type : IntType) : (UInt32.ofNat type.bits).toNat = type.bits := by
  rcases type <;> rfl

theorem simulates_integer (type : IntType) :
    Simulates Eq (integer type) (Varint.integer type) := by
  have hsigned := simulates_signed (UInt32.ofNat type.bits)
  have hunsigned := simulates_unsigned (UInt32.ofNat type.bits)
  rw [toNat_bits] at hsigned hunsigned
  apply Simulates.atomically
  apply simulates_offset.bind
  rintro start _ rfl
  by_cases htype : type.isSigned = true
  · simp only [htype, ↓reduceIte]
    exact hsigned.map fun _ _ hvalue => by rw [hvalue]
  · simp only [htype, Bool.false_eq_true, ↓reduceIte]
    apply hunsigned.bind
    rintro value _ rfl
    split
    · exact simulates_pure rfl
    · exact simulates_throw _

theorem simulates_u32 : Simulates Eq u32 Varint.u32 := by
  apply Simulates.atomically
  apply simulates_offset.bind
  rintro start _ rfl
  apply (simulates_unsigned 32).bind
  rintro value _ rfl
  dsimp only
  split
  · exact simulates_pure rfl
  · exact simulates_throw _

theorem simulates_u64 : Simulates Eq u64 Varint.u64 :=
  simulates_unsigned 64

theorem simulates_i32 : Simulates Eq i32 Varint.i32 :=
  (simulates_signed 32).map fun _ _ hvalue => congrArg Int64.toInt32 hvalue

theorem simulates_i64 : Simulates Eq i64 Varint.i64 :=
  simulates_signed 64

end Bytestream.Machine
