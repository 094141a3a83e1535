import Mathlib
import Bytestream.Word.Rotate

/-!
# Rotation around the places of a word

The places of a word are counted around it, so they are the integers modulo its width, and a
rotation carries the bit at each place to the place that lies the amount further on.  Every law of
rotations is a law of these sums.  Amounts are added in 32 bits, where a sum may wrap; nothing is
lost by that if the width divides the number of amounts.
-/

namespace Bytestream.Word

variable {width : Nat}

/-! ### Bits around a word -/

theorem getLsbD_rotateUp {i : Nat} (x : BitVec width) (amount : UInt32) (hi : i < width) :
    (rotateUp x amount).getLsbD i =
      x.getLsbD ((i + (width - amount.toNat % width)) % width) := by
  have hplaces : amount.toNat % width < width := Nat.mod_lt _ (by omega)
  rw [rotateUp, ← BitVec.rotateLeft_def, BitVec.getLsbD_rotateLeft, Bool.cond_decide]
  generalize amount.toNat % width = places at hplaces ⊢
  split_ifs with hlow
  · rw [Nat.mod_eq_of_lt (by omega), Nat.add_comm]
  · have hindex : i + (width - places) = i - places + width := by omega
    rw [hindex, Nat.add_mod_right, Nat.mod_eq_of_lt (by omega), decide_eq_true hi, Bool.true_and]

theorem getLsbD_rotateDown {i : Nat} (x : BitVec width) (amount : UInt32) (hi : i < width) :
    (rotateDown x amount).getLsbD i = x.getLsbD ((i + amount.toNat % width) % width) := by
  have hplaces : amount.toNat % width < width := Nat.mod_lt _ (by omega)
  rw [rotateDown, ← BitVec.rotateRight_def, BitVec.getLsbD_rotateRight, Bool.cond_decide]
  generalize amount.toNat % width = places at hplaces ⊢
  split_ifs with hlow
  · rw [Nat.mod_eq_of_lt (by omega), Nat.add_comm]
  · have hindex : i + places = i - (width - places) + width := by omega
    rw [hindex, Nat.add_mod_right, Nat.mod_eq_of_lt (by omega), decide_eq_true hi, Bool.true_and]

/-- The bit at a place, counted around the word. -/
def bitAt (x : BitVec width) (place : ZMod width) : Bool :=
  x.getLsbD place.val

theorem bitAt_natCast (x : BitVec width) (i : Nat) :
    bitAt x (i : ZMod width) = x.getLsbD (i % width) := by
  rw [bitAt, ZMod.val_natCast]

/-- A word is its bits around it. -/
theorem eq_of_bitAt_eq {x y : BitVec width} (hbits : ∀ place, bitAt x place = bitAt y place) :
    x = y := by
  apply BitVec.eq_of_getLsbD_eq
  intro i hi
  have hbit := hbits (i : ZMod width)
  rwa [bitAt_natCast, bitAt_natCast, Nat.mod_eq_of_lt hi] at hbit

@[simp] theorem bitAt_and (x y : BitVec width) (place : ZMod width) :
    bitAt (x &&& y) place = (bitAt x place && bitAt y place) :=
  BitVec.getLsbD_and

@[simp] theorem bitAt_or (x y : BitVec width) (place : ZMod width) :
    bitAt (x ||| y) place = (bitAt x place || bitAt y place) :=
  BitVec.getLsbD_or

@[simp] theorem bitAt_xor (x y : BitVec width) (place : ZMod width) :
    bitAt (x ^^^ y) place = (bitAt x place ^^ bitAt y place) :=
  BitVec.getLsbD_xor

@[simp] theorem bitAt_rotateUp [NeZero width] (x : BitVec width) (amount : UInt32)
    (place : ZMod width) :
    bitAt (rotateUp x amount) place = bitAt x (place - (amount.toNat : ZMod width)) := by
  have hplaces : amount.toNat % width ≤ width := (Nat.mod_lt _ (NeZero.pos width)).le
  have hplace : place - (amount.toNat : ZMod width) =
      ((place.val + (width - amount.toNat % width) : Nat) : ZMod width) := by
    rw [Nat.cast_add, Nat.cast_sub hplaces, ZMod.natCast_zmod_val, ZMod.natCast_self,
      ZMod.natCast_mod]
    ring
  rw [hplace, bitAt_natCast, bitAt, getLsbD_rotateUp x amount place.val_lt]

@[simp] theorem bitAt_rotateDown [NeZero width] (x : BitVec width) (amount : UInt32)
    (place : ZMod width) :
    bitAt (rotateDown x amount) place = bitAt x (place + (amount.toNat : ZMod width)) := by
  have hplace : place + (amount.toNat : ZMod width) =
      ((place.val + amount.toNat % width : Nat) : ZMod width) := by
    rw [Nat.cast_add, ZMod.natCast_zmod_val, ZMod.natCast_mod]
  rw [hplace, bitAt_natCast, bitAt, getLsbD_rotateDown x amount place.val_lt]

/-! ### Amounts -/

/-- Adding amounts in 32 bits is adding them around a word whose width divides their number. -/
theorem natCast_toNat_add (hwidth : width ∣ 2 ^ 32) (c d : UInt32) :
    ((c + d).toNat : ZMod width) = (c.toNat : ZMod width) + (d.toNat : ZMod width) := by
  rw [UInt32.toNat_add, ← Nat.cast_add, ZMod.natCast_eq_natCast_iff]
  exact (Nat.mod_modEq _ _).of_dvd hwidth

theorem rotateUp_rotateUp [NeZero width] (hwidth : width ∣ 2 ^ 32) (x : BitVec width)
    (c d : UInt32) : rotateUp (rotateUp x c) d = rotateUp x (c + d) := by
  apply eq_of_bitAt_eq
  intro place
  rw [bitAt_rotateUp, bitAt_rotateUp, bitAt_rotateUp, natCast_toNat_add hwidth]
  congr 1
  ring

theorem rotateDown_eq_rotateUp [NeZero width] (x : BitVec width) {c d : UInt32}
    (hdvd : width ∣ c.toNat + d.toNat) : rotateDown x c = rotateUp x d := by
  have hsum : (c.toNat : ZMod width) + (d.toNat : ZMod width) = 0 := by
    rw [← Nat.cast_add, ZMod.natCast_eq_zero_iff]
    exact hdvd
  apply eq_of_bitAt_eq
  intro place
  rw [bitAt_rotateDown, bitAt_rotateUp, eq_neg_of_add_eq_zero_left hsum, sub_eq_add_neg]

/-- Rotating by half the width exchanges the halves. -/
theorem rotateUp_half [NeZero width] {half : Nat} (hhalf : width = half + half)
    (hamount : half < 2 ^ 32) (high low : BitVec half) :
    rotateUp (BitVec.ofNat width (2 ^ half * high.toNat + low.toNat)) (UInt32.ofNat half) =
      BitVec.ofNat width (2 ^ half * low.toNat + high.toNat) := by
  have hpos := NeZero.pos width
  have htoNat : (UInt32.ofNat half).toNat % width = half := by
    rw [UInt32.toNat_ofNat', Nat.mod_eq_of_lt hamount, Nat.mod_eq_of_lt (by omega)]
  apply BitVec.eq_of_getLsbD_eq
  intro i hi
  rw [getLsbD_rotateUp _ _ hi, htoNat, BitVec.getLsbD_ofNat, BitVec.getLsbD_ofNat,
    Nat.testBit_two_pow_mul_add _ low.isLt, Nat.testBit_two_pow_mul_add _ high.isLt]
  rcases Nat.lt_or_ge i half with hlow | hhigh
  · have hindex : (i + (width - half)) % width = i + half := by
      rw [Nat.mod_eq_of_lt (by omega)]
      omega
    rw [hindex, if_neg (by omega), if_pos hlow, Nat.add_sub_cancel]
    simp [hi, show i + half < width by omega]
  · have hindex : (i + (width - half)) % width = i - half := by
      rw [show i + (width - half) = i - half + width by omega, Nat.add_mod_right,
        Nat.mod_eq_of_lt (by omega)]
    rw [hindex, if_pos (by omega), if_neg (by omega)]
    simp [hi, show i - half < width by omega]

/-- Rotation is an action of the amounts, added around the word.  It carries the bit at each place to
the place that lies the amount further on, and does nothing if the width divides the amount.  Two
rotations are one by the sum of the amounts, which may wrap.  Rotating up and rotating down undo each
other, and either is the other by an amount that makes up for it.  Both distribute over the operations
on single bits, and rotating by half the width exchanges the halves of a word. -/
theorem rotations_act (hwidth : width ∣ 2 ^ 32) :
    (∀ (x : BitVec width) (c : UInt32) (i : Fin width),
      (rotateUp x c).getLsbD ((i + c.toNat) % width) = x.getLsbD i) ∧
    (∀ (x : BitVec width) (c : UInt32), width ∣ c.toNat → rotateUp x c = x) ∧
    (∀ (x : BitVec width) (c d : UInt32),
      rotateUp (rotateUp x c) d = rotateUp x (c + d)) ∧
    (∀ (x : BitVec width) (c : UInt32),
      rotateDown (rotateUp x c) c = x ∧ rotateUp (rotateDown x c) c = x) ∧
    (∀ (x : BitVec width) (c d : UInt32), width ∣ c.toNat + d.toNat →
      rotateDown x c = rotateUp x d) ∧
    (∀ (x y : BitVec width) (c : UInt32),
      rotateUp (x &&& y) c = rotateUp x c &&& rotateUp y c ∧
        rotateUp (x ||| y) c = rotateUp x c ||| rotateUp y c ∧
        rotateUp (x ^^^ y) c = rotateUp x c ^^^ rotateUp y c ∧
        rotateDown (x &&& y) c = rotateDown x c &&& rotateDown y c ∧
        rotateDown (x ||| y) c = rotateDown x c ||| rotateDown y c ∧
        rotateDown (x ^^^ y) c = rotateDown x c ^^^ rotateDown y c) ∧
    ∀ half : Nat, width = half + half → ∀ high low : BitVec half,
      rotateUp (BitVec.ofNat width (2 ^ half * high.toNat + low.toNat)) (UInt32.ofNat half) =
        BitVec.ofNat width (2 ^ half * low.toNat + high.toNat) := by
  have hpos : 0 < width := Nat.pos_of_dvd_of_pos hwidth (by decide)
  have : NeZero width := ⟨hpos.ne'⟩
  refine ⟨?_, ?_, rotateUp_rotateUp hwidth, ?_, fun x c d => rotateDown_eq_rotateUp x, ?_, ?_⟩
  · intro x c i
    rw [← bitAt_natCast, bitAt_rotateUp, Nat.cast_add, add_sub_cancel_right, bitAt_natCast,
      Nat.mod_eq_of_lt i.isLt]
  · intro x c hdvd
    apply eq_of_bitAt_eq
    intro place
    rw [bitAt_rotateUp, (ZMod.natCast_eq_zero_iff c.toNat width).mpr hdvd, sub_zero]
  · intro x c
    constructor <;>
    · apply eq_of_bitAt_eq
      intro place
      simp
  · intro x y c
    refine ⟨?_, ?_, ?_, ?_, ?_, ?_⟩ <;>
    · apply eq_of_bitAt_eq
      intro place
      simp
  · intro half hhalf
    have hle : width ≤ 2 ^ 32 := Nat.le_of_dvd (by decide) hwidth
    exact rotateUp_half hhalf (by omega)

/-- The widths 32 and 64 divide the number of amounts; a sum of amounts that wraps, and the halves of
a word. -/
theorem rotations_act_on_words :
    32 ∣ 2 ^ 32 ∧ 64 ∣ 2 ^ 32 ∧
      rotateUp (rotateUp (0x80000001 : BitVec 32) 0xFFFFFFFF) 2 = rotateUp 0x80000001 1 ∧
      rotateDown (0x80000001 : BitVec 64) 0xFFFFFFFF = rotateUp 0x80000001 1 ∧
      rotateUp (BitVec.ofNat 64 (2 ^ 32 * 0x01234567 + 0x89ABCDEF)) 32 =
        BitVec.ofNat 64 (2 ^ 32 * 0x89ABCDEF + 0x01234567) := by
  have hword : 32 ∣ 2 ^ 32 := by decide
  have hlong : 64 ∣ 2 ^ 32 := by decide
  refine ⟨hword, hlong, ?_, ?_, ?_⟩
  · exact (rotations_act hword).2.2.1 0x80000001 0xFFFFFFFF 2
  · exact (rotations_act hlong).2.2.2.2.1 0x80000001 0xFFFFFFFF 1 (by decide)
  · exact (rotations_act hlong).2.2.2.2.2.2 32 rfl 0x01234567 0x89ABCDEF

end Bytestream.Word
