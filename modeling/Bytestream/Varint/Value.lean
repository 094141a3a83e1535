import Mathlib
import Bytestream.Varint.Groups

/-!
# The value of a varint

What the bytes of a varint write is a number of any size: the sum of their groups, each multiplied
by the power of 128 that belongs to its place.  Read as signed, bit 6 of the last byte is the sign,
and a number with the sign set lies one whole power of 128 lower.  Nothing here knows of words or
declared widths.
-/

namespace Bytestream.Varint

/-- The number that the groups of the bytes write in base 128, the least significant group first. -/
def positionalSum : List UInt8 → Nat
  | [] => 0
  | byte :: rest => (payload byte).toNat + 128 * positionalSum rest

/-- Whether the last byte has bit 6 set. -/
def hasSign (bytes : List UInt8) : Bool :=
  bytes.getLast?.any fun last => last.toNat.testBit 6

/-- The number that the bytes write in two's complement. -/
def signedSum (bytes : List UInt8) : Int :=
  positionalSum bytes - if hasSign bytes then 128 ^ bytes.length else 0

/-- A varint is a run of bytes of which all but the last say that another follows. -/
def Terminated (bytes : List UInt8) : Prop :=
  ∃ init last, bytes = init ++ [last] ∧ (∀ byte ∈ init, continues byte = true) ∧
    continues last = false

theorem payload_toNat (byte : UInt8) : (payload byte).toNat = byte.toNat % 128 := by
  simp only [payload, UInt8.toNat_and]
  exact Nat.and_two_pow_sub_one_eq_mod byte.toNat 7

theorem payload_toNat_lt (byte : UInt8) : (payload byte).toNat < 128 := by
  rw [payload_toNat]
  exact Nat.mod_lt _ (by decide)

theorem continues_iff (byte : UInt8) : continues byte = true ↔ 128 ≤ byte.toNat := by
  have hbyte := byte.toNat_lt
  have hhigh : (byte.toNat &&& 0x80) / 2 ^ 7 = byte.toNat / 2 ^ 7 % 2 := by
    rw [Nat.and_div_two_pow]
    exact Nat.and_one_is_mod _
  have hlow : (byte.toNat &&& 0x80) % 2 ^ 7 = 0 := by
    rw [Nat.and_mod_two_pow]
    simp
  rw [continues, bne_iff_ne, ne_eq, ← UInt8.toNat_inj, UInt8.toNat_and]
  change ¬ (byte.toNat &&& 0x80) = 0 ↔ 128 ≤ byte.toNat
  omega

theorem positionalSum_lt (bytes : List UInt8) : positionalSum bytes < 128 ^ bytes.length := by
  induction bytes with
  | nil => simp [positionalSum]
  | cons byte rest ih =>
      have hgroup := payload_toNat_lt byte
      simp only [positionalSum, List.length_cons, Nat.pow_succ]
      omega

/-- Later bytes count for as many powers of 128 more as there are bytes before them. -/
theorem positionalSum_append (front back : List UInt8) :
    positionalSum (front ++ back) =
      positionalSum front + 128 ^ front.length * positionalSum back := by
  induction front with
  | nil => simp [positionalSum]
  | cons byte rest ih =>
      simp only [List.cons_append, positionalSum, ih, List.length_cons, Nat.pow_succ]
      rw [Nat.mul_add, ← Nat.add_assoc, ← Nat.mul_assoc, Nat.mul_comm 128 (128 ^ rest.length)]

example : positionalSum [0xE5, 0x8E, 0x26] = 624485 := by decide

example : signedSum [0x9B, 0xF1, 0x59] = -624485 := by decide

end Bytestream.Varint
