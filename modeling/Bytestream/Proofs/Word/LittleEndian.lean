import Mathlib
import Bytestream.LittleEndian

/-!
# The number that some bytes write

The number that bytes write in base 256 is the sum of the bytes, each at the power that belongs to
its place.  The numbers of two runs of bytes make up the number of both together, and the bytes can
be had back from their number and their count.
-/

namespace Bytestream

/-- In a sum over the places of a list, the first element stands at the power zero, and each of the
others one power further up than in the rest of the list. -/
theorem sum_range_length_cons {α : Type} [Inhabited α] (digit : α → Nat) (base : Nat) (head : α)
    (tail : List α) :
    ∑ i ∈ Finset.range (head :: tail).length, digit (head :: tail)[i]! * base ^ i =
      digit head + base * ∑ i ∈ Finset.range tail.length, digit tail[i]! * base ^ i := by
  rw [List.length_cons, Finset.sum_range_succ', Finset.mul_sum, Nat.add_comm]
  congr 1
  · simp
  · apply Finset.sum_congr rfl
    intro i _
    rw [List.getElem!_cons_succ, pow_succ]
    ring

theorem littleEndian_eq_sum (bytes : List UInt8) :
    littleEndian bytes = ∑ i ∈ Finset.range bytes.length, bytes[i]!.toNat * 256 ^ i := by
  induction bytes with
  | nil => rfl
  | cons byte rest ih => rw [littleEndian, ih, sum_range_length_cons UInt8.toNat]

theorem littleEndian_eq_ofDigits (bytes : List UInt8) :
    littleEndian bytes = Nat.ofDigits 256 (bytes.map UInt8.toNat) := by
  induction bytes with
  | nil => rfl
  | cons byte rest ih => rw [littleEndian, ih, List.map_cons, Nat.ofDigits_cons]

/-- Later bytes count for as many powers of 256 more as there are bytes before them. -/
theorem littleEndian_append (front back : List UInt8) :
    littleEndian (front ++ back) = littleEndian front + 256 ^ front.length * littleEndian back := by
  simp only [littleEndian_eq_ofDigits, List.map_append, Nat.ofDigits_append, List.length_map]

/-- Writing the number of some bytes in as many bytes gives these bytes again. -/
theorem toLittleEndian_littleEndian (bytes : List UInt8) :
    toLittleEndian bytes.length (littleEndian bytes) = bytes := by
  induction bytes with
  | nil => rfl
  | cons byte rest ih =>
      have hbyte := byte.toNat_lt
      have hrest : (byte.toNat + 256 * littleEndian rest) / 256 = littleEndian rest := by omega
      have hlow : UInt8.ofNat (byte.toNat + 256 * littleEndian rest) = byte := by
        apply UInt8.toNat_inj.mp
        rw [UInt8.toNat_ofNat', Nat.add_mul_mod_self_left, Nat.mod_eq_of_lt hbyte]
      rw [List.length_cons, littleEndian, toLittleEndian, hrest, hlow, ih]

end Bytestream
