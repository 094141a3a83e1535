import Mathlib
import Bytestream.Decoder.Fixed

/-!
# Words as bytes

Writing a number as a fixed count of bytes keeps its remainder modulo the power of 256 that they can
hold, and what the bytes of a word write is below that power.
-/

namespace Bytestream

/-- The lowest `count` bytes of a number, the least significant byte first. -/
def toLittleEndian : (count : Nat) → Nat → List UInt8
  | 0, _ => []
  | count + 1, n => UInt8.ofNat n :: toLittleEndian count (n / 256)

theorem length_toLittleEndian (count n : Nat) : (toLittleEndian count n).length = count := by
  induction count generalizing n with
  | zero => rfl
  | succ count ih => simp [toLittleEndian, ih]

theorem littleEndian_toLittleEndian (count n : Nat) :
    littleEndian (toLittleEndian count n) = n % 256 ^ count := by
  induction count generalizing n with
  | zero => simp [toLittleEndian, littleEndian, Nat.mod_one]
  | succ count ih =>
      rw [toLittleEndian, littleEndian, ih, Nat.pow_succ, Nat.mul_comm (256 ^ count) 256,
        Nat.mod_mul]
      simp

theorem littleEndian_lt (bytes : List UInt8) : littleEndian bytes < 256 ^ bytes.length := by
  induction bytes with
  | nil => simp [littleEndian]
  | cons byte rest ih =>
      have hbyte := byte.toNat_lt
      simp only [littleEndian, List.length_cons, Nat.pow_succ]
      omega

end Bytestream
