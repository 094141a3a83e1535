import Mathlib
import Bytestream.Varint.Value

/-!
# Writing varints

A number has one shortest varint and longer ones that are padded with groups of its sign.  The
writers work on numbers of any size: the low group of a number is its remainder modulo 128 and the
rest of it is its quotient, rounded down, so that negative numbers are written in two's complement
without a word to write them in.
-/

namespace Bytestream.Varint

/-- The byte with the low group of a number that says that another byte follows. -/
def continuationByte (n : Int) : UInt8 :=
  UInt8.ofNat ((n % 128).toNat + 128)

/-- The byte with the low group of a number that ends a varint. -/
def finalByte (n : Int) : UInt8 :=
  UInt8.ofNat (n % 128).toNat

/-- The varint of `n` in `count` bytes.  Groups beyond the number are filled with its sign. -/
def padded : (count : Nat) → (n : Int) → List UInt8
  | 0, _ => []
  | 1, n => [finalByte n]
  | count + 2, n => continuationByte n :: padded (count + 1) (n / 128)

/-- The shortest varint of a natural number. -/
def encodeUnsigned (n : Nat) : List UInt8 :=
  if n < 128 then [finalByte n]
  else continuationByte n :: encodeUnsigned (n / 128)

/-- The shortest varint of an integer.  It ends as soon as what is left is the sign of its last
group. -/
def encodeSigned (n : Int) : List UInt8 :=
  if -64 ≤ n ∧ n < 64 then [finalByte n]
  else continuationByte n :: encodeSigned (n / 128)
termination_by n.natAbs

theorem length_padded (count : Nat) (n : Int) : (padded count n).length = count := by
  fun_induction padded count n with
  | case1 => rfl
  | case2 => rfl
  | case3 count n ih => simp [ih]

example : padded 5 (-1) = [0xFF, 0xFF, 0xFF, 0xFF, 0x7F] := by decide

example : encodeUnsigned 624485 = [0xE5, 0x8E, 0x26] := by cbv

example : encodeSigned (-123456) = [0xC0, 0xBB, 0x78] := by cbv

end Bytestream.Varint
