/-!
# Rotation

A word is rotated by moving its bits along and letting those that fall off one end come in again at
the other.  The amount is any number of 32 bits, and only its remainder modulo the width counts.
-/

namespace Bytestream.Word

/-- Moves every bit up by `amount` places around the word. -/
def rotateUp {width : Nat} (x : BitVec width) (amount : UInt32) : BitVec width :=
  let places := amount.toNat % width
  (x <<< places) ||| (x >>> (width - places))

/-- Moves every bit down by `amount` places around the word. -/
def rotateDown {width : Nat} (x : BitVec width) (amount : UInt32) : BitVec width :=
  let places := amount.toNat % width
  (x >>> places) ||| (x <<< (width - places))

example : rotateUp (0x80000001 : BitVec 32) 33 = 0x00000003 := by decide

example : rotateDown (1 : BitVec 32) 1 = 0x80000000 ∧ rotateDown (1 : BitVec 64) 64 = 1 := by
  decide

end Bytestream.Word
