/-!
# Sign extension in place

A narrow number in the low bits of a word is extended by setting every bit above it if its sign bit
is set.  If the sign bit is clear the word is left alone, whatever its high bits hold: extension
never clears a bit.
-/

namespace Bytestream.Word

/-- The word of `width` bits with every bit set from `low` upwards. -/
def onesFrom (low : Nat) {width : Nat} : BitVec width :=
  BitVec.allOnes width <<< low

/-- Extends the sign of the low `narrow` bits through the word. -/
def extendSign (narrow : Nat) {width : Nat} (x : BitVec width) : BitVec width :=
  if x.getLsbD (narrow - 1) then x ||| onesFrom narrow else x

example : extendSign 8 (0x80 : BitVec 32) = 0xFFFFFF80 := by decide

example : extendSign 8 (0x12340042 : BitVec 32) = 0x12340042 := by decide

end Bytestream.Word
