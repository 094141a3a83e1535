/-!
# Floating-point extremes on bit patterns

A binary floating-point number is a sign bit, an exponent field and a fraction field.  The larger
and the smaller of two numbers are chosen on the patterns themselves, so that the result is one of
the operands bit for bit.  A NaN operand wins, the first one if there are two, and of two zeros the
positive one is the larger.

Numbers are compared through their signed magnitudes.  The fields below the sign are ordered as the
magnitudes that they stand for, and both zeros have signed magnitude zero.
-/

namespace Bytestream

/-- The sizes of the fields of a binary floating-point format. -/
structure FloatFormat where
  exponentBits : Nat
  fractionBits : Nat
  /-- Without an exponent field zero would be an infinity. -/
  exponentBits_pos : 0 < exponentBits := by decide
deriving DecidableEq, Repr

namespace FloatFormat

def binary32 : FloatFormat where
  exponentBits := 8
  fractionBits := 23

def binary64 : FloatFormat where
  exponentBits := 11
  fractionBits := 52

/-- The number of bits below the sign. -/
@[reducible] def magnitudeBits (format : FloatFormat) : Nat :=
  format.exponentBits + format.fractionBits

/-- The number of bits of a pattern. -/
@[reducible] def width (format : FloatFormat) : Nat :=
  format.magnitudeBits + 1

/-- The bits below the sign of infinity: the exponent field is full and the fraction is zero. -/
def infinity (format : FloatFormat) : Nat :=
  (BitVec.allOnes format.exponentBits).toNat <<< format.fractionBits

def isNegative (format : FloatFormat) (a : BitVec format.width) : Bool :=
  a.msb

/-- The bits below the sign. -/
def magnitude (format : FloatFormat) (a : BitVec format.width) : Nat :=
  (a.setWidth format.magnitudeBits).toNat

/-- Whether the pattern stands for no number: the exponent field is full and the fraction is not
zero. -/
def isNaN (format : FloatFormat) (a : BitVec format.width) : Bool :=
  decide (format.infinity < format.magnitude a)

/-- The magnitude with the sign of the number. -/
def signedMagnitude (format : FloatFormat) (a : BitVec format.width) : Int :=
  if format.isNegative a then -(format.magnitude a : Int) else format.magnitude a

/-- The larger operand. -/
def max (format : FloatFormat) (a b : BitVec format.width) : BitVec format.width :=
  if format.isNaN a then a
  else if format.isNaN b then b
  else if format.signedMagnitude a = format.signedMagnitude b then
    if format.isNegative a then b else a
  else if format.signedMagnitude b < format.signedMagnitude a then a
  else b

/-- The smaller operand. -/
def min (format : FloatFormat) (a b : BitVec format.width) : BitVec format.width :=
  if format.isNaN a then a
  else if format.isNaN b then b
  else if format.signedMagnitude a = format.signedMagnitude b then
    if format.isNegative a then a else b
  else if format.signedMagnitude a < format.signedMagnitude b then a
  else b

example : binary32.isNaN 0x7F800000 = false ∧ binary32.isNaN 0x7F800001 = true := by decide

example : binary32.max 0x80000000 0 = 0 ∧ binary32.min 0 0x80000000 = 0x80000000 := by decide

end FloatFormat

end Bytestream
