import Bytestream.Text.Inspect

/-!
# Integers of a fixed width

An integer type is a width and a signedness.  A value of such a type is a word of exactly that many
bits, so no value is out of range, and the type decides whether the word is read as a natural number
or in two's complement.
-/

namespace Bytestream

/-- The width and signedness of an integer. -/
inductive IntType where
  | u8
  | u16
  | u32
  | u64
  | i8
  | i16
  | i32
  | i64
deriving DecidableEq, Repr

namespace IntType

def bits : IntType → Nat
  | u8 | i8 => 8
  | u16 | i16 => 16
  | u32 | i32 => 32
  | u64 | i64 => 64

/-- Whether words are read in two's complement. -/
def isSigned : IntType → Bool
  | i8 | i16 | i32 | i64 => true
  | u8 | u16 | u32 | u64 => false

/-- The name under which values of the type are shown. -/
def name : IntType → String
  | u8 => "U8"
  | u16 => "U16"
  | u32 => "U32"
  | u64 => "U64"
  | i8 => "I8"
  | i16 => "I16"
  | i32 => "I32"
  | i64 => "I64"

theorem bits_le (type : IntType) : type.bits ≤ 64 := by
  cases type <;> decide

theorem bits_pos (type : IntType) : 0 < type.bits := by
  cases type <;> decide

end IntType

/-- An integer together with its type. -/
structure TypedInt where
  /-- The width and signedness. -/
  type : IntType
  /-- The bits of the integer. -/
  word : BitVec type.bits
deriving DecidableEq, Repr

namespace TypedInt

/-- The integer that the word stands for. -/
def value (n : TypedInt) : Int :=
  if n.type.isSigned then n.word.toInt else n.word.toNat

/-- The word widened to 64 bits: the sign is extended if the type has one, and otherwise the high
bits are zero. -/
def bits64 (n : TypedInt) : BitVec 64 :=
  if n.type.isSigned then n.word.signExtend 64 else n.word.setWidth 64

/-- The inspection text: the value behind the name of its type. -/
def inspect (n : TypedInt) : String :=
  Text.inspectTuple n.type.name [toString n.value]

example : (⟨.i8, 0xFF⟩ : TypedInt).value = -1 ∧ (⟨.u8, 0xFF⟩ : TypedInt).value = 255 := by decide

example : (⟨.i8, 0xFF⟩ : TypedInt).bits64 = 0xFFFFFFFFFFFFFFFF := by decide

end TypedInt

end Bytestream
