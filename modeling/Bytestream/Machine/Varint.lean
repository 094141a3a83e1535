import Bytestream.Machine.Place
import Bytestream.Varint.Typed

/-!
# Varints on a machine

The loop that gathers the groups of a varint counts its shift and its continuation bytes in words of
32 bits.  How many rounds the loop may take is settled before the first of them, by the width alone,
and a loop that goes on after the last is a fault.
-/

namespace Bytestream.Machine

/-- The width that a read of `maxBits` bits has. -/
def clamp (maxBits : UInt32) : UInt32 :=
  max 1 (min maxBits 64)

/-- The most rounds that the loop takes for a width: one for each group and one more. -/
def roundLimit (bits : UInt32) : Nat :=
  Varint.groupLimit bits.toNat + 1

/-- What the loop has gathered when a varint ends. -/
structure Gathered where
  word : UInt64
  shift : UInt32
  last : UInt8

/-- Gathers the rest of a varint that began at `start`, in `rounds` rounds at most.  A group that
lies beyond the word is dropped. -/
def gather (bits : UInt32) (start : UInt64) (maxGroups : UInt32) :
    (rounds : Nat) → (word : UInt64) → (shift continuations : UInt32) → Machine Gathered
  | 0, _, _, _ => throw (.fault .loop)
  | rounds + 1, word, shift, continuations => do
      let byte ← u8
      let word := word ||| (shiftLeft? (Varint.payload byte).toUInt64 shift).getD 0
      let shift ← add32 shift 7
      if Varint.continues byte then
        let continuations ← add32 continuations 1
        if maxGroups < continuations then
          throw (.failed (.overflow bits.toNat start.toNat))
        else gather bits start maxGroups rounds word shift continuations
      else return { word, shift, last := byte }

def groups (bits : UInt32) : Machine Gathered :=
  atomically do
    let maxGroups := (← add32 bits 6) / 7
    let start ← offset
    gather bits start maxGroups (roundLimit bits) 0 0 0

def unsigned (maxBits : UInt32) : Machine UInt64 := do
  return (← groups (clamp maxBits)).word

def signed (maxBits : UInt32) : Machine Int64 := do
  let g ← groups (clamp maxBits)
  if g.shift < clamp maxBits ∧ Varint.signSet g.last = true then
    return (g.word ||| (← shiftLeft 0xFFFFFFFFFFFFFFFF g.shift)).toInt64
  else return g.word.toInt64

def integer (type : IntType) : Machine TypedInt :=
  atomically do
    let start ← offset
    if type.isSigned then
      let value ← signed (UInt32.ofNat type.bits)
      return { type := type, word := value.toBitVec.setWidth type.bits }
    else
      let value ← unsigned (UInt32.ofNat type.bits)
      let word := value.toBitVec.setWidth type.bits
      if word.toNat = value.toNat then return { type := type, word := word }
      else throw (.failed (.overflow type.bits start.toNat))

def u32 : Machine UInt32 :=
  atomically do
    let start ← offset
    let value ← unsigned 32
    let word := value.toUInt32
    if word.toNat = value.toNat then return word
    else throw (.failed (.overflow 32 start.toNat))

def u64 : Machine UInt64 :=
  unsigned 64

def i32 : Machine Int32 := do
  return (← signed 32).toInt32

def i64 : Machine Int64 :=
  signed 64

example : roundLimit 64 = 11 := by decide

end Bytestream.Machine
