import Bytestream.Decoder.Basic

/-!
# Reads of a fixed number of bytes

The primitive reads take the bytes that they need or none at all: if too few remain, the error tells
how many were needed and how many there were, and the cursor stays.  A word is a run of bytes with
the least significant byte first.
-/

namespace Bytestream

/-- The number that the bytes write in base 256, the least significant byte first. -/
def littleEndian : List UInt8 → Nat
  | [] => 0
  | byte :: rest => byte.toNat + 256 * littleEndian rest

namespace Decoder

/-- The next byte, which stays unread. -/
def peek : Decoder UInt8 := fun c =>
  if hoffset : c.offset < c.data.size then .ok c.data[c.offset] c
  else .error (c.truncated 1) c

def u8 : Decoder UInt8 := fun c =>
  if hoffset : c.offset < c.data.size then
    .ok c.data[c.offset] { c with offset := c.offset + 1, offset_le := hoffset }
  else .error (c.truncated 1) c

/-- The next `count` bytes. -/
def bytes (count : Nat) : Decoder ByteArray := fun c =>
  if hcount : count ≤ c.remaining then .ok (c.slice count) (c.advance count hcount)
  else .error (c.truncated count) c

/-- Passes over the next `count` bytes. -/
def skip (count : Nat) : Decoder Unit := do
  let _ ← bytes count

/-- The number in the next `count` bytes, the least significant byte first. -/
def word (count : Nat) : Decoder Nat := do
  let taken ← bytes count
  return littleEndian taken.data.toList

/-- A word of 32 bits in four bytes. -/
def u32LE : Decoder UInt32 := do
  return UInt32.ofNat (← word 4)

/-- A word of 64 bits in eight bytes. -/
def u64LE : Decoder UInt64 := do
  return UInt64.ofNat (← word 8)

end Decoder

example : littleEndian [5, 6, 7, 8] = 0x08070605 := by decide

end Bytestream
