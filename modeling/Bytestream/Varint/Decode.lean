import Bytestream.Varint.Groups

/-!
# Varints of a declared width

The unsigned reading of a varint is the word that its groups make.  The signed reading takes bit 6
of the last byte as the sign and fills the word above the groups with it, but only if the groups
stop short of the declared width: a varint that fills its width carries its own sign bit and is left
as it is.
-/

namespace Bytestream.Varint

/-- Whether the group of the last byte has its sign bit set. -/
def signSet (last : UInt8) : Bool :=
  last &&& 0x40 != 0

/-- The word with every bit set from `shift` upwards. -/
def fillFrom (shift : Nat) : UInt64 :=
  (0xFFFFFFFFFFFFFFFF : UInt64) <<< UInt64.ofNat shift

/-- The word of the groups, with the sign carried into the bits above them if the groups stop short
of `bits` bits. -/
def Groups.extended (g : Groups) (bits : Nat) : UInt64 :=
  if g.width < bits ∧ signSet g.last = true then g.word ||| fillFrom g.width else g.word

/-- An unsigned varint of at most `maxBits` bits.  The width is clamped to one word, but neither is
the value cut down to it nor does a larger value fail. -/
def unsigned (maxBits : Nat) : Decoder UInt64 := do
  return (← groups (clampWidth maxBits)).word

/-- A signed varint of at most `maxBits` bits, with the same bytes as the unsigned one. -/
def signed (maxBits : Nat) : Decoder Int64 := do
  return ((← groups (clampWidth maxBits)).extended (clampWidth maxBits)).toInt64

/-- An unsigned varint at an offset of a buffer, with the offset of the first unread byte. -/
def unsignedAt (data : ByteArray) (offset maxBits : Nat) : Except DecodeError (UInt64 × Nat) :=
  (unsigned maxBits).runAt data offset

/-- A signed varint at an offset of a buffer, with the offset of the first unread byte. -/
def signedAt (data : ByteArray) (offset maxBits : Nat) : Except DecodeError (Int64 × Nat) :=
  (signed maxBits).runAt data offset

end Bytestream.Varint
