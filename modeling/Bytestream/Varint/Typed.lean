import Bytestream.Varint.Decode
import Bytestream.IntType

/-!
# Varints of an integer type

A typed read takes a varint of the width of its type and cuts the value down to a word of that
width.  For an unsigned type the word has to be the whole value, and a value that loses bits is an
overflow at the start of the varint.  A signed type reads the low bits in two's complement and
refuses nothing.
-/

namespace Bytestream.Varint

/-- An integer of the given type. -/
def integer (type : IntType) : Decoder TypedInt :=
  Decoder.atomically do
    let start ← Decoder.offset
    if type.isSigned then
      let value ← signed type.bits
      return { type := type, word := value.toBitVec.setWidth type.bits }
    else
      let value ← unsigned type.bits
      let word := value.toBitVec.setWidth type.bits
      if word.toNat = value.toNat then return { type := type, word := word }
      else throw (.overflow type.bits start)

/-- An unsigned integer of 32 bits. -/
def u32 : Decoder UInt32 :=
  Decoder.atomically do
    let start ← Decoder.offset
    let value ← unsigned 32
    let word := value.toUInt32
    if word.toNat = value.toNat then return word
    else throw (.overflow 32 start)

/-- An unsigned integer of 64 bits. -/
def u64 : Decoder UInt64 :=
  unsigned 64

/-- A signed integer of 32 bits: the low half of the value. -/
def i32 : Decoder Int32 := do
  return (← signed 32).toInt32

/-- A signed integer of 64 bits. -/
def i64 : Decoder Int64 :=
  signed 64

end Bytestream.Varint
