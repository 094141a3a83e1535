import Bytestream.Decoder.Prefixed

/-!
# Items

An item is one of the reads that a log of a decoding run speaks of: it has a short label, and the
value that it yields has an inspection text.  Raw bytes are shown by their number alone, because a
log of a large buffer would otherwise repeat the buffer.
-/

namespace Bytestream

/-- A read of one value.  The items `u32LE` and `u64LE` are words of four and eight bytes, and the
integer items without that ending, `u8` apart, are varints. -/
inductive Item where
  | u8
  | u32LE
  | u64LE
  | bytes (count : Nat)
  | unsigned (maxBits : Nat)
  | signed (maxBits : Nat)
  | integer (type : IntType)
  | u32
  | u64
  | i32
  | i64
  | string
  | name
deriving DecidableEq, Repr

namespace Item

/-- The type of the value that a read of the item yields. -/
@[reducible] def Value : Item → Type
  | u8 => UInt8
  | u32LE | u32 => UInt32
  | u64LE | u64 | unsigned _ => UInt64
  | bytes _ => ByteArray
  | signed _ | i64 => Int64
  | i32 => Int32
  | integer _ => TypedInt
  | string => ByteString
  | name => String

def decoder : (item : Item) → Decoder item.Value
  | u8 => Decoder.u8
  | u32LE => Decoder.u32LE
  | u64LE => Decoder.u64LE
  | bytes count => Decoder.bytes count
  | unsigned maxBits => Varint.unsigned maxBits
  | signed maxBits => Varint.signed maxBits
  | integer type => Varint.integer type
  | u32 => Varint.u32
  | u64 => Varint.u64
  | i32 => Varint.i32
  | i64 => Varint.i64
  | string => Decoder.string
  | name => Decoder.name

/-- The name of the item in a log. -/
def label : Item → String
  | u8 => "u8"
  | u32LE => "u32le"
  | u64LE => "u64le"
  | bytes _ => "bytes"
  | unsigned _ => "uleb"
  | signed _ => "sleb"
  | integer _ => "leb"
  | u32 => "uleb32"
  | u64 => "uleb64"
  | i32 => "sleb32"
  | i64 => "sleb64"
  | string => "string"
  | name => "name"

/-- How a log shows the value. -/
def inspect : (item : Item) → item.Value → String
  | u8, value => toString (value : UInt8).toNat
  | u32LE, value | u32, value => toString (value : UInt32).toNat
  | u64LE, value | u64, value | unsigned _, value => toString (value : UInt64).toNat
  | bytes _, value => toString (value : ByteArray).size
  | signed _, value | i64, value => toString (value : Int64).toInt
  | i32, value => toString (value : Int32).toInt
  | integer _, value => (value : TypedInt).inspect
  | string, value => (value : ByteString).inspect
  | name, value => Text.quoted value

end Item

end Bytestream
