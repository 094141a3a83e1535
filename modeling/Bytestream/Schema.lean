import Mathlib
import Bytestream.LittleEndian
import Bytestream.Read
import Bytestream.Varint.Encode

/-!
# Schemas

A schema describes a record field that can be written as well as read.  It stands for one of the
reads, which fixes the type of its values, and for a way to write such a value, so that writing a
value and reading it back can be compared.
-/

namespace Bytestream

/-- A description of what to write and to read back. -/
inductive Schema where
  | u8
  | u32LE
  | u64LE
  | integer (type : IntType)
  | string
  | name
  | vector (element : Schema)
deriving DecidableEq, Repr

namespace Schema

/-- The read of a value of the schema. -/
@[reducible] def toRead : Schema → Read
  | u8 => .item .u8
  | u32LE => .item .u32LE
  | u64LE => .item .u64LE
  | integer type => .item (.integer type)
  | string => .item .string
  | name => .item .name
  | vector element => .vector element.toRead

@[reducible] def Value (schema : Schema) : Type :=
  schema.toRead.Value

def decoder (schema : Schema) : Decoder schema.Value :=
  schema.toRead.decoder

/-- An integer in the shortest varint of its signedness. -/
def encodeInteger (n : TypedInt) : List UInt8 :=
  if n.type.isSigned then Varint.encodeSigned n.value
  else Varint.encodeUnsigned n.value.toNat

def encode : (schema : Schema) → schema.Value → List UInt8
  | u8, value => [value]
  | u32LE, value => toLittleEndian 4 (value : UInt32).toNat
  | u64LE, value => toLittleEndian 8 (value : UInt64).toNat
  | integer _, value => encodeInteger value
  | string, value =>
      Varint.encodeUnsigned (value : ByteString).size ++ (value : ByteString).bytes.data.toList
  | name, value =>
      Varint.encodeUnsigned (value : String).utf8ByteSize ++
        (value : String).toUTF8.data.toList
  | vector element, value =>
      Varint.encodeUnsigned (value : Array element.Value).size ++
        (value : Array element.Value).toList.flatMap element.encode

/-- Whether the value can be read back under the schema: an integer is of the type that the schema
names, and every length fits in the prefix that announces it. -/
def Fits : (schema : Schema) → schema.Value → Prop
  | integer type, value => (value : TypedInt).type = type
  | string, value => (value : ByteString).size < 2 ^ 32
  | name, value => (value : String).utf8ByteSize < 2 ^ 32
  | vector element, value =>
      (value : Array element.Value).size < 2 ^ 32 ∧
        ∀ part ∈ (value : Array element.Value), element.Fits part
  | u8, _ | u32LE, _ | u64LE, _ => True

end Schema

end Bytestream
