import Bytestream.Machine.Varint
import Bytestream.Read

/-!
# Requests

A request is a read whose numbers are words.  It has a program that decodes it on a machine.  A
place is reachable if a program can come to it: it opens a buffer at an offset, and carries out
requests one after the other, whether they succeed or not.
-/

namespace Bytestream.Machine

variable {α : Type}

def string : Machine ByteString :=
  atomically do
    let size ← u32
    let taken ← bytes size.toUInt64
    return ⟨taken⟩

def name : Machine String :=
  atomically do
    let start ← offset
    let s ← string
    match s.text? with
    | some text => return text
    | none => throw (.failed (.invalidUtf8 start.toNat))

/-- For how many of `count` elements room is made before the first is read: for no more than there
are bytes. -/
def capacity (count : UInt64) : Machine UInt64 := do
  let place ← get
  return min count (← place.remaining)

/-- Reads the last `left` of `count` elements, the first of which has the given index. -/
def elements (element : Machine α) (count : UInt64) : (left : Nat) → (index : UInt64) →
    (done : Array α) → Machine (Array α)
  | 0, _, done => return done
  | left + 1, index, done => do
      let value ← element.context (Decoder.elementContext index.toNat count.toNat)
      let next ← add index 1
      elements element count left next (done.push value)

def vector (element : Machine α) : Machine (Array α) :=
  atomically do
    let count := (← u32).toUInt64
    let _ ← capacity count
    elements element count count.toNat 0 #[]

/-- A description of what to decode, with words for numbers. -/
inductive Request where
  | peek
  | skip (count : UInt64)
  | u8
  | u32LE
  | u64LE
  | bytes (count : UInt64)
  | bytesAgain (count : UInt64)
  | unsigned (maxBits : UInt32)
  | signed (maxBits : UInt32)
  | integer (type : IntType)
  | u32
  | u64
  | i32
  | i64
  | string
  | name
  | vector (element : Request)
  | context (request : Request) (message : String)
deriving DecidableEq, Repr

namespace Request

/-- What the request asks for. -/
@[reducible] def read : Request → Read
  | peek => .peek
  | skip count => .skip count.toNat
  | u8 => .item .u8
  | u32LE => .item .u32LE
  | u64LE => .item .u64LE
  | bytes count | bytesAgain count => .item (.bytes count.toNat)
  | unsigned maxBits => .item (.unsigned maxBits.toNat)
  | signed maxBits => .item (.signed maxBits.toNat)
  | integer type => .item (.integer type)
  | u32 => .item .u32
  | u64 => .item .u64
  | i32 => .item .i32
  | i64 => .item .i64
  | string => .item .string
  | name => .item .name
  | vector element => .vector element.read
  | context request message => .context request.read message

/-- The program that decodes what the request asks for. -/
def program : (request : Request) → Machine request.read.Value
  | peek => Machine.peek
  | skip count => Machine.skip count
  | u8 => Machine.u8
  | u32LE => Machine.u32LE
  | u64LE => Machine.u64LE
  | bytes count => Machine.bytes count
  | bytesAgain count => Machine.bytesAgain count
  | unsigned maxBits => Machine.unsigned maxBits
  | signed maxBits => Machine.signed maxBits
  | integer type => Machine.integer type
  | u32 => Machine.u32
  | u64 => Machine.u64
  | i32 => Machine.i32
  | i64 => Machine.i64
  | string => Machine.string
  | name => Machine.name
  | vector element => Machine.vector element.program
  | context request message => request.program.context message

end Request

/-- The places that a program comes to in a buffer. -/
inductive Reachable (buffer : Buffer) : Place → Prop where
  | opened {offset : UInt64} {place : Place} (hopen : Place.openAt buffer offset = .ok place) :
      Reachable buffer place
  | requested {place : Place} (hplace : Reachable buffer place) (request : Request) :
      Reachable buffer (request.program.after place)

end Bytestream.Machine
