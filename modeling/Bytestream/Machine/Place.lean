import Bytestream.Decoder.Fixed
import Bytestream.Machine.Checked

/-!
# Reading on a machine

A place is a cursor as a machine keeps it: a buffer and an offset in one word, with nothing to say
that the offset lies in the buffer.  A program reads at a place and leaves a place behind, and every
sum, difference, slice and copy that it makes is a checked one.
-/

namespace Bytestream

namespace Machine

/-- A buffer whose length is a word. -/
structure Buffer where
  bytes : ByteArray
  size_lt : bytes.size < UInt64.size

/-- The number of bytes in the buffer. -/
def Buffer.length (buffer : Buffer) : UInt64 :=
  UInt64.ofNatLT buffer.bytes.size buffer.size_lt

theorem Buffer.toNat_length (buffer : Buffer) : buffer.length.toNat = buffer.bytes.size :=
  UInt64.toNat_ofNatLT

/-- The bytes from `start` up to `stop`. -/
def Buffer.slice (buffer : Buffer) (start stop : UInt64) : Except Stop ByteArray :=
  checked (start ≤ stop ∧ stop ≤ buffer.length) .slice
    (buffer.bytes.extract start.toNat stop.toNat)

/-- A buffer and the offset of the next byte to read. -/
structure Place where
  buffer : Buffer
  offset : UInt64

namespace Place

/-- The number of bytes from the place to the end of the buffer. -/
def remaining (place : Place) : Except Stop UInt64 :=
  sub place.buffer.length place.offset

/-- The error of a read that needs `needed` bytes where fewer remain. -/
def truncated (place : Place) (needed : UInt64) : Except Stop DecodeError := do
  let available ← place.remaining
  return .truncated place.offset.toNat needed.toNat available.toNat

/-- The place at an offset of a buffer. -/
def openAt (buffer : Buffer) (offset : UInt64) : Except Stop Place :=
  if buffer.length < offset then do
    let missing ← sub offset buffer.length
    throw (.failed (.truncated buffer.length.toNat missing.toNat 0))
  else return { buffer, offset }

end Place

end Machine

/-- A program that reads a value of type `α`. -/
abbrev Machine (α : Type) : Type :=
  EStateM Machine.Stop Machine.Place α

namespace Machine

variable {α β : Type}

/-- A checked operation is a step of a program. -/
instance : MonadLift (Except Stop) Machine where
  monadLift
    | .ok value => pure value
    | .error stop => throw stop

/-- The value that a program yields at a place, or what has stopped it. -/
def result (m : Machine α) (place : Place) : Except Stop α :=
  match m place with
  | .ok value _ => .ok value
  | .error stop _ => .error stop

/-- The place that a program leaves behind, whether it is stopped or not. -/
def after (m : Machine α) (place : Place) : Place :=
  match m place with
  | .ok _ place' => place'
  | .error _ place' => place'

/-- Runs the program on a copy of the place, which is kept only if the program yields a value. -/
def atomically (m : Machine α) : Machine α := fun place =>
  match m place with
  | .ok value place' => .ok value place'
  | .error stop _ => .error stop place

/-- Says of a decode error what was being read.  A fault stays what it is. -/
def context (m : Machine α) (message : String) : Machine α := fun place =>
  match m place with
  | .error (.failed e) place' => .error (.failed (e.nest message)) place'
  | outcome => outcome

def offset : Machine UInt64 := do
  return (← get).offset

def peek : Machine UInt8 := do
  let place ← get
  if hoffset : place.offset.toNat < place.buffer.bytes.size then
    return place.buffer.bytes[place.offset.toNat]
  else throw (.failed (← place.truncated 1))

def u8 : Machine UInt8 := do
  let byte ← peek
  let place ← get
  set { place with offset := ← add place.offset 1 }
  return byte

def bytes (count : UInt64) : Machine ByteArray := do
  let place ← get
  if (← place.remaining) < count then throw (.failed (← place.truncated count))
  else
    let taken ← place.buffer.slice place.offset (← add place.offset count)
    set { place with offset := ← add place.offset count }
    return taken

/-- The next bytes, which are sliced out of the buffer again once their number is known. -/
def bytesAgain (count : UInt64) : Machine ByteArray := do
  let start ← offset
  let size := UInt64.ofNat (← bytes count).size
  let place ← get
  place.buffer.slice start (← add start size)

def skip (count : UInt64) : Machine Unit := do
  let _ ← bytes count

/-- The next bytes, copied to an array of `count` bytes. -/
def array (count : UInt64) : Machine ByteArray := do
  let taken ← bytes count
  copy count taken

def word (count : UInt64) : Machine Nat := do
  let taken ← array count
  return littleEndian taken.data.toList

def u32LE : Machine UInt32 := do
  return UInt32.ofNat (← word 4)

def u64LE : Machine UInt64 := do
  return UInt64.ofNat (← word 8)

/-! ### How programs run -/

@[simp] theorem pure_apply (value : α) (place : Place) :
    (pure value : Machine α) place = .ok value place := rfl

@[simp] theorem throw_apply (stop : Stop) (place : Place) :
    (throw stop : Machine α) place = .error stop place := rfl

@[simp] theorem get_bind (f : Place → Machine β) (place : Place) :
    (get >>= f : Machine β) place = f place place := rfl

@[simp] theorem set_bind (place' : Place) (f : PUnit → Machine β) (place : Place) :
    (set place' >>= f : Machine β) place = f ⟨⟩ place' := rfl

@[simp] theorem offset_bind (f : UInt64 → Machine β) (place : Place) :
    (offset >>= f) place = f place.offset place := rfl

/-- An operation that goes through is a step without any effect. -/
@[simp] theorem liftM_ok_bind (value : α) (f : α → Machine β) (place : Place) :
    ((liftM (Except.ok value : Except Stop α) : Machine α) >>= f) place = f value place := rfl

@[simp] theorem liftM_ok (value : α) (place : Place) :
    (liftM (Except.ok value : Except Stop α) : Machine α) place = .ok value place := rfl

end Machine

end Bytestream
