import Bytestream.Cursor

/-!
# Decoders

A decoder reads a value at a cursor.  It always leaves a cursor behind, after a failure as well as
after a success, so it is a statement about a decoder, and no mere consequence of its type, that a
failed read moves nothing.  `atomically` is how a decoder that reads in several parts comes to have
this property.
-/

namespace Bytestream

/-- A read of a value of type `α`, from a cursor to a cursor, which may fail. -/
abbrev Decoder (α : Type) : Type :=
  EStateM DecodeError Cursor α

namespace Decoder

variable {α : Type}

/-- The offset at which the next read starts. -/
def offset : Decoder Nat := fun c => .ok c.offset c

/-- Reads as `d` does, but goes back to the start if `d` fails. -/
@[inline] def atomically (d : Decoder α) : Decoder α := fun c =>
  match d c with
  | .ok value c' => .ok value c'
  | .error e _ => .error e c

/-- Reads as `d` does and changes the error of a failure. -/
@[inline] def mapError (change : DecodeError → DecodeError) (d : Decoder α) : Decoder α := fun c =>
  match d c with
  | .ok value c' => .ok value c'
  | .error e c' => .error (change e) c'

/-- Reads as `d` does and says of a failure what was being read. -/
def context (d : Decoder α) (message : String) : Decoder α :=
  d.mapError fun e => e.nest message

/-- The value read at a cursor, or the error. -/
def result (d : Decoder α) (c : Cursor) : Except DecodeError α :=
  match d c with
  | .ok value _ => .ok value
  | .error e _ => .error e

/-- The cursor after a read, successful or not. -/
def after (d : Decoder α) (c : Cursor) : Cursor :=
  match d c with
  | .ok _ c' => c'
  | .error _ c' => c'

/-- Reads at an offset of a buffer.  The value comes with the offset of the first unread byte. -/
def runAt (d : Decoder α) (data : ByteArray) (offset : Nat) : Except DecodeError (α × Nat) :=
  match Cursor.openAt data offset with
  | .ok c =>
      match d c with
      | .ok value c' => .ok (value, c'.offset)
      | .error e _ => .error e
  | .error e => .error e

end Decoder

end Bytestream
