import Bytestream.Item

/-!
# Reads

A read is a term that says what is to be decoded: an item, a look at the next byte, a step over some
bytes, a vector of reads, or a read with a context.  Vectors may hold vectors to any depth.  Its
meaning is `Read.decoder`, and what holds of every read is proved by induction on the term.
-/

namespace Bytestream

/-- A description of what to decode. -/
inductive Read where
  /-- The next byte, which stays unread. -/
  | peek
  /-- The next `count` bytes are passed over. -/
  | skip (count : Nat)
  | item (item : Item)
  /-- As many elements as a length announces. -/
  | vector (element : Read)
  /-- A read whose failure is described by `message`. -/
  | context (read : Read) (message : String)
deriving DecidableEq, Repr

namespace Read

/-- The type of the value that a read yields. -/
@[reducible] def Value : Read → Type
  | peek => UInt8
  | skip _ => Unit
  | item i => i.Value
  | vector element => Array element.Value
  | context read _ => read.Value

/-- Decodes what the read describes. -/
def decoder : (read : Read) → Decoder read.Value
  | peek => Decoder.peek
  | skip count => Decoder.skip count
  | item i => i.decoder
  | vector element => Decoder.vector element.decoder
  | context read message => read.decoder.context message

/-- Adds contexts one after the other, so that the last becomes the outermost. -/
def withContexts (read : Read) (messages : List String) : Read :=
  messages.foldl context read

end Read

end Bytestream
