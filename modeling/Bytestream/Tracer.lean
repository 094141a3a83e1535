import Bytestream.DecodeError.Text
import Bytestream.Item
import Bytestream.Log.Sink

/-!
# Logged decoding runs

A tracer pairs a cursor with a sink and reports each item that is read there: where it starts, and
then either where it ends and its value, or why it failed.  Successes are traced and failures are
told at the debug level.  The sink has no influence on what is read.
-/

namespace Bytestream

open Log

/-- A cursor with a sink for what is read there. -/
structure Tracer (ω : Type) where
  /-- The place of the next read. -/
  cursor : Cursor
  /-- The receiver of the reports. -/
  sink : Sink ω

namespace Tracer

variable {ω : Type}

/-- What comes of reading an item. -/
structure Step (ω α : Type) where
  /-- The value, or why there is none. -/
  result : Except DecodeError α
  tracer : Tracer ω
  /-- What the sink put out about the read. -/
  reports : List ω

/-- The tracer at the start of a buffer. -/
def ofBytes (data : ByteArray) (sink : Sink ω) : Tracer ω where
  cursor := Cursor.ofBytes data
  sink := sink

/-- The report of a read that yielded a value, by what is shown of the value. -/
def successText (label : String) (start stop : Nat) (shown : String) : String :=
  s!"{label} at {start}..{stop}: {shown}"

/-- The report of a read that failed. -/
def failureText (label : String) (start : Nat) (e : DecodeError) : String :=
  s!"{label} at {start} failed: {e.message}"

/-- Runs a decoder and reports the outcome under a label. -/
def traced {α : Type} (t : Tracer ω) (label : String) (inspect : α → String) (d : Decoder α) :
    Step ω α :=
  match d t.cursor with
  | .ok value c =>
      { result := .ok value
        tracer := { t with cursor := c }
        reports := t.sink.logLazily (m := Id) .trace fun _ =>
          successText label t.cursor.offset c.offset (inspect value) }
  | .error e c =>
      { result := .error e
        tracer := { t with cursor := c }
        reports := t.sink.logLazily (m := Id) .debug fun _ =>
          failureText label t.cursor.offset e }

/-- Reads an item and reports the outcome.  Raw bytes are traced by their number alone, and then
sliced out of the buffer again. -/
def read (t : Tracer ω) : (item : Item) → Step ω item.Value
  | .bytes count =>
      let start := t.cursor.offset
      let step := t.traced "bytes" toString do return (← Decoder.bytes count).size
      { result := step.result.map fun size =>
          step.tracer.cursor.data.extract start (start + size)
        tracer := step.tracer
        reports := step.reports }
  | item => t.traced item.label item.inspect item.decoder

end Tracer

end Bytestream
