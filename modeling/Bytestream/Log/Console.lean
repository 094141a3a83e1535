import Bytestream.Log.Sink

/-!
# Console logging

A console logger has a threshold and writes each record that passes it as a line.  Trouble goes to
the error stream and everything else to the output stream.
-/

namespace Bytestream.Log

/-- One of the two streams of a console. -/
inductive Stream where
  | output
  | error
deriving DecidableEq, Repr

/-- A piece of text written to a stream. -/
structure Write where
  stream : Stream
  text : String
deriving DecidableEq, Repr

/-- The text that a list of writes leaves on a stream. -/
def Write.textOn (stream : Stream) (writes : List Write) : String :=
  String.join ((writes.filter fun write => decide (write.stream = stream)).map Write.text)

/-- A logger that writes to the console.  At threshold zero it is silent. -/
structure Console where
  /-- The number of the last level that is written. -/
  threshold : Nat := 0
deriving DecidableEq, Repr

/-- The stream on which records of the level are written. -/
def Level.stream (level : Level) : Stream :=
  if level.isTrouble then .error else .output

namespace Console

/-- The logger that writes records of the level and of every more severe one. -/
def withLevel (level : Level) : Console where
  threshold := level.number

/-- Whether every record is written. -/
def tracing (console : Console) : Bool :=
  Level.trace.passes console.threshold

/-- The console as a sink: a record that it does not want leaves no text behind. -/
def sink (console : Console) : Sink Write where
  enabled level := level.passes console.threshold
  log level message :=
    if level.passes console.threshold then [{ stream := level.stream, text := message ++ "\n" }]
    else []

example : (withLevel .warn).sink.enabled .error = true ∧
    (withLevel .warn).sink.enabled .info = false := by decide

end Console

end Bytestream.Log
