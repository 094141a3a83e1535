import Bytestream.Log.Level

/-!
# Log sinks

A sink receives log records.  It can be asked whether it wants a level at all, and what it does with
a record is the list of what it puts out, so a run of a program that logs is a list as well.

Text for a log can be costly to make.  `Sink.logLazily` makes it only if the sink wants the level,
and the making is an action of its own, so that how often it takes place can be seen.
-/

namespace Bytestream.Log

/-- A receiver of log records that puts out values of type `ω`. -/
structure Sink (ω : Type) where
  /-- Whether the sink wants records of a level. -/
  enabled : Level → Bool
  /-- What the sink puts out for a record. -/
  log : Level → String → List ω

/-- A record as it was received. -/
structure Record where
  level : Level
  message : String
deriving DecidableEq, Repr

namespace Sink

variable {ω : Type}

/-- Logs a text that is rendered only if the sink wants the level. -/
def logLazily {m : Type → Type} [Monad m] (sink : Sink ω) (level : Level) (render : Unit → m String) :
    m (List ω) := do
  if sink.enabled level then
    return sink.log level (← render ())
  else
    return []

/-- What the sink puts out for a record, if it wants its level. -/
def put (sink : Sink ω) (record : Record) : List ω :=
  if sink.enabled record.level then sink.log record.level record.message else []

/-- The sink that is used through a reference.  The reference hands on each question and each record;
lazy logging is not handed on, but goes by these two as it does for any sink. -/
def borrowed (sink : Sink ω) : Sink ω where
  enabled level := sink.enabled level
  log level message := sink.log level message

/-- The sink that wants nothing and puts nothing out. -/
def null : Sink Empty where
  enabled _ := false
  log _ _ := []

/-- The sink that asks for the levels up to a threshold, but keeps every record that it is given. -/
def recorder (threshold : Nat) : Sink Record where
  enabled level := level.passes threshold
  log level message := [{ level, message }]

@[simp] theorem logLazily_id (sink : Sink ω) (level : Level) (render : Unit → String) :
    sink.logLazily (m := Id) level render =
      if sink.enabled level then sink.log level (render ()) else [] := by
  simp only [logLazily]
  split <;> rfl

end Sink

end Bytestream.Log
