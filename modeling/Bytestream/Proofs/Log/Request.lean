import Mathlib
import Bytestream.Log.Console
import Bytestream.Log.Tracing

/-!
# Requests to a sink

A program asks a sink to log a text that it has, or one that is rendered only if the sink wants it.
Whether the two come to the same depends on the sink: it has to drop, by itself, every record of a
level that it does not want.  The null sink and consoles do so, and the sink of a tracing facility
does so if the facility drops the events that it does not want.  It makes no difference if these are
used through a reference.  A sink that keeps whatever it is given does not filter.
-/

namespace Bytestream.Log

/-- What a program asks of a sink. -/
inductive Request where
  /-- To log a text that is there already. -/
  | log (record : Record)
  /-- To log a text that is still to be rendered. -/
  | logLazily (record : Record)
deriving DecidableEq, Repr

/-- The record that the request is about. -/
def Request.record : Request → Record
  | log record => record
  | logLazily record => record

/-- How often the text of the request is to be rendered, by whether its level is wanted. -/
def Request.due (wanted : Bool) : Request → Nat
  | log _ => 0
  | logLazily _ => if wanted then 1 else 0

/-- What comes of a request. -/
structure Reaction (ω : Type) where
  /-- What the sink puts out. -/
  output : List ω
  /-- How often the text is rendered. -/
  renderings : Nat
deriving DecidableEq, Repr

/-- A text that counts how often it is rendered. -/
def counted (message : String) : StateM Nat String := do
  modify (· + 1)
  return message

namespace Sink

variable {ω : Type}

/-- Puts a request to the sink. -/
def react (sink : Sink ω) : Request → Reaction ω
  | .log record => { output := sink.log record.level record.message, renderings := 0 }
  | .logLazily record =>
      let answer := (sink.logLazily record.level fun _ => counted record.message).run 0
      { output := answer.1, renderings := answer.2 }

theorem react_logLazily (sink : Sink ω) (record : Record) :
    sink.react (.logLazily record) =
      { output := sink.put record, renderings := if sink.enabled record.level then 1 else 0 } := by
  rw [react, logLazily, put]
  split <;> rfl

/-- The sink drops every record of a level that it does not want. -/
def Filters (sink : Sink ω) : Prop :=
  ∀ record : Record, sink.enabled record.level = false → sink.log record.level record.message = []

/-- A sink that filters does not mind whether a text is rendered lazily. -/
theorem Filters.react_eq {sink : Sink ω} (hfilters : sink.Filters) (request : Request) :
    sink.react request =
      { output := sink.put request.record
        renderings := request.due (sink.enabled request.record.level) } := by
  cases request with
  | log record =>
      have hlog : sink.log record.level record.message = sink.put record := by
        rw [put]
        split
        case isTrue => rfl
        case isFalse hunwanted => exact hfilters record (Bool.eq_false_of_not_eq_true hunwanted)
      rw [react, hlog]
      rfl
  | logLazily record => exact react_logLazily sink record

/-- The sinks that a program can log to: the null sink, a console, a tracing facility with a
subscriber for the verbosities up to a limit, and any of these through a reference. -/
inductive Provided : {ω : Type} → Sink ω → Prop
  | null : Provided null
  | console (console : Console) : Provided console.sink
  | tracing {ω : Type} {facility : Facility ω} {limit : Nat} (hlimited : facility.Limited limit) :
      Provided (tracing facility)
  | borrowed {ω : Type} {sink : Sink ω} (hsink : Provided sink) : Provided sink.borrowed

theorem filters_null : null.Filters := by
  intro record _
  rfl

theorem filters_console (console : Console) : console.sink.Filters := by
  intro record hunwanted
  exact if_neg (Bool.eq_false_iff.mp hunwanted)

/-- A facility is told of a record at the verbosity of the same number. -/
theorem log_tracing (facility : Facility ω) {level : Level} {verbosity : Verbosity}
    (hnumber : verbosity.number = level.number) (message : String) :
    (tracing facility).log level message = facility.event verbosity message := by
  revert hnumber
  cases level <;> cases verbosity <;>
    simp [tracing, Facility.event, Level.number, Verbosity.number]

/-- A facility is asked about a level at the verbosity of the same number. -/
theorem enabled_tracing (facility : Facility ω) {level : Level} {verbosity : Verbosity}
    (hnumber : verbosity.number = level.number) :
    (tracing facility).enabled level = facility.enabled verbosity := by
  revert hnumber
  cases level <;> cases verbosity <;> simp [tracing, Level.number, Verbosity.number]

/-- A level is wanted if its own number is within the limit of the facility. -/
theorem enabled_tracing_iff {facility : Facility ω} {limit : Nat}
    (hlimited : facility.Limited limit) (level : Level) :
    (tracing facility).enabled level = true ↔ level.number ≤ limit := by
  obtain ⟨verbosity, hnumber⟩ := level.exists_verbosity
  rw [enabled_tracing facility hnumber, hlimited.enabled_iff, hnumber]

/-- The sink drops what the facility drops, because both times it goes by the same verbosity. -/
theorem filters_tracing {facility : Facility ω} {limit : Nat} (hlimited : facility.Limited limit) :
    (tracing facility).Filters := by
  intro record hunwanted
  obtain ⟨verbosity, hnumber⟩ := record.level.exists_verbosity
  rw [enabled_tracing facility hnumber] at hunwanted
  rw [log_tracing facility hnumber]
  exact hlimited.dropped verbosity record.message hunwanted

theorem Provided.filters {sink : Sink ω} (hsink : sink.Provided) : sink.Filters := by
  induction hsink with
  | null => exact filters_null
  | console console => exact filters_console console
  | tracing hlimited => exact filters_tracing hlimited
  | borrowed hsink ih => exact ih

-- The recorder asks for levels but keeps every record, so it can tell the two requests apart.
example : ((recorder 2).react (.log ⟨.info, "kept"⟩)).output = [⟨.info, "kept"⟩] ∧
    ((recorder 2).react (.logLazily ⟨.info, "kept"⟩)).output = [] := by decide

end Sink

end Bytestream.Log
