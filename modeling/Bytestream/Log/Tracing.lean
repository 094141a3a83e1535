import Bytestream.Log.Sink

/-!
# Logging to a tracing facility

A program may hand its log to a tracing facility that is none of its own.  The facility has its own
verbosities, which it can be asked about, and an operation of its own for the events of each.  What
it does with an event, and whether it drops one that nobody wants, is not settled here.

The sink asks and tells the facility level by level, each time at the verbosity of the same name.
-/

namespace Bytestream.Log

/-- How verbose an event is, as a facility has it. -/
inductive Verbosity where
  | error
  | warn
  | info
  | debug
  | trace
deriving DecidableEq, Repr

/-- The place of the verbosity among all, the least verbose one being the first. -/
def Verbosity.number : Verbosity → Nat
  | error => 1
  | warn => 2
  | info => 3
  | debug => 4
  | trace => 5

/-- Each level has a verbosity of the same number. -/
theorem Level.exists_verbosity (level : Level) :
    ∃ verbosity : Verbosity, verbosity.number = level.number := by
  cases level with
  | error => exact ⟨.error, rfl⟩
  | warn => exact ⟨.warn, rfl⟩
  | info => exact ⟨.info, rfl⟩
  | debug => exact ⟨.debug, rfl⟩
  | trace => exact ⟨.trace, rfl⟩

/-- What a program sees of a tracing facility that puts out values of type `ω`. -/
structure Facility (ω : Type) where
  /-- Whether events of a verbosity are wanted at all. -/
  enabled : Verbosity → Bool
  /-- What is put out when the facility is told of an error. -/
  error : String → List ω
  /-- What is put out when the facility is told of a warning. -/
  warn : String → List ω
  /-- What is put out when the facility is told of something worth knowing. -/
  info : String → List ω
  /-- What is put out when the facility is told of a detail. -/
  debug : String → List ω
  /-- What is put out when the facility is told of a single step. -/
  trace : String → List ω

namespace Facility

variable {ω : Type}

/-- What is put out when the facility is told of an event of a verbosity. -/
def event (facility : Facility ω) : Verbosity → String → List ω
  | .error => facility.error
  | .warn => facility.warn
  | .info => facility.info
  | .debug => facility.debug
  | .trace => facility.trace

/-- The facility has a subscriber for the verbosities up to a limit: these are wanted, and it drops
an event of any other. -/
structure Limited (facility : Facility ω) (limit : Nat) : Prop where
  enabled_iff : ∀ verbosity, facility.enabled verbosity = true ↔ verbosity.number ≤ limit
  dropped : ∀ verbosity message, facility.enabled verbosity = false →
    facility.event verbosity message = []

end Facility

namespace Sink

variable {ω : Type}

/-- The sink that tells a facility of each record. -/
def tracing (facility : Facility ω) : Sink ω where
  enabled
    | .error => facility.enabled .error
    | .warn => facility.enabled .warn
    | .info => facility.enabled .info
    | .debug => facility.enabled .debug
    | .trace => facility.enabled .trace
  log
    | .error, message => facility.error message
    | .warn, message => facility.warn message
    | .info, message => facility.info message
    | .debug, message => facility.debug message
    | .trace, message => facility.trace message

end Sink

/-- An event that has come to a subscriber. -/
structure Event where
  verbosity : Verbosity
  message : String
deriving DecidableEq, Repr

/-- A facility whose subscriber keeps the events up to a limit. -/
def Facility.upTo (limit : Nat) : Facility Event where
  enabled verbosity := decide (verbosity.number ≤ limit)
  error := kept .error
  warn := kept .warn
  info := kept .info
  debug := kept .debug
  trace := kept .trace
where
  /-- The event, if it is wanted. -/
  kept (verbosity : Verbosity) (message : String) : List Event :=
    if verbosity.number ≤ limit then [{ verbosity, message }] else []

/-- The facility checks its limit both times, when it is asked and when it is told. -/
theorem Facility.limited_upTo (limit : Nat) : (upTo limit).Limited limit where
  enabled_iff _ := decide_eq_true_iff
  dropped verbosity message hunwanted := by
    cases verbosity <;> exact if_neg (of_decide_eq_false hunwanted)

end Bytestream.Log
