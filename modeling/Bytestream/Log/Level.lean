/-!
# Severity levels

A log record has one of five levels.  They are numbered from the most severe to the least, and a
threshold lets a record through when it is at least the number of the record's level.
-/

namespace Bytestream.Log

/-- The severity of a log record. -/
inductive Level where
  | error
  | warn
  | info
  | debug
  | trace
deriving DecidableEq, Repr

namespace Level

/-- The levels, the most severe first. -/
def all : List Level :=
  [error, warn, info, debug, trace]

/-- The place of the level among all, starting from one. -/
def number : Level → Nat
  | error => 1
  | warn => 2
  | info => 3
  | debug => 4
  | trace => 5

def name : Level → String
  | error => "error"
  | warn => "warn"
  | info => "info"
  | debug => "debug"
  | trace => "trace"

/-- The name of the level with a capital letter. -/
def title (level : Level) : String :=
  level.name.capitalize

/-- The order of severity, the most severe level being the least. -/
instance : Ord Level where
  compare a b := compare a.number b.number

/-- Whether a threshold lets records of the level through. -/
def passes (level : Level) (threshold : Nat) : Bool :=
  decide (level.number ≤ threshold)

/-- Whether records of the level are about something that went wrong. -/
def isTrouble : Level → Bool
  | error | warn => true
  | info | debug | trace => false

/-- A text that names no level. -/
structure Unknown where
  text : String
deriving DecidableEq, Repr

/-- What a reader is told about a text that names no level. -/
def Unknown.message (unknown : Unknown) : String :=
  s!"unknown log level: {unknown.text}"

/-- The level with the given name.  Capital letters count as small ones, in ASCII alone. -/
def ofName? (name : String) : Option Level :=
  all.find? fun level => decide (name.toLower = level.name)

/-- Reads the name of a level. -/
def parse (text : String) : Except Unknown Level :=
  match ofName? text with
  | some level => .ok level
  | none => .error ⟨text⟩

end Level

end Bytestream.Log
