import Mathlib
import Bytestream.Proofs.Log.Request

/-!
# Transcripts of a console

A program uses one console for a whole run, logs to it and sets its threshold now and then.  Each
request is answered by the threshold that is in force at the time, which is the last one that was set
before it.  So a run is told by pairing each command with its threshold, and what stands on either
stream in the end is the messages that got past theirs, one on each line.  Higher thresholds let more
messages through and keep the others in their order.
-/

namespace Bytestream.Log

/-- What a program does with a console. -/
inductive Command where
  | setThreshold (threshold : Nat)
  | ask (request : Request)
deriving DecidableEq, Repr

namespace Command

/-- The threshold that is set, if one is. -/
def threshold? : Command → Option Nat
  | setThreshold threshold => some threshold
  | ask _ => none

/-- The record that is to be logged, if there is one and the threshold lets it through. -/
def passed (threshold : Nat) : Command → Option Record
  | setThreshold _ => none
  | ask request => if request.record.level.number ≤ threshold then some request.record else none

/-- How often a text is to be rendered under the threshold. -/
def due (threshold : Nat) : Command → Nat
  | setThreshold _ => 0
  | ask request => request.due (decide (request.record.level.number ≤ threshold))

/-- The command with its text rendered beforehand. -/
def eager : Command → Command
  | setThreshold threshold => setThreshold threshold
  | ask request => ask (.log request.record)

/-- The second command is the first one, but for a threshold that may be higher. -/
inductive Raised : Command → Command → Prop
  | setThreshold {low high : Nat} (hle : low ≤ high) : Raised (setThreshold low) (setThreshold high)
  | ask (request : Request) : Raised (ask request) (ask request)

end Command

/-- The threshold that is in force after some commands: the last one that they have set, or the one
at the start. -/
def inForce (start : Nat) (before : List Command) : Nat :=
  (before.filterMap Command.threshold?).getLast?.getD start

/-- The commands, each with the threshold that is in force when it is given. -/
def timed (start : Nat) (commands : List Command) : List (Nat × Command) :=
  (commands.inits.map (inForce start)).zip commands

/-- The records that get past the threshold of their time. -/
def passing (start : Nat) (commands : List Command) : List Record :=
  (timed start commands).filterMap fun (threshold, command) => command.passed threshold

/-- The levels that are written to the stream. -/
def Stream.levels : Stream → List Level
  | .output => [.info, .debug, .trace]
  | .error => [.error, .warn]

/-- The record as a line on the stream of its level. -/
def Record.write (record : Record) : Write where
  stream := record.level.stream
  text := record.message ++ "\n"

namespace Console

/-- The console after a command. -/
def after (console : Console) : Command → Console
  | .setThreshold threshold => { console with threshold }
  | .ask _ => console

/-- What comes of a command. -/
def react (console : Console) : Command → Reaction Write
  | .setThreshold _ => { output := [], renderings := 0 }
  | .ask request => console.sink.react request

/-- What comes of each command of a run. -/
def run (console : Console) : List Command → List (Reaction Write)
  | [] => []
  | command :: commands => console.react command :: run (console.after command) commands

/-- The console at the end of a run. -/
def finish (console : Console) : List Command → Console
  | [] => console
  | command :: commands => finish (console.after command) commands

/-- What a run writes, in order. -/
def transcript (console : Console) (commands : List Command) : List Write :=
  (console.run commands).flatMap Reaction.output

end Console

/-! ### Thresholds in force -/

theorem inForce_cons (start : Nat) (command : Command) (before : List Command) :
    inForce start (command :: before) = inForce (command.threshold?.getD start) before := by
  cases command with
  | setThreshold threshold =>
      have hset : (Command.setThreshold threshold).threshold? = some threshold := rfl
      rw [inForce, List.filterMap_cons_some hset, List.getLast?_cons]
      rfl
  | ask request => rfl

theorem timed_cons (start : Nat) (command : Command) (commands : List Command) :
    timed start (command :: commands) =
      (start, command) :: timed (command.threshold?.getD start) commands := by
  have hlater : inForce start ∘ List.cons command = inForce (command.threshold?.getD start) := by
    funext before
    exact inForce_cons start command before
  rw [timed, List.inits_cons, List.map_cons, List.zip_cons_cons, List.map_map, hlater]
  rfl

theorem passing_cons (start : Nat) (command : Command) (commands : List Command) :
    passing start (command :: commands) =
      (command.passed start).toList ++ passing (command.threshold?.getD start) commands := by
  simp only [passing, timed_cons, List.filterMap_cons]
  cases command.passed start <;> rfl

/-! ### One command -/

theorem Command.passed_eager (threshold : Nat) (command : Command) :
    command.eager.passed threshold = command.passed threshold := by
  cases command <;> rfl

/-- A threshold that may be higher lets through what got through before. -/
theorem Command.Raised.passed_sublist {low high : Nat} {command command' : Command}
    (hraised : Raised command command') (hle : low ≤ high) :
    (command.passed low).toList.Sublist (command'.passed high).toList := by
  cases hraised with
  | setThreshold hle' => exact List.Sublist.refl _
  | ask request =>
      by_cases hpassed : request.record.level.number ≤ low
      · simp [Command.passed, hpassed, hpassed.trans hle]
      · simp [Command.passed, hpassed]

theorem Command.Raised.threshold_le {low high : Nat} {command command' : Command}
    (hraised : Raised command command') (hle : low ≤ high) :
    command.threshold?.getD low ≤ command'.threshold?.getD high := by
  cases hraised with
  | setThreshold hle' => exact hle'
  | ask request => exact hle

/-! ### Records that pass -/

/-- What passes low thresholds passes high ones, in the same order. -/
theorem passing_sublist {low high : Nat} {commands commands' : List Command} (hle : low ≤ high)
    (hraised : List.Forall₂ Command.Raised commands commands') :
    (passing low commands).Sublist (passing high commands') := by
  induction hraised generalizing low high with
  | nil => exact List.Sublist.refl _
  | cons hcommand _ ih =>
      rw [passing_cons, passing_cons]
      exact (hcommand.passed_sublist hle).append (ih (hcommand.threshold_le hle))

/-- What a stream shows of some lines. -/
theorem textOn_map_write (stream : Stream) (records : List Record) :
    Write.textOn stream (records.map Record.write) =
      String.join ((records.filter fun record => decide (record.level ∈ stream.levels)).map
        fun record => record.message ++ "\n") := by
  have hstream : ((fun write : Write => decide (write.stream = stream)) ∘ Record.write) =
      fun record => decide (record.level ∈ stream.levels) := by
    funext record
    obtain ⟨level, message⟩ := record
    cases stream <;> cases level <;> rfl
  rw [Write.textOn, List.filter_map, List.map_map, hstream]
  rfl

/-! ### The answers of a console -/

namespace Console

theorem after_eager (console : Console) (command : Command) :
    console.after command.eager = console.after command := by
  cases command <;> rfl

theorem threshold_after (console : Console) (command : Command) :
    (console.after command).threshold = command.threshold?.getD console.threshold := by
  cases command <;> rfl

/-- What gets past the threshold is written as a line, although the threshold is asked twice. -/
theorem put_sink (console : Console) (record : Record) :
    console.sink.put record =
      if record.level.number ≤ console.threshold then [record.write] else [] := by
  rw [Sink.put]
  by_cases hpassed : record.level.number ≤ console.threshold
  · simp [sink, Level.passes, hpassed, Record.write]
  · simp [sink, Level.passes, hpassed]

/-- A console answers each command by its threshold alone. -/
theorem react_eq (console : Console) (command : Command) :
    console.react command =
      { output := (command.passed console.threshold).toList.map Record.write
        renderings := command.due console.threshold } := by
  cases command with
  | setThreshold threshold => rfl
  | ask request =>
      rw [react, (Sink.filters_console console).react_eq request, put_sink, Command.passed]
      split <;> rfl

/-! ### Runs -/

theorem run_eq (console : Console) (commands : List Command) :
    console.run commands = (timed console.threshold commands).map fun (threshold, command) =>
      { output := (command.passed threshold).toList.map Record.write
        renderings := command.due threshold } := by
  induction commands generalizing console with
  | nil => rfl
  | cons command commands ih =>
      rw [run, timed_cons, List.map_cons, react_eq, ih, threshold_after]

theorem transcript_cons (console : Console) (command : Command) (commands : List Command) :
    console.transcript (command :: commands) =
      (console.react command).output ++ (console.after command).transcript commands :=
  List.flatMap_cons

/-- A run writes the records that get past the threshold of their time, and nothing else. -/
theorem transcript_eq (console : Console) (commands : List Command) :
    console.transcript commands = (passing console.threshold commands).map Record.write := by
  induction commands generalizing console with
  | nil => rfl
  | cons command commands ih =>
      rw [transcript_cons, passing_cons, List.map_append, react_eq, ih, threshold_after]

/-- What is written does not depend on when the texts are rendered. -/
theorem map_output_run_eager (console : Console) (commands : List Command) :
    (console.run (commands.map Command.eager)).map Reaction.output =
      (console.run commands).map Reaction.output := by
  induction commands generalizing console with
  | nil => rfl
  | cons command commands ih =>
      rw [List.map_cons, run, run, List.map_cons, List.map_cons, after_eager, ih, react_eq,
        react_eq, Command.passed_eager]

theorem finish_eager (console : Console) (commands : List Command) :
    console.finish (commands.map Command.eager) = console.finish commands := by
  induction commands generalizing console with
  | nil => rfl
  | cons command commands ih => rw [List.map_cons, finish, finish, after_eager, ih]

end Console

example : (Console.withLevel .warn).transcript
    [.ask (.log ⟨.warn, "late"⟩), .ask (.logLazily ⟨.info, "lost"⟩), .setThreshold 3,
      .ask (.logLazily ⟨.info, "kept"⟩)] = [⟨.error, "late\n"⟩, ⟨.output, "kept\n"⟩] := by
  decide

end Bytestream.Log
