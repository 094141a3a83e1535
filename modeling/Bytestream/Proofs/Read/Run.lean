import Mathlib
import Bytestream.Proofs.Read.Transaction

/-!
# Runs of reads

A run performs reads one after the other on one cursor, and goes on after a failure.  Because every
read is a transaction, a run stays in its buffer and moves only with its successes, and a failed read
leaves no trace: the run without it is the same run.
-/

namespace Bytestream.Read

/-- One read of a run: where it starts, what comes of it, and where it leaves the cursor. -/
structure Step where
  read : Read
  start : Cursor
  result : Except DecodeError read.Value
  stop : Cursor

namespace Step

/-- The step of a read at a cursor. -/
def ofRead (c : Cursor) (read : Read) : Step where
  read := read
  start := c
  result := read.decoder.result c
  stop := read.decoder.after c

def succeeded (step : Step) : Bool :=
  step.result.isOk

/-- What a step may do: it stays in the buffer, a failure leaves the cursor where it was, and a
success moves it on by what the read takes at least. -/
def Transactional (step : Step) : Prop :=
  step.stop.data = step.start.data ∧ step.stop.offset ≤ step.stop.data.size ∧
    match step.result with
    | .ok _ => step.start.offset + step.read.leastSize ≤ step.stop.offset
    | .error _ => step.stop = step.start

theorem ofRead_transactional (c : Cursor) (read : Read) : (ofRead c read).Transactional := by
  have hadvances := read.advances (c := c)
  have hreverts := read.reverts (c := c)
  simp only [Transactional, ofRead, Decoder.result, Decoder.after]
  cases hread : read.decoder c with
  | ok value c' =>
      obtain ⟨hdata, hoffset⟩ := hadvances hread
      exact ⟨hdata, c'.offset_le, hoffset⟩
  | error e c' =>
      obtain rfl := hreverts hread
      exact ⟨rfl, c'.offset_le, rfl⟩

theorem stop_eq_of_failed {c : Cursor} {read : Read}
    (hfailed : (ofRead c read).succeeded = false) : (ofRead c read).stop = c := by
  obtain ⟨_, _, hresult⟩ := ofRead_transactional c read
  cases hread : (ofRead c read).result with
  | ok value => simp [succeeded, hread, Except.isOk, Except.toBool] at hfailed
  | error e =>
      rw [hread] at hresult
      exact hresult

end Step

/-- Performs the reads one after the other.  The next read starts where the last one has left the
cursor, whether it has succeeded or not. -/
def run (c : Cursor) : List Read → List Step
  | [] => []
  | read :: reads => Step.ofRead c read :: run (Step.ofRead c read).stop reads

/-- The cursor that a run leaves behind. -/
def finish (c : Cursor) : List Read → Cursor
  | [] => c
  | read :: reads => finish (Step.ofRead c read).stop reads

/-- The reads of a run that succeed in it. -/
def successes (c : Cursor) (reads : List Read) : List Read :=
  ((run c reads).filter Step.succeeded).map Step.read

theorem run_steps (c : Cursor) (reads : List Read) :
    ∀ step ∈ run c reads, step.start.data = c.data ∧ step.Transactional := by
  induction reads generalizing c with
  | nil =>
      intro step hstep
      cases hstep
  | cons read reads ih =>
      intro step hstep
      have hfirst := Step.ofRead_transactional c read
      rcases List.mem_cons.mp hstep with rfl | hrest
      · exact ⟨rfl, hfirst⟩
      · obtain ⟨hdata, htransactional⟩ := ih _ step hrest
        exact ⟨hdata.trans hfirst.1, htransactional⟩

theorem successes_of_succeeded {c : Cursor} {read : Read} (reads : List Read)
    (hread : (Step.ofRead c read).succeeded = true) :
    successes c (read :: reads) = read :: successes (Step.ofRead c read).stop reads := by
  simp only [successes, run, List.filter_cons, hread, ↓reduceIte, List.map_cons]
  rfl

/-- A failed read leaves the cursor where it was, so that the others succeed as if it were not
there. -/
theorem successes_of_failed {c : Cursor} {read : Read} (reads : List Read)
    (hread : (Step.ofRead c read).succeeded = false) :
    successes c (read :: reads) = successes c reads := by
  simp only [successes, run, List.filter_cons, hread, Bool.false_eq_true, ↓reduceIte,
    Step.stop_eq_of_failed hread]

theorem run_successes (c : Cursor) (reads : List Read) :
    run c (successes c reads) = (run c reads).filter Step.succeeded := by
  induction reads generalizing c with
  | nil => rfl
  | cons read reads ih =>
      cases hread : (Step.ofRead c read).succeeded with
      | true =>
          rw [successes_of_succeeded reads hread, run, run, List.filter_cons_of_pos hread, ih]
      | false =>
          rw [successes_of_failed reads hread, run, List.filter_cons_of_neg (by simp [hread]),
            Step.stop_eq_of_failed hread, ih]

theorem finish_successes (c : Cursor) (reads : List Read) :
    finish c (successes c reads) = finish c reads := by
  induction reads generalizing c with
  | nil => rfl
  | cons read reads ih =>
      cases hread : (Step.ofRead c read).succeeded with
      | true => rw [successes_of_succeeded reads hread, finish, finish, ih]
      | false => rw [successes_of_failed reads hread, finish, Step.stop_eq_of_failed hread, ih]

/-- Every step of a run keeps the buffer, stays inside it, moves on by what it takes if it succeeds
and not at all if it fails.  The run without its failed reads has the other steps, each with the same
result and the same cursors, and leaves the same cursor behind. -/
theorem run_transactional (c : Cursor) (reads : List Read) :
    (∀ step ∈ run c reads,
      step.stop.data = c.data ∧ step.stop.offset ≤ c.data.size ∧
        match step.result with
        | .ok _ => step.start.offset + step.read.leastSize ≤ step.stop.offset
        | .error _ => step.stop = step.start) ∧
      run c (successes c reads) = (run c reads).filter Step.succeeded ∧
      finish c (successes c reads) = finish c reads := by
  refine ⟨?_, run_successes c reads, finish_successes c reads⟩
  intro step hstep
  obtain ⟨hstart, hdata, hinside, hresult⟩ := run_steps c reads step hstep
  have hstop : step.stop.data = c.data := hdata.trans hstart
  exact ⟨hstop, hstop ▸ hinside, hresult⟩

end Bytestream.Read
