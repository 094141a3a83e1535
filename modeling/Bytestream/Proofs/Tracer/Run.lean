import Mathlib
import Bytestream.Proofs.Read.Run
import Bytestream.Tracer

/-!
# Logged runs

A logged run performs items one after the other and hands the sink one record of each.  What is read
is what the bare cursor would read, whatever the sink does with the records.  The records say where
each item stands: every item starts where the last success has ended, so that the stretches of the
successes follow on each other from the start of the buffer to the place where the run has got to.
-/

namespace Bytestream

open Log

namespace Tracer

variable {ω : Type}

/-- One item of a logged run: where it starts, what comes of it, where it leaves the cursor, and
what the sink has put out about it. -/
structure Entry (ω : Type) where
  item : Item
  start : Cursor
  result : Except DecodeError item.Value
  stop : Cursor
  reports : List ω

namespace Entry

/-- The entry without what the sink has put out. -/
def bare (entry : Entry ω) : Read.Step where
  read := .item entry.item
  start := entry.start
  result := entry.result
  stop := entry.stop

def succeeded (entry : Entry ω) : Bool :=
  entry.result.isOk

/-- The offset at which the next item has to start: the end of a success and the start of a
failure. -/
def next (entry : Entry ω) : Nat :=
  if entry.succeeded then entry.stop.offset else entry.start.offset

/-- The offsets of the bytes that the item takes. -/
def stretch (entry : Entry ω) : List Nat :=
  List.Ico entry.start.offset entry.stop.offset

/-- The record that tells of the item: a success is traced with its stretch and its value, and of a
failure the start and the message are told at the debug level. -/
def record (entry : Entry ω) : Record :=
  match entry.result with
  | .ok value =>
      { level := .trace
        message := s!"{entry.item.label} at {entry.start.offset}..{entry.stop.offset}: {
          entry.item.inspect value}" }
  | .error e =>
      { level := .debug
        message := s!"{entry.item.label} at {entry.start.offset} failed: {e.message}" }

end Entry

/-- The entry of an item that is read next. -/
def entry (t : Tracer ω) (item : Item) : Entry ω where
  item := item
  start := t.cursor
  result := (t.read item).result
  stop := (t.read item).tracer.cursor
  reports := (t.read item).reports

/-- Reads the items one after the other, failures or not. -/
def run (t : Tracer ω) : List Item → List (Entry ω)
  | [] => []
  | item :: items => t.entry item :: run (t.read item).tracer items

/-- The tracer that a run leaves behind. -/
def finish (t : Tracer ω) : List Item → Tracer ω
  | [] => t
  | item :: items => finish (t.read item).tracer items

/-- The entries start where they have to, the first one at `start`, and `stop` is where the next one
would start. -/
def Follows (start : Nat) : List (Entry ω) → (stop : Nat) → Prop
  | [], stop => start = stop
  | entry :: entries, stop => entry.start.offset = start ∧ Follows entry.next entries stop

/-! ### One item -/

/-- Bytes that are read are those of the buffer from the start of the read to its end. -/
theorem bytes_of_ok {count : Nat} {c c' : Cursor} {value : ByteArray}
    (hok : Decoder.bytes count c = .ok value c') :
    value = c.data.extract c.offset c'.offset ∧ c'.offset = c.offset + value.size ∧
      c'.data = c.data := by
  simp only [Decoder.bytes] at hok
  split at hok
  case isTrue hcount =>
    cases hok
    refine ⟨rfl, ?_, rfl⟩
    rw [Cursor.size_slice hcount, Cursor.offset_advance]
  case isFalse => cases hok

/-- The bytes that are sliced out of the buffer again are those that were read, so raw bytes are
traced as any other item is. -/
theorem read_eq (t : Tracer ω) (item : Item) :
    t.read item = t.traced item.label item.inspect item.decoder := by
  cases item with
  | bytes count =>
      simp only [read, traced, Item.decoder, bind, EStateM.bind]
      cases hbytes : Decoder.bytes count t.cursor with
      | ok value c =>
          obtain ⟨hvalue, hstop, hdata⟩ := bytes_of_ok hbytes
          simp only [pure, EStateM.pure, Except.map]
          rw [hdata, ← hstop, ← hvalue]
          rfl
      | error e c => rfl
  | _ => rfl

theorem bare_entry (t : Tracer ω) (item : Item) :
    (t.entry item).bare = Read.Step.ofRead t.cursor (.item item) := by
  simp only [entry, Entry.bare, read_eq, traced, Read.Step.ofRead, Decoder.result, Decoder.after, Read.decoder]
  cases item.decoder t.cursor with
  | ok value c => rfl
  | error e c => rfl

/-- Reading moves the cursor and leaves the sink as it is. -/
theorem tracer_read (t : Tracer ω) (item : Item) :
    (t.read item).tracer =
      { cursor := (Read.Step.ofRead t.cursor (.item item)).stop, sink := t.sink } := by
  simp only [read_eq, traced, Read.Step.ofRead, Decoder.after, Read.decoder]
  cases item.decoder t.cursor with
  | ok value c => rfl
  | error e c => rfl

theorem reports_entry (t : Tracer ω) (item : Item) :
    (t.entry item).reports = t.sink.put (t.entry item).record := by
  simp only [entry, Entry.record, read_eq, traced]
  cases item.decoder t.cursor with
  | ok value c =>
      simp only [Sink.logLazily_id]
      rfl
  | error e c =>
      simp only [Sink.logLazily_id]
      rfl

theorem decoder_of_result {t : Tracer ω} {item : Item} {value : item.Value}
    (hresult : (t.read item).result = .ok value) :
    item.decoder t.cursor = .ok value (t.read item).tracer.cursor := by
  revert hresult
  simp only [read_eq, traced]
  cases item.decoder t.cursor with
  | ok value' c =>
      intro hvalue
      cases hvalue
      rfl
  | error e c =>
      intro hvalue
      cases hvalue

/-- An item moves the cursor on, if at all. -/
theorem offset_le_read (t : Tracer ω) (item : Item) :
    t.cursor.offset ≤ (t.read item).tracer.cursor.offset := by
  obtain ⟨_, _, hresult⟩ := Read.Step.ofRead_transactional t.cursor (.item item)
  rw [tracer_read]
  cases hread : (Read.Step.ofRead t.cursor (.item item)).result with
  | ok value =>
      rw [hread] at hresult
      exact (Nat.le_add_right _ _).trans hresult
  | error e =>
      rw [hread] at hresult
      exact (congrArg Cursor.offset hresult).ge

theorem read_of_failed {t : Tracer ω} {item : Item} (hfailed : (t.entry item).succeeded = false) :
    (t.read item).tracer = t := by
  have hstep : (Read.Step.ofRead t.cursor (.item item)).succeeded = false :=
    bare_entry t item ▸ hfailed
  rw [tracer_read, Read.Step.stop_eq_of_failed hstep]

/-- The next item starts where the cursor is then. -/
theorem next_entry (t : Tracer ω) (item : Item) :
    (t.entry item).next = (t.read item).tracer.cursor.offset := by
  cases hsucceeded : (t.entry item).succeeded with
  | true =>
      rw [Entry.next, if_pos hsucceeded]
      rfl
  | false =>
      rw [Entry.next, if_neg (by simp [hsucceeded]), read_of_failed hsucceeded]
      rfl

/-! ### Runs -/

theorem run_bare (t : Tracer ω) (items : List Item) :
    (run t items).map Entry.bare = Read.run t.cursor (items.map Read.item) := by
  induction items generalizing t with
  | nil => rfl
  | cons item items ih =>
      rw [run, List.map_cons, List.map_cons, Read.run, bare_entry, ih, tracer_read]

theorem finish_eq (t : Tracer ω) (items : List Item) :
    finish t items =
      { cursor := Read.finish t.cursor (items.map Read.item), sink := t.sink } := by
  induction items generalizing t with
  | nil => rfl
  | cons item items ih =>
      rw [finish, ih, tracer_read]
      rfl

theorem offset_le_finish (t : Tracer ω) (items : List Item) :
    t.cursor.offset ≤ (finish t items).cursor.offset := by
  induction items generalizing t with
  | nil => exact Nat.le_refl _
  | cons item items ih => exact (offset_le_read t item).trans (ih _)

theorem run_reports (t : Tracer ω) (items : List Item) :
    ∀ entry ∈ run t items, entry.reports = t.sink.put entry.record := by
  induction items generalizing t with
  | nil =>
      intro entry hentry
      cases hentry
  | cons item items ih =>
      intro entry hentry
      rcases List.mem_cons.mp hentry with rfl | hrest
      · exact reports_entry t item
      · have hsink : (t.read item).tracer.sink = t.sink := by rw [tracer_read]
        rw [ih _ entry hrest, hsink]

theorem run_follows (t : Tracer ω) (items : List Item) :
    Follows t.cursor.offset (run t items) (finish t items).cursor.offset := by
  induction items generalizing t with
  | nil => rfl
  | cons item items ih =>
      refine ⟨rfl, ?_⟩
      rw [next_entry]
      exact ih _

/-- The stretches of the successes make up the stretch of the whole run. -/
theorem run_stretches (t : Tracer ω) (items : List Item) :
    ((run t items).filter Entry.succeeded).flatMap Entry.stretch =
      List.Ico t.cursor.offset (finish t items).cursor.offset := by
  induction items generalizing t with
  | nil => exact List.Ico.self_empty.symm
  | cons item items ih =>
      cases hsucceeded : (t.entry item).succeeded with
      | true =>
          rw [run, List.filter_cons_of_pos hsucceeded, List.flatMap_cons, ih]
          exact List.Ico.append_consecutive (offset_le_read t item) (offset_le_finish _ items)
      | false =>
          rw [run, List.filter_cons_of_neg (by simp [hsucceeded]), ih, finish,
            read_of_failed hsucceeded]

/-- Every entry of a run is the read of its item somewhere in the buffer. -/
theorem exists_of_mem_run {t : Tracer ω} {items : List Item} {entry : Entry ω}
    (hentry : entry ∈ run t items) :
    ∃ t' : Tracer ω, t'.cursor.data = t.cursor.data ∧ entry = t'.entry entry.item := by
  induction items generalizing t with
  | nil => cases hentry
  | cons item items ih =>
      rcases List.mem_cons.mp hentry with rfl | hrest
      · exact ⟨t, rfl, rfl⟩
      · obtain ⟨t', hdata, heq⟩ := ih hrest
        have hstep := (Read.Step.ofRead_transactional t.cursor (.item item)).1
        rw [tracer_read] at hdata
        exact ⟨t', hdata.trans hstep, heq⟩

/-- Bytes that were read are shown by their number alone, but are all there. -/
theorem bytes_of_mem_run {t : Tracer ω} {items : List Item} {count : Nat} {start stop : Cursor}
    {value : ByteArray} {reports : List ω}
    (hentry : ⟨.bytes count, start, .ok value, stop, reports⟩ ∈ run t items) :
    value = t.cursor.data.extract start.offset stop.offset ∧
      (Entry.mk (.bytes count) start (.ok value) stop reports).record =
        ⟨.trace, s!"bytes at {start.offset}..{stop.offset}: {stop.offset - start.offset}"⟩ := by
  obtain ⟨t', hdata, heq⟩ := exists_of_mem_run hentry
  have hstart : start = t'.cursor := congrArg Entry.start heq
  have hstop : stop = (t'.read (.bytes count)).tracer.cursor := congrArg Entry.stop heq
  have hresult : .ok value = (t'.read (.bytes count)).result := by
    injection heq
  have hok : Decoder.bytes count t'.cursor = .ok value stop :=
    hstop ▸ decoder_of_result hresult.symm
  subst hstart
  obtain ⟨hvalue, hend, _⟩ := bytes_of_ok hok
  have hsize : value.size = stop.offset - t'.cursor.offset := by omega
  refine ⟨hdata ▸ hvalue, ?_⟩
  simp only [Entry.record, Item.label, Item.inspect, hsize]
  rfl

/-- A logged run reads what the bare cursor reads, whatever the sink is: each item yields the same
value or the same error, from the same cursor to the same cursor.  The sink gets one record of each,
in order.  The first item starts at the start of the buffer, each further one at the end of a
success or at the start of a failure, and the last of these offsets is where the run ends; so the
stretches of the successes cover the buffer up to there, each byte once.  Raw bytes are the ones of
their stretch, and their record holds no more than their number.  A sink that keeps what it is given
keeps exactly the records. -/
theorem run_recorded (data : ByteArray) (sink : Sink ω) (items : List Item) :
    (run (ofBytes data sink) items).map Entry.bare =
        Read.run (.ofBytes data) (items.map Read.item) ∧
      (finish (ofBytes data sink) items).cursor =
        Read.finish (.ofBytes data) (items.map Read.item) ∧
      (∀ entry ∈ run (ofBytes data sink) items, entry.reports = sink.put entry.record) ∧
      Follows 0 (run (ofBytes data sink) items) (finish (ofBytes data sink) items).cursor.offset ∧
      ((run (ofBytes data sink) items).filter Entry.succeeded).flatMap Entry.stretch =
        List.range (finish (ofBytes data sink) items).cursor.offset ∧
      (∀ count start value stop reports,
        ⟨.bytes count, start, .ok value, stop, reports⟩ ∈ run (ofBytes data sink) items →
          value = data.extract start.offset stop.offset ∧
          (Entry.mk (ω := ω) (.bytes count) start (.ok value) stop reports).record =
            ⟨.trace, s!"bytes at {start.offset}..{stop.offset}: {stop.offset - start.offset}"⟩) ∧
      ∀ keeper : Sink Record, (∀ record, keeper.put record = [record]) →
        (run (ofBytes data keeper) items).flatMap Entry.reports =
          (run (ofBytes data keeper) items).map Entry.record := by
  refine ⟨run_bare _ _, ?_, run_reports _ _, run_follows (ofBytes data sink) items, ?_, ?_, ?_⟩
  · rw [finish_eq]
    rfl
  · rw [run_stretches]
    exact List.Ico.zero_bot _
  · intro count start value stop reports hentry
    have hbytes := bytes_of_mem_run hentry
    exact hbytes
  · intro keeper hkeeper
    rw [List.map_eq_flatMap]
    apply List.flatMap_congr
    intro entry hentry
    exact (run_reports _ _ entry hentry).trans (hkeeper _)

example : (run (ofBytes ⟨#[0x10, 0x20, 0x30]⟩ (Sink.recorder 5)) [.bytes 2, .u8]).flatMap
    Entry.reports = [⟨.trace, "bytes at 0..2: 2"⟩, ⟨.trace, "u8 at 2..3: 48"⟩] := by
  decide +kernel

end Tracer

end Bytestream
