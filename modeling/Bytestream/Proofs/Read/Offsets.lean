import Mathlib
import Bytestream.Proofs.Read.Run

/-!
# Passing offsets on

Varints and strings can be read at an offset of a buffer, with no cursor to keep.  Such a read hands
out the offset of the first unread byte together with its value, and the next read is made there;
after a failure the next read is made where the failed one was.  This is what a cursor does by
itself, because it moves with its successes and with nothing else.  So the two ways of reading give
the same values, the same errors and the same offsets, however many reads follow on each other.

An offset beyond the buffer has no cursor.  Every read there fails, and it fails as opening the
cursor does.
-/

namespace Bytestream

/-- A read that can be made at an offset of a buffer. -/
inductive OffsetRead where
  | unsigned (maxBits : Nat)
  | signed (maxBits : Nat)
  | string
deriving DecidableEq, Repr

/-- One read at an offset: what comes of it, and the offset that is passed on. -/
structure Exchange where
  read : Read
  offset : Nat
  result : Except DecodeError read.Value
  next : Nat

namespace Exchange

/-- A success passes on a later offset inside the buffer or at its end, and a failure its own. -/
def Proper (data : ByteArray) (exchange : Exchange) : Prop :=
  match exchange.result with
  | .ok _ => exchange.offset < exchange.next ∧ exchange.next ≤ data.size
  | .error _ => exchange.next = exchange.offset

/-- What a step of a run on a cursor amounts to for someone who only sees offsets. -/
def ofStep (step : Read.Step) : Exchange where
  read := step.read
  offset := step.start.offset
  result := step.result
  next := step.stop.offset

theorem proper_ofStep {step : Read.Step} (hstep : step.Transactional)
    (hleast : 1 ≤ step.read.leastSize) : (ofStep step).Proper step.start.data := by
  obtain ⟨hdata, hinside, hresult⟩ := hstep
  rw [hdata] at hinside
  simp only [Proper, ofStep]
  split at hresult
  case h_1 value hvalue =>
      rw [hvalue]
      exact ⟨by omega, hinside⟩
  case h_2 e he =>
      rw [he, hresult]

end Exchange

namespace OffsetRead

/-- The read that is made on a cursor instead. -/
@[reducible] def toRead : OffsetRead → Read
  | unsigned maxBits => .item (.unsigned maxBits)
  | signed maxBits => .item (.signed maxBits)
  | string => .item .string

/-- Reads at an offset of a buffer.  The value comes with the offset of the first unread byte. -/
def runAt (data : ByteArray) (offset : Nat) :
    (read : OffsetRead) → Except DecodeError (read.toRead.Value × Nat)
  | unsigned maxBits => Varint.unsignedAt data offset maxBits
  | signed maxBits => Varint.signedAt data offset maxBits
  | string => Decoder.stringAt data offset

def exchange (data : ByteArray) (offset : Nat) (read : OffsetRead) : Exchange :=
  match read.runAt data offset with
  | .ok (value, next) => { read := read.toRead, offset := offset, result := .ok value, next := next }
  | .error e => { read := read.toRead, offset := offset, result := .error e, next := offset }

/-- Makes the reads one after the other, each at the offset that the one before it has passed on. -/
def passOn (data : ByteArray) (offset : Nat) : List OffsetRead → List Exchange
  | [] => []
  | read :: reads =>
      read.exchange data offset :: passOn data (read.exchange data offset).next reads

variable {data : ByteArray} {offset : Nat} {c : Cursor} {e : DecodeError}

theorem runAt_eq (data : ByteArray) (offset : Nat) (read : OffsetRead) :
    read.runAt data offset = read.toRead.decoder.runAt data offset := by
  cases read <;> rfl

theorem leastSize_toRead (read : OffsetRead) : read.toRead.leastSize = 1 := by
  cases read <;> rfl

/-! ### One read -/

/-- Where a cursor can be opened, the read is a step of a run on it. -/
theorem exchange_of_openAt_eq_ok (hopen : Cursor.openAt data offset = .ok c) (read : OffsetRead) :
    read.exchange data offset = .ofStep (.ofRead c read.toRead) := by
  obtain ⟨_, hoffset⟩ := Cursor.openAt_eq_ok_iff.mp hopen
  simp only [exchange, runAt_eq, Decoder.runAt, hopen, Exchange.ofStep, Read.Step.ofRead,
    Decoder.result, Decoder.after, hoffset]
  cases hread : read.toRead.decoder c with
  | ok value c' => rfl
  | error e c' =>
      obtain rfl := read.toRead.reverts hread
      rw [hoffset]

theorem exchange_of_openAt_eq_error (hopen : Cursor.openAt data offset = .error e)
    (read : OffsetRead) :
    read.exchange data offset = ⟨read.toRead, offset, .error e, offset⟩ := by
  simp only [exchange, runAt_eq, Decoder.runAt, hopen]

theorem proper_exchange (data : ByteArray) (offset : Nat) (read : OffsetRead) :
    (read.exchange data offset).Proper data := by
  cases hopen : Cursor.openAt data offset with
  | error e =>
      rw [exchange_of_openAt_eq_error hopen]
      rfl
  | ok c =>
      obtain ⟨rfl, _⟩ := Cursor.openAt_eq_ok_iff.mp hopen
      rw [exchange_of_openAt_eq_ok hopen]
      exact Exchange.proper_ofStep (Read.Step.ofRead_transactional c read.toRead)
        (Nat.le_of_eq read.leastSize_toRead.symm)

/-! ### Many reads -/

theorem passOn_of_openAt_eq_ok (hopen : Cursor.openAt data offset = .ok c)
    (reads : List OffsetRead) :
    passOn data offset reads = (Read.run c (reads.map toRead)).map Exchange.ofStep := by
  induction reads generalizing offset c with
  | nil => rfl
  | cons read reads ih =>
      -- The cursor behind the first read is the one that opens at the offset that is passed on.
      have hnext : Cursor.openAt data (read.exchange data offset).next =
          .ok (Read.Step.ofRead c read.toRead).stop := by
        obtain ⟨rfl, _⟩ := Cursor.openAt_eq_ok_iff.mp hopen
        obtain ⟨hdata, _⟩ := Read.Step.ofRead_transactional c read.toRead
        rw [exchange_of_openAt_eq_ok hopen]
        exact Cursor.openAt_eq_ok_iff.mpr ⟨hdata, rfl⟩
      rw [passOn, ih hnext, exchange_of_openAt_eq_ok hopen, List.map_cons, Read.run, List.map_cons]

theorem passOn_of_openAt_eq_error (hopen : Cursor.openAt data offset = .error e)
    (reads : List OffsetRead) :
    passOn data offset reads = reads.map fun read => ⟨read.toRead, offset, .error e, offset⟩ := by
  induction reads with
  | nil => rfl
  | cons read reads ih => rw [passOn, exchange_of_openAt_eq_error hopen, ih, List.map_cons]

theorem proper_of_mem_passOn (reads : List OffsetRead) :
    ∀ exchange ∈ passOn data offset reads, exchange.Proper data := by
  induction reads generalizing offset with
  | nil =>
      intro exchange hexchange
      cases hexchange
  | cons read reads ih =>
      intro exchange hexchange
      rcases List.mem_cons.mp hexchange with rfl | hrest
      · exact proper_exchange data offset read
      · exact ih exchange hrest

/-- Reads that pass their offsets on give, one by one, the values, errors and offsets of the same
reads on a cursor that is opened at the first offset.  If that offset lies beyond the end, so that no
cursor can be opened, each of them fails with the error of the attempt, and the offset stays.  In any
case a success passes on an offset beyond its own that is still in the buffer or at its end, and a
failure its own. -/
theorem passOn_as_on_cursor (data : ByteArray) (start : Nat) (reads : List OffsetRead) :
    (match Cursor.openAt data start with
      | .ok c =>
          start ≤ data.size ∧
            passOn data start reads = (Read.run c (reads.map toRead)).map Exchange.ofStep
      | .error e =>
          data.size < start ∧ e = .truncated data.size (start - data.size) 0 ∧
            passOn data start reads =
              reads.map fun read => ⟨read.toRead, start, .error e, start⟩) ∧
    ∀ exchange ∈ passOn data start reads,
      match exchange.result with
      | .ok _ => exchange.offset < exchange.next ∧ exchange.next ≤ data.size
      | .error _ => exchange.next = exchange.offset := by
  refine ⟨?_, proper_of_mem_passOn reads⟩
  cases hopen : Cursor.openAt data start with
  | ok c =>
      obtain ⟨hdata, hoffset⟩ := Cursor.openAt_eq_ok_iff.mp hopen
      have hinside := c.offset_le
      rw [hdata, hoffset] at hinside
      exact ⟨hinside, passOn_of_openAt_eq_ok hopen reads⟩
  | error e =>
      obtain ⟨hbeyond, he⟩ := Cursor.openAt_eq_error_iff.mp hopen
      exact ⟨hbeyond, he, passOn_of_openAt_eq_error hopen reads⟩

/-- The string announces more bytes than there are, so that the varint behind it is read at its
place. -/
example : (passOn ⟨#[0x80, 0x01, 0x03, 0x61]⟩ 0 [.unsigned 32, .string, .signed 8]).map
    Exchange.next = [2, 2, 3] := by
  decide

end OffsetRead

end Bytestream
