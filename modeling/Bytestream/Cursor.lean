import Bytestream.DecodeError.Basic

/-!
# Cursors

A cursor is a place in a buffer.  Its offset never lies beyond the end of the buffer, and this is
part of the type: whoever moves a cursor shows that the bytes passed over are there.
-/

namespace Bytestream

/-- A place in a buffer. -/
structure Cursor where
  /-- The whole buffer, whatever the offset. -/
  data : ByteArray
  /-- The number of bytes before the cursor. -/
  offset : Nat
  /-- The cursor is inside the buffer or at its end. -/
  offset_le : offset ≤ data.size := by omega

namespace Cursor

/-- The cursor at the start of a buffer. -/
def ofBytes (data : ByteArray) : Cursor where
  data := data
  offset := 0

/-- The number of bytes from the cursor to the end of the buffer. -/
def remaining (c : Cursor) : Nat :=
  c.data.size - c.offset

/-- Whether every byte has been read. -/
def atEnd (c : Cursor) : Bool :=
  decide (c.offset = c.data.size)

/-- The error of a read that needs `needed` bytes where fewer remain. -/
def truncated (c : Cursor) (needed : Nat) : DecodeError :=
  .truncated c.offset needed c.remaining

/-- The cursor at `offset`.  An offset beyond the end is reported at the end, as the number of bytes
that are missing up to it. -/
def openAt (data : ByteArray) (offset : Nat) : Except DecodeError Cursor :=
  if hoffset : offset ≤ data.size then .ok { data, offset, offset_le := hoffset }
  else .error (.truncated data.size (offset - data.size) 0)

/-- The cursor `count` bytes further on. -/
def advance (c : Cursor) (count : Nat) (hcount : count ≤ c.remaining) : Cursor where
  data := c.data
  offset := c.offset + count
  offset_le := by have := c.offset_le; simp only [remaining] at hcount; omega

/-- The next `count` bytes, or as many of them as remain. -/
def slice (c : Cursor) (count : Nat) : ByteArray :=
  c.data.extract c.offset (c.offset + count)

theorem offset_add_remaining (c : Cursor) : c.offset + c.remaining = c.data.size := by
  have := c.offset_le
  simp only [remaining]
  omega

theorem lt_size_of_le_remaining {c : Cursor} {count : Nat} (hpos : 0 < count)
    (hcount : count ≤ c.remaining) : c.offset < c.data.size := by
  have := c.offset_add_remaining
  omega

@[simp] theorem data_ofBytes (data : ByteArray) : (ofBytes data).data = data := rfl

@[simp] theorem offset_ofBytes (data : ByteArray) : (ofBytes data).offset = 0 := rfl

@[simp] theorem data_advance (c : Cursor) (count : Nat) (hcount : count ≤ c.remaining) :
    (c.advance count hcount).data = c.data := rfl

@[simp] theorem offset_advance (c : Cursor) (count : Nat) (hcount : count ≤ c.remaining) :
    (c.advance count hcount).offset = c.offset + count := rfl

theorem size_slice {c : Cursor} {count : Nat} (hcount : count ≤ c.remaining) :
    (c.slice count).size = count := by
  have := c.offset_add_remaining
  simp only [slice, ByteArray.size_extract]
  omega

/-- A cursor is opened exactly at the offsets that lie in the buffer or at its end. -/
theorem openAt_eq_ok_iff {data : ByteArray} {offset : Nat} {c : Cursor} :
    openAt data offset = .ok c ↔ c.data = data ∧ c.offset = offset := by
  constructor
  · intro hopen
    simp only [openAt] at hopen
    split at hopen
    · cases hopen
      exact ⟨rfl, rfl⟩
    · cases hopen
  · rintro ⟨rfl, rfl⟩
    simp [openAt, c.offset_le]

/-- A cursor is refused exactly beyond the end, by as many bytes as are missing up to it. -/
theorem openAt_eq_error_iff {data : ByteArray} {offset : Nat} {e : DecodeError} :
    openAt data offset = .error e ↔
      data.size < offset ∧ e = .truncated data.size (offset - data.size) 0 := by
  rw [openAt]
  split
  case isTrue hoffset => simp [Nat.not_lt_of_le hoffset]
  case isFalse hoffset => simp [Nat.lt_of_not_le hoffset, eq_comm]

end Cursor

end Bytestream
