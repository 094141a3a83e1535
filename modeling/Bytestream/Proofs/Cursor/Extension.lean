import Mathlib
import Bytestream.Proofs.Cursor.Unread

/-!
# Longer and shorter buffers

The same place can be looked at in a longer buffer, when more bytes have arrived behind it, and in a
shorter one, when the buffer ends before its bytes do.  A cut buffer with its rest behind it is the
buffer again.
-/

namespace Bytestream.Cursor

/-- The same place in the buffer with `suffix` behind it. -/
def extend (c : Cursor) (suffix : ByteArray) : Cursor where
  data := c.data ++ suffix
  offset := c.offset
  offset_le := by
    have := c.offset_le
    rw [ByteArray.size_append]
    omega

/-- The same place in the first `size` bytes of the buffer. -/
def cut (c : Cursor) (size : Nat) (hsize : c.offset ≤ size) : Cursor where
  data := c.data.extract 0 size
  offset := c.offset
  offset_le := by
    have := c.offset_le
    rw [ByteArray.size_extract]
    omega

@[simp] theorem data_extend (c : Cursor) (suffix : ByteArray) :
    (c.extend suffix).data = c.data ++ suffix := rfl

@[simp] theorem offset_extend (c : Cursor) (suffix : ByteArray) :
    (c.extend suffix).offset = c.offset := rfl

@[simp] theorem unread_extend (c : Cursor) (suffix : ByteArray) :
    (c.extend suffix).unread = c.unread ++ suffix.data.toList := by
  have hoffset : c.offset ≤ c.data.data.toList.length := by
    rw [Array.length_toList]
    exact c.offset_le
  rw [unread, data_extend, offset_extend, ByteArray.data_append, Array.toList_append,
    List.drop_append_of_le_length hoffset]
  rfl

@[simp] theorem remaining_extend (c : Cursor) (suffix : ByteArray) :
    (c.extend suffix).remaining = c.remaining + suffix.size := by
  rw [← length_unread, unread_extend, List.length_append, length_unread]
  simp

theorem truncated_extend (c : Cursor) (suffix : ByteArray) (needed : Nat) :
    (c.extend suffix).truncated needed =
      .truncated c.offset needed (c.remaining + suffix.size) := by
  rw [truncated, remaining_extend, offset_extend]

/-- The bytes that were there come next in the longer buffer too. -/
theorem take_unread_extend {c : Cursor} {count : Nat} (hcount : count ≤ c.remaining)
    (suffix : ByteArray) : (c.extend suffix).unread.take count = c.unread.take count := by
  rw [unread_extend, List.take_append_of_le_length (by rwa [length_unread])]

theorem size_data_cut_le (c : Cursor) (size : Nat) (hsize : c.offset ≤ size) :
    (c.cut size hsize).data.size ≤ size := by
  simp only [cut, ByteArray.size_extract]
  omega

/-- A cut buffer with its rest behind it is the buffer again. -/
theorem extend_cut (c : Cursor) {size : Nat} (hsize : c.offset ≤ size) (hle : size ≤ c.data.size) :
    (c.cut size hsize).extend (c.data.extract size c.data.size) = c := by
  refine ext ?_ rfl
  change c.data.extract 0 size ++ c.data.extract size c.data.size = c.data
  rw [ByteArray.extract_append_extract, Nat.zero_min, Nat.max_eq_right hle,
    ByteArray.extract_zero_size]

end Bytestream.Cursor
