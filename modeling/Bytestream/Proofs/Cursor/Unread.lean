import Mathlib
import Bytestream.Decoder.Fixed

/-!
# Unread bytes

A cursor stands in front of a list of bytes, those that are still to be read.  The primitive reads
are described by this list alone: they fail if it is too short, and otherwise they take a part off
its front.  Later proofs speak of prefixes of the list and never of indices into the buffer.
-/

namespace Bytestream

namespace Cursor

/-- The bytes from the cursor to the end of the buffer. -/
def unread (c : Cursor) : List UInt8 :=
  c.data.data.toList.drop c.offset

/-- The bytes from the cursor up to a later one. -/
def upTo (c c' : Cursor) : List UInt8 :=
  c.unread.take (c'.offset - c.offset)

/-- A cursor is its buffer and its offset. -/
theorem ext {c c' : Cursor} (hdata : c.data = c'.data) (hoffset : c.offset = c'.offset) :
    c = c' := by
  cases c
  cases c'
  cases hdata
  cases hoffset
  rfl

theorem length_unread (c : Cursor) : c.unread.length = c.remaining := by
  simp [unread, remaining]

theorem offset_add_length_unread (c : Cursor) : c.offset + c.unread.length = c.data.size := by
  rw [length_unread]
  exact c.offset_add_remaining

/-- What is still to be read tells where in its buffer a cursor stands. -/
theorem eq_of_unread_eq {c c' : Cursor} (hdata : c.data = c'.data)
    (hunread : c.unread = c'.unread) : c = c' := by
  refine ext hdata ?_
  have hsize := c.offset_add_length_unread
  have hsize' := c'.offset_add_length_unread
  rw [hdata, hunread] at hsize
  omega

/-- Where nothing is left to be read, a truncation is one at the end of the buffer. -/
theorem truncated_of_unread_nil {c : Cursor} (hunread : c.unread = []) (needed : Nat) :
    c.truncated needed = .truncated c.data.size needed 0 := by
  have hremaining : c.remaining = 0 := by rw [← length_unread, hunread, List.length_nil]
  have hend := c.offset_add_remaining
  rw [hremaining, Nat.add_zero] at hend
  rw [truncated, hremaining, hend]

/-- Bytes that come next are there to be passed over. -/
theorem length_le_remaining {c : Cursor} {bytes : List UInt8} (hbytes : bytes <+: c.unread) :
    bytes.length ≤ c.remaining := by
  rw [← length_unread]
  exact hbytes.length_le

@[simp] theorem unread_advance (c : Cursor) (count : Nat) (hcount : count ≤ c.remaining) :
    (c.advance count hcount).unread = c.unread.drop count := by
  simp [unread, List.drop_drop]

/-- Behind the front of what comes next, the rest of it comes next. -/
theorem prefix_unread_advance {c : Cursor} {front back : List UInt8}
    (hbytes : front ++ back <+: c.unread) (hfront : front.length ≤ c.remaining) :
    back <+: (c.advance front.length hfront).unread := by
  obtain ⟨rest, hrest⟩ := hbytes
  refine ⟨rest, ?_⟩
  rw [unread_advance, ← hrest, List.append_assoc, List.drop_left]

theorem one_le_remaining {c : Cursor} {byte : UInt8} {rest : List UInt8}
    (hunread : c.unread = byte :: rest) : 1 ≤ c.remaining := by
  simp [← length_unread, hunread]

theorem unread_advance_one {c : Cursor} {byte : UInt8} {rest : List UInt8}
    (hunread : c.unread = byte :: rest) :
    (c.advance 1 (one_le_remaining hunread)).unread = rest := by
  simp [hunread]

@[simp] theorem upTo_advance (c : Cursor) (count : Nat) (hcount : count ≤ c.remaining) :
    c.upTo (c.advance count hcount) = c.unread.take count := by
  simp [upTo]

/-- What comes next at a later cursor is the rest of what came next before. -/
theorem unread_eq_drop {c c' : Cursor} (hdata : c'.data = c.data) (hoffset : c.offset ≤ c'.offset) :
    c'.unread = c.unread.drop (c'.offset - c.offset) := by
  rw [unread, unread, hdata, List.drop_drop, Nat.add_sub_cancel' hoffset]

/-- The bytes up to a later cursor come in front of those from there to one later still. -/
theorem upTo_append_upTo {c c₁ c₂ : Cursor} (hdata : c₁.data = c.data)
    (hoffset₁ : c.offset ≤ c₁.offset) (hoffset₂ : c₁.offset ≤ c₂.offset) :
    c.upTo c₁ ++ c₁.upTo c₂ = c.upTo c₂ := by
  have hsum : c₂.offset - c.offset = (c₁.offset - c.offset) + (c₂.offset - c₁.offset) := by omega
  rw [upTo, upTo, upTo, unread_eq_drop hdata hoffset₁, hsum, List.take_add]

theorem toList_slice (c : Cursor) (count : Nat) :
    (c.slice count).data.toList = c.unread.take count := by
  simp [slice, unread]

/-- A cursor opens in front of whatever stands behind the first bytes of a buffer. -/
theorem exists_openAt_append (before after : ByteArray) :
    ∃ c, openAt (before ++ after) before.size = .ok c ∧ c.data = before ++ after ∧
      c.offset = before.size ∧ c.unread = after.data.toList := by
  have hoffset : before.size ≤ (before ++ after).size := by simp
  let c : Cursor := { data := before ++ after, offset := before.size, offset_le := hoffset }
  refine ⟨c, openAt_eq_ok_iff.mpr ⟨rfl, rfl⟩, rfl, rfl, ?_⟩
  change ((before ++ after).data.toList.drop before.size) = _
  simp

end Cursor

namespace Decoder

theorem u8_of_unread_nil {c : Cursor} (hunread : c.unread = []) :
    u8 c = .error (c.truncated 1) c := by
  have hend : ¬ c.offset < c.data.size := by
    have hlength := c.offset_add_length_unread
    rw [hunread] at hlength
    simp only [List.length_nil] at hlength
    omega
  simp [u8, hend]

theorem u8_of_unread_cons {c : Cursor} {byte : UInt8} {rest : List UInt8}
    (hunread : c.unread = byte :: rest) :
    u8 c = .ok byte (c.advance 1 (Cursor.one_le_remaining hunread)) := by
  have hoffset : c.offset < c.data.size :=
    Cursor.lt_size_of_le_remaining Nat.one_pos (Cursor.one_le_remaining hunread)
  have hbyte : c.data[c.offset] = byte := by
    have hhead : c.unread[0]? = some byte := by simp [hunread]
    rw [Cursor.unread, List.getElem?_drop, Nat.add_zero, Array.getElem?_toList,
      Array.getElem?_eq_getElem hoffset] at hhead
    exact Option.some.inj hhead
  simp only [u8, hoffset, ↓reduceDIte, hbyte]
  rfl

end Decoder

end Bytestream
