import Mathlib
import Bytestream.Proofs.Cursor.Unread

/-!
# Consuming bytes

A decoder consumes a list of bytes if it yields the same value wherever these bytes come next, and
stops right behind them whatever follows.  Consumption composes: bytes consumed by one decoder and
bytes consumed by the next make up what the two consume in sequence.  This is how what was written
field by field is read back field by field.
-/

namespace Bytestream.Decoder

variable {α β : Type}

/-- Wherever the bytes come next, the decoder takes exactly these and yields the value. -/
def Consumes (d : Decoder α) (bytes : List UInt8) (value : α) : Prop :=
  ∀ (c : Cursor) (hbytes : bytes <+: c.unread),
    d c = .ok value (c.advance bytes.length (Cursor.length_le_remaining hbytes))

theorem consumes_pure (value : α) : Consumes (pure value) [] value := by
  intro c hbytes
  rfl

theorem Consumes.bind {d : Decoder α} {f : α → Decoder β} {front back : List UInt8} {value : α}
    {result : β} (hd : Consumes d front value) (hf : Consumes (f value) back result) :
    Consumes (d >>= f) (front ++ back) result := by
  intro c hbytes
  have hfront : front <+: c.unread := (List.prefix_append front back).trans hbytes
  have hback : back <+: (c.advance front.length (Cursor.length_le_remaining hfront)).unread :=
    Cursor.prefix_unread_advance hbytes _
  have hrun : (d >>= f) c =
      f value (c.advance front.length (Cursor.length_le_remaining hfront)) := by
    simp only [Bind.bind, EStateM.bind, hd c hfront]
  rw [hrun, hf _ hback]
  congr 1
  exact Cursor.ext rfl (by simp [Nat.add_assoc])

/-- What is made of the value without reading on takes no more bytes. -/
theorem Consumes.bind_pure {d : Decoder α} {f : α → Decoder β} {bytes : List UInt8} {value : α}
    {result : β} (hd : Consumes d bytes value) (hf : f value = pure result) :
    Consumes (d >>= f) bytes result := by
  have hbind := hd.bind (hf ▸ consumes_pure result)
  rwa [List.append_nil] at hbind

theorem Consumes.map {d : Decoder α} {bytes : List UInt8} {value : α} (hd : Consumes d bytes value)
    (f : α → β) : Consumes (do return f (← d)) bytes (f value) :=
  hd.bind_pure rfl

/-- A decoder that starts by looking where it is consumes what it consumes from any offset. -/
theorem Consumes.offset {f : Nat → Decoder α} {bytes : List UInt8} {value : α}
    (hf : ∀ start, Consumes (f start) bytes value) : Consumes (offset >>= f) bytes value := by
  intro c hbytes
  exact hf c.offset c hbytes

theorem Consumes.atomically {d : Decoder α} {bytes : List UInt8} {value : α}
    (hd : Consumes d bytes value) : Consumes (atomically d) bytes value := by
  intro c hbytes
  simp only [Decoder.atomically, hd c hbytes]

theorem Consumes.mapError {d : Decoder α} {bytes : List UInt8} {value : α}
    (hd : Consumes d bytes value) (change : DecodeError → DecodeError) :
    Consumes (mapError change d) bytes value := by
  intro c hbytes
  simp only [Decoder.mapError, hd c hbytes]

theorem consumes_u8 (byte : UInt8) : Consumes u8 [byte] byte := by
  intro c hbytes
  obtain ⟨rest, hrest⟩ := hbytes
  exact u8_of_unread_cons hrest.symm

theorem consumes_bytes (taken : ByteArray) : Consumes (bytes taken.size) taken.data.toList taken := by
  intro c hbytes
  have hlength : taken.data.toList.length = taken.size := by simp
  have hcount : taken.size ≤ c.remaining := hlength ▸ Cursor.length_le_remaining hbytes
  have hslice : c.slice taken.size = taken := by
    apply ByteArray.ext
    apply Array.toList_inj.mp
    rw [Cursor.toList_slice, ← hlength]
    exact (List.prefix_iff_eq_take.mp hbytes).symm
  simp only [bytes, hcount, ↓reduceDIte, hslice]
  congr 1

/-- A word is the number that its bytes write. -/
theorem consumes_word (written : List UInt8) :
    Consumes (word written.length) written (littleEndian written) := by
  have htaken := (consumes_bytes written.toByteArray).map fun taken =>
    littleEndian taken.data.toList
  simpa [word] using htaken

/-! ### Bytes in a buffer -/

/-- Read at an offset of a buffer, the bytes yield the value whatever stands before and behind them,
and the next read starts behind them. -/
def ReadsBetween (d : Decoder α) (bytes : List UInt8) (value : α) : Prop :=
  ∀ before after : ByteArray, d.runAt (before ++ bytes.toByteArray ++ after) before.size =
    .ok (value, before.size + bytes.length)

theorem Consumes.between {d : Decoder α} {bytes : List UInt8} {value : α}
    (hd : Consumes d bytes value) : ReadsBetween d bytes value := by
  intro before after
  obtain ⟨c, hopen, _, hoffset, hunread⟩ :=
    Cursor.exists_openAt_append before (bytes.toByteArray ++ after)
  have hbytes : bytes <+: c.unread := ⟨after.data.toList, by rw [hunread]; simp⟩
  rw [ByteArray.append_assoc, runAt, hopen]
  simp only [hd c hbytes, Cursor.offset_advance, hoffset]

end Bytestream.Decoder
