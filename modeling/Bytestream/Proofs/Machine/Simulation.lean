import Mathlib
import Bytestream.Machine.Place
import Bytestream.Proofs.Decoder.Outcome

/-!
# Programs that simulate decoders

A program simulates a decoder if, started where the decoder is started, it ends as the decoder does:
with a value for its value or with the very same error, and at the same offset of the same buffer.
A fault is no way for a decoder to end, so a program that simulates one has none.

Simulation composes as decoders do.  What has to be shown is therefore only that each checked
operation goes through at a place that stands for a cursor, where the offset lies in the buffer.
-/

namespace Bytestream.Machine

variable {α β γ δ : Type}

/-- The place stands for the cursor. -/
structure Place.At (place : Place) (c : Cursor) : Prop where
  data_eq : c.data = place.buffer.bytes
  offset_eq : c.offset = place.offset.toNat

/-- The program has ended as the decoder has, and the values are related by `R`. -/
inductive Agrees (R : α → β → Prop) :
    EStateM.Result Stop Place α → EStateM.Result DecodeError Cursor β → Prop where
  | yields {value : α} {value' : β} {place : Place} {c : Cursor} (hvalue : R value value')
      (hat : place.At c) : Agrees R (.ok value place) (.ok value' c)
  | fails {e : DecodeError} {place : Place} {c : Cursor} (hat : place.At c) :
      Agrees R (.error (.failed e) place) (.error e c)

/-- Wherever it starts, the program ends as the decoder does. -/
def Simulates (R : α → β → Prop) (m : Machine α) (d : Decoder β) : Prop :=
  ∀ place c, place.At c → Agrees R (m place) (d c)

/-! ### Checked operations at a place that stands for a cursor -/

section Places

variable {place : Place} {c : Cursor}

theorem Place.At.offset_le (hat : place.At c) : place.offset ≤ place.buffer.length := by
  rw [UInt64.le_iff_toNat_le, Buffer.toNat_length, ← hat.offset_eq, ← hat.data_eq]
  exact c.offset_le

/-- The difference is none below zero because the offset lies in the buffer. -/
theorem Place.At.remaining (hat : place.At c) :
    ∃ left, place.remaining = .ok left ∧ left.toNat = c.remaining := by
  obtain ⟨hsub, htoNat⟩ := sub_of_le hat.offset_le
  refine ⟨_, hsub, ?_⟩
  rw [htoNat, Buffer.toNat_length, ← hat.data_eq, ← hat.offset_eq]
  rfl

theorem Place.At.truncated (hat : place.At c) (needed : UInt64) :
    place.truncated needed = .ok (c.truncated needed.toNat) := by
  obtain ⟨left, hleft, htoNat⟩ := hat.remaining
  simp only [Place.truncated, hleft, Cursor.truncated, hat.offset_eq, ← htoNat]
  rfl

/-- No sum that ends in the buffer is too large for a word, and the bytes up to there can be
sliced. -/
theorem Place.At.add (hat : place.At c) {count : UInt64} (hcount : count.toNat ≤ c.remaining) :
    ∃ stop, add place.offset count = .ok stop ∧ stop.toNat = c.offset + count.toNat ∧
      place.buffer.slice place.offset stop = .ok (c.slice count.toNat) := by
  have hend : place.offset.toNat + count.toNat ≤ place.buffer.bytes.size := by
    rw [← hat.offset_eq, ← hat.data_eq, ← c.offset_add_remaining]
    exact Nat.add_le_add_left hcount _
  obtain ⟨hadd, htoNat⟩ := add_of_lt (Nat.lt_of_le_of_lt hend place.buffer.size_lt)
  have hbounds : place.offset ≤ place.offset + count ∧
      place.offset + count ≤ place.buffer.length := by
    rw [UInt64.le_iff_toNat_le, UInt64.le_iff_toNat_le, htoNat, Buffer.toNat_length]
    exact ⟨Nat.le_add_right _ _, hend⟩
  refine ⟨_, hadd, ?_, ?_⟩
  · rw [htoNat, hat.offset_eq]
  · rw [Buffer.slice, checked_of hbounds, htoNat, Cursor.slice, hat.data_eq, hat.offset_eq]

end Places

/-! ### Composing simulations -/

section Composition

variable {R : α → β → Prop} {S : γ → δ → Prop} {m : Machine α} {d : Decoder β}

theorem simulates_pure {value : α} {value' : β} (hvalue : R value value') :
    Simulates R (pure value) (pure value') :=
  fun _ _ hat => .yields hvalue hat

theorem simulates_throw (e : DecodeError) : Simulates R (throw (.failed e)) (throw e) :=
  fun _ _ hat => .fails hat

theorem Simulates.mono {R' : α → β → Prop} (hm : Simulates R m d)
    (hR : ∀ value value', R value value' → R' value value') : Simulates R' m d := by
  intro place c hat
  have hend := hm place c hat
  generalize m place = ended, d c = ended' at hend
  rcases hend with ⟨hvalue, hat₁⟩ | ⟨hat₁⟩
  · exact .yields (hR _ _ hvalue) hat₁
  · exact .fails hat₁

theorem Simulates.bind (hm : Simulates R m d) {f : α → Machine γ} {g : β → Decoder δ}
    (hf : ∀ value value', R value value' → Simulates S (f value) (g value')) :
    Simulates S (m >>= f) (d >>= g) := by
  intro place c hat
  have hend := hm place c hat
  simp only [Bind.bind, EStateM.bind]
  generalize m place = ended, d c = ended' at hend
  rcases hend with ⟨hvalue, hat₁⟩ | ⟨hat₁⟩
  · exact hf _ _ hvalue _ _ hat₁
  · exact .fails hat₁

/-- What is made of the values without reading on may relate them in another way. -/
theorem Simulates.map (hm : Simulates R m d) {f : α → γ} {g : β → δ}
    (hf : ∀ value value', R value value' → S (f value) (g value')) :
    Simulates S (do return f (← m)) (do return g (← d)) :=
  hm.bind fun value value' hvalue => simulates_pure (hf value value' hvalue)

/-- An operation that goes through leaves the rest of the program as it is. -/
theorem Simulates.lift {op : Except Stop γ} {value : γ} (hop : op = .ok value)
    {f : γ → Machine α} (hf : Simulates R (f value) d) :
    Simulates R ((liftM op : Machine γ) >>= f) d := by
  rw [hop]
  exact hf

theorem Simulates.atomically (hm : Simulates R m d) :
    Simulates R (atomically m) (d.atomically) := by
  intro place c hat
  have hend := hm place c hat
  simp only [Machine.atomically, Decoder.atomically]
  generalize m place = ended, d c = ended' at hend
  rcases hend with ⟨hvalue, hat₁⟩ | ⟨hat₁⟩
  · exact .yields hvalue hat₁
  · exact .fails hat

theorem Simulates.context (hm : Simulates R m d) (message : String) :
    Simulates R (m.context message) (d.context message) := by
  intro place c hat
  have hend := hm place c hat
  simp only [Machine.context, Decoder.context, Decoder.mapError]
  generalize m place = ended, d c = ended' at hend
  rcases hend with ⟨hvalue, hat₁⟩ | ⟨hat₁⟩
  · exact .yields hvalue hat₁
  · exact .fails hat₁

end Composition

/-! ### Reads of a fixed number of bytes -/

theorem simulates_offset :
    Simulates (fun start start' => start' = start.toNat) offset Decoder.offset :=
  fun _ _ hat => .yields hat.offset_eq hat

theorem peek_of_lt {place : Place} {c : Cursor} (hat : place.At c)
    (hinside : c.offset < c.data.size) : peek place = .ok c.data[c.offset] place := by
  rcases c with ⟨data, position, hposition⟩
  obtain ⟨rfl, rfl⟩ := hat
  simp only [peek, get_bind, hinside, ↓reduceDIte, pure_apply]

theorem peek_of_not_lt {place : Place} {c : Cursor} (hat : place.At c)
    (houtside : ¬ c.offset < c.data.size) :
    peek place = .error (.failed (c.truncated 1)) place := by
  have htruncated := hat.truncated 1
  rw [hat.data_eq, hat.offset_eq] at houtside
  simp only [peek, get_bind, houtside, ↓reduceDIte, htruncated, liftM_ok_bind, throw_apply]
  rfl

theorem simulates_peek : Simulates Eq peek Decoder.peek := by
  intro place c hat
  by_cases hinside : c.offset < c.data.size
  · rw [peek_of_lt hat hinside, Decoder.peek, dif_pos hinside]
    exact .yields rfl hat
  · rw [peek_of_not_lt hat hinside, Decoder.peek, dif_neg hinside]
    exact .fails hat

/-- A byte that has been seen is there to be passed. -/
theorem simulates_u8 : Simulates Eq u8 Decoder.u8 := by
  intro place c hat
  by_cases hinside : c.offset < c.data.size
  · have hone : (1 : UInt64).toNat ≤ c.remaining := Nat.le_sub_of_add_le' hinside
    obtain ⟨stop, hadd, hstop, _⟩ := hat.add hone
    simp only [u8, bind_of_ok (peek_of_lt hat hinside), get_bind, hadd, liftM_ok_bind, set_bind,
      pure_apply, Decoder.u8, hinside, ↓reduceDIte]
    exact .yields rfl ⟨hat.data_eq, hstop.symm⟩
  · rw [u8, bind_of_error (peek_of_not_lt hat hinside), Decoder.u8, dif_neg hinside]
    exact .fails hat

/-- Bytes that are there are taken. -/
theorem bytes_of_le {place : Place} {c : Cursor} (hat : place.At c) {count stop : UInt64}
    (hcount : count.toNat ≤ c.remaining) (hadd : add place.offset count = .ok stop)
    (hslice : place.buffer.slice place.offset stop = .ok (c.slice count.toNat)) :
    bytes count place = .ok (c.slice count.toNat) { place with offset := stop } := by
  obtain ⟨left, hleft, hleftNat⟩ := hat.remaining
  have hnot : ¬ left < count := by rwa [UInt64.lt_iff_toNat_lt, hleftNat, Nat.not_lt]
  simp only [bytes, get_bind, hleft, liftM_ok_bind, hnot, ↓reduceIte, hadd, hslice, set_bind,
    pure_apply]

/-- Bytes that are not there are refused before any sum is made. -/
theorem bytes_of_lt {place : Place} {c : Cursor} (hat : place.At c) {count : UInt64}
    (hcount : c.remaining < count.toNat) :
    bytes count place = .error (.failed (c.truncated count.toNat)) place := by
  obtain ⟨left, hleft, hleftNat⟩ := hat.remaining
  have hlt : left < count := by rwa [UInt64.lt_iff_toNat_lt, hleftNat]
  simp only [bytes, get_bind, hleft, liftM_ok_bind, hlt, ↓reduceIte, hat.truncated, throw_apply]

theorem simulates_bytes (count : UInt64) :
    Simulates (fun taken taken' => taken = taken' ∧ taken.size = count.toNat) (bytes count)
      (Decoder.bytes count.toNat) := by
  intro place c hat
  by_cases hcount : count.toNat ≤ c.remaining
  · obtain ⟨stop, hadd, hstop, hslice⟩ := hat.add hcount
    rw [bytes_of_le hat hcount hadd hslice, Decoder.bytes, dif_pos hcount]
    exact .yields ⟨rfl, Cursor.size_slice hcount⟩ ⟨hat.data_eq, hstop.symm⟩
  · rw [bytes_of_lt hat (Nat.lt_of_not_le hcount), Decoder.bytes, dif_neg hcount]
    exact .fails hat

/-- The bytes that are sliced out again are those between the two places, which were taken. -/
theorem simulates_bytesAgain (count : UInt64) :
    Simulates Eq (bytesAgain count) (Decoder.bytes count.toNat) := by
  intro place c hat
  by_cases hcount : count.toNat ≤ c.remaining
  · obtain ⟨stop, hadd, hstop, hslice⟩ := hat.add hcount
    have hbytes := bytes_of_le hat hcount hadd hslice
    have hsize : UInt64.ofNat (c.slice count.toNat).size = count := by
      rw [Cursor.size_slice hcount, UInt64.ofNat_toNat]
    have hrun : bytesAgain count place =
        .ok (c.slice count.toNat) { place with offset := stop } := by
      simp only [bytesAgain, offset_bind, bind_of_ok hbytes, hsize, get_bind, hadd, liftM_ok_bind,
        hslice, liftM_ok]
    rw [hrun, Decoder.bytes, dif_pos hcount]
    exact .yields rfl ⟨hat.data_eq, hstop.symm⟩
  · have hbytes := bytes_of_lt hat (Nat.lt_of_not_le hcount)
    simp only [bytesAgain, offset_bind, bind_of_error hbytes, Decoder.bytes, hcount, ↓reduceDIte]
    exact .fails hat

theorem simulates_skip (count : UInt64) :
    Simulates Eq (skip count) (Decoder.skip count.toNat) :=
  (simulates_bytes count).map (g := fun _ => ()) fun _ _ _ => rfl

/-- What has been taken has the size of the array that it is copied to. -/
theorem simulates_array (count : UInt64) :
    Simulates Eq (array count) (Decoder.bytes count.toNat) := by
  rw [← bind_pure (Decoder.bytes count.toNat)]
  apply (simulates_bytes count).bind
  rintro taken _ ⟨rfl, hsize⟩
  rw [copy_of_size hsize]
  exact simulates_pure rfl

theorem simulates_word (count : UInt64) :
    Simulates Eq (word count) (Decoder.word count.toNat) :=
  (simulates_array count).map fun _ _ htaken => htaken ▸ rfl

theorem simulates_u32LE : Simulates Eq u32LE Decoder.u32LE :=
  (simulates_word 4).map fun _ _ hword => congrArg UInt32.ofNat hword

theorem simulates_u64LE : Simulates Eq u64LE Decoder.u64LE :=
  (simulates_word 8).map fun _ _ hword => congrArg UInt64.ofNat hword

end Bytestream.Machine
