import Mathlib
import Bytestream.Machine.Request
import Bytestream.Proofs.Machine.Varint
import Bytestream.Proofs.Read.Run

/-!
# No faults

The program of a request simulates the decoder of its read, whatever the request is.  A place that
can be reached therefore stands for a cursor, and from such a place no request comes to a fault.
-/

namespace Bytestream.Machine

variable {α : Type}

theorem simulates_string : Simulates Eq string Decoder.string := by
  apply Simulates.atomically
  apply simulates_u32.bind
  rintro size _ rfl
  have hbytes := simulates_bytes size.toUInt64
  rw [UInt32.toNat_toUInt64] at hbytes
  exact hbytes.map fun _ _ htaken => congrArg ByteString.mk htaken.1

theorem simulates_name : Simulates Eq name Decoder.name := by
  apply Simulates.atomically
  apply simulates_offset.bind
  rintro start _ rfl
  apply simulates_string.bind
  rintro s _ rfl
  rcases s.text? with _ | text
  · exact simulates_throw _
  · exact simulates_pure rfl

/-- The index of an element is below the number of elements, so that the next index is a word. -/
theorem simulates_elements {element : Machine α} {d : Decoder α} (helement : Simulates Eq element d)
    (count : UInt64) {left : Nat} {index : UInt64} (hindex : index.toNat + left = count.toNat)
    (done : Array α) :
    Simulates Eq (elements element count left index done)
      (Decoder.elements d count.toNat left done) := by
  induction left generalizing index done with
  | zero => exact simulates_pure rfl
  | succ left ih =>
      have hdone : count.toNat - (left + 1) = index.toNat := Nat.sub_eq_of_eq_add hindex.symm
      have hle : index.toNat + (1 : UInt64).toNat ≤ count.toNat :=
        hindex ▸ Nat.add_le_add_left (Nat.le_add_left 1 left) index.toNat
      obtain ⟨hadd, hnext⟩ := add_of_lt (Nat.lt_of_le_of_lt hle count.toNat_lt)
      have hrest : (index + 1).toNat + left = count.toNat := by
        rw [hnext, ← hindex, Nat.add_comm left 1, ← Nat.add_assoc]
        rfl
      rw [elements, Decoder.elements_succ, hdone]
      apply (helement.context _).bind
      rintro value _ rfl
      apply Simulates.lift hadd
      exact ih hrest _

/-- Room is made for no more elements than there are bytes, whatever the number announced. -/
theorem simulates_capacity (count : UInt64) {m : Machine α} {d : Decoder α}
    (hm : Simulates Eq m d) : Simulates Eq (do let _ ← capacity count; m) d := by
  intro place c hat
  obtain ⟨left, hleft, _⟩ := hat.remaining
  have hcapacity : capacity count place = .ok (min count left) place := by
    simp only [capacity, get_bind, hleft, liftM_ok_bind, pure_apply]
  rw [bind_of_ok hcapacity]
  exact hm place c hat

theorem simulates_vector {element : Machine α} {d : Decoder α} (helement : Simulates Eq element d) :
    Simulates Eq (vector element) (Decoder.vector d) := by
  rw [Decoder.vector_eq]
  apply Simulates.atomically
  apply simulates_u32.bind
  rintro count _ rfl
  apply simulates_capacity
  rw [← UInt32.toNat_toUInt64 count]
  exact simulates_elements helement count.toUInt64 (Nat.zero_add _) #[]

/-- A request is carried out as its read is decoded. -/
theorem Request.simulates (request : Request) :
    Simulates Eq request.program request.read.decoder := by
  induction request with
  | peek => exact simulates_peek
  | skip count => exact simulates_skip count
  | u8 => exact simulates_u8
  | u32LE => exact simulates_u32LE
  | u64LE => exact simulates_u64LE
  | bytes count => exact (simulates_bytes count).mono fun _ _ htaken => htaken.1
  | bytesAgain count => exact simulates_bytesAgain count
  | unsigned maxBits => exact simulates_unsigned maxBits
  | signed maxBits => exact simulates_signed maxBits
  | integer type => exact simulates_integer type
  | u32 => exact simulates_u32
  | u64 => exact simulates_u64
  | i32 => exact simulates_i32
  | i64 => exact simulates_i64
  | string => exact simulates_string
  | name => exact simulates_name
  | vector element ih => exact simulates_vector ih
  | context request message ih => exact ih.context message

section Ends

variable {m : Machine α} {d : Decoder α} {place : Place} {c : Cursor}

theorem Simulates.result_eq (hm : Simulates Eq m d) (hat : place.At c) :
    m.result place = (d.result c).mapError Stop.failed := by
  have hend := hm place c hat
  simp only [result, Decoder.result]
  generalize m place = ended, d c = ended' at hend
  rcases hend with ⟨rfl, _⟩ | ⟨_⟩
  · rfl
  · rfl

theorem Simulates.after_at (hm : Simulates Eq m d) (hat : place.At c) :
    (m.after place).At (d.after c) := by
  have hend := hm place c hat
  simp only [after, Decoder.after]
  generalize m place = ended, d c = ended' at hend
  rcases hend with ⟨_, hat₁⟩ | ⟨hat₁⟩
  · exact hat₁
  · exact hat₁

end Ends

/-- The outcome is no fault. -/
def Faultless (outcome : Except Stop α) : Prop :=
  ∀ fault, outcome ≠ .error (.fault fault)

theorem faultless_mapError (outcome : Except DecodeError α) :
    Faultless (outcome.mapError Stop.failed) := by
  intro fault hfault
  rcases outcome with e | value
  · cases hfault
  · cases hfault

/-- A buffer is opened at the offsets in it, and refused beyond its end as a cursor is. -/
theorem openAt_eq (buffer : Buffer) (offset : UInt64) :
    Place.openAt buffer offset =
      ((Cursor.openAt buffer.bytes offset.toNat).map fun _ => Place.mk buffer offset).mapError
        Stop.failed := by
  by_cases hoffset : offset.toNat ≤ buffer.bytes.size
  · have hinside : ¬ buffer.length < offset := by
      rwa [UInt64.lt_iff_toNat_lt, Buffer.toNat_length, Nat.not_lt]
    rw [Place.openAt, if_neg hinside, Cursor.openAt, dif_pos hoffset]
    rfl
  · have houtside : buffer.length < offset := by
      rwa [UInt64.lt_iff_toNat_lt, Buffer.toNat_length, ← Nat.not_le]
    obtain ⟨hsub, hmissing⟩ := sub_of_le (UInt64.le_of_lt houtside)
    rw [Buffer.toNat_length] at hmissing
    rw [Place.openAt, if_pos houtside, hsub, Cursor.openAt, dif_neg hoffset, ← hmissing,
      ← Buffer.toNat_length]
    rfl

/-- Whatever has been requested, the place stands for a cursor of the buffer. -/
theorem Reachable.exists_at {buffer : Buffer} {place : Place} (hplace : Reachable buffer place) :
    ∃ c : Cursor, c.data = buffer.bytes ∧ place.At c := by
  induction hplace with
  | @opened offset place hopen =>
      rw [openAt_eq] at hopen
      rcases hc : Cursor.openAt buffer.bytes offset.toNat with e | c
      · rw [hc] at hopen
        cases hopen
      · rw [hc] at hopen
        cases hopen
        obtain ⟨hdata, hoffset⟩ := Cursor.openAt_eq_ok_iff.mp hc
        exact ⟨c, hdata, hdata, hoffset⟩
  | @requested place _ request ih =>
      obtain ⟨c, hdata, hat⟩ := ih
      obtain ⟨hkept, _⟩ := Read.Step.ofRead_transactional c request.read
      exact ⟨_, hkept.trans hdata, request.simulates.after_at hat⟩

theorem roundLimit_clamp (maxBits : UInt32) :
    roundLimit (clamp maxBits) = Varint.clampWidth maxBits.toNat ⌈/⌉ 7 + 1 ∧
      roundLimit (clamp maxBits) ≤ 11 := by
  rw [← Varint.groupLimit_eq_ceilDiv, ← toNat_clamp]
  exact ⟨rfl, Nat.succ_le_succ (Varint.groupLimit_le (toNat_clamp_le maxBits))⟩

/-- Opening a buffer comes to no fault, and at a place that can be reached in it no request does,
with words of any size in it, nor does the count of the bytes that remain.  Varints are read in
eleven rounds at most, by the width of their values.  The place stands for a cursor, and all that
comes of it is what comes of the cursor. -/
theorem reachable_faultless {buffer : Buffer} {place : Place} (hplace : Reachable buffer place) :
    (∀ offset, Faultless (Place.openAt buffer offset)) ∧
      Faultless place.remaining ∧
      (∀ request : Request, Faultless (request.program.result place)) ∧
      (∀ maxBits, roundLimit (clamp maxBits) = Varint.clampWidth maxBits.toNat ⌈/⌉ 7 + 1 ∧
        roundLimit (clamp maxBits) ≤ 11) ∧
      ∃ c : Cursor, c.data = buffer.bytes ∧ c.offset = place.offset.toNat ∧
        place.remaining = .ok (UInt64.ofNat c.remaining) ∧
        ∀ request : Request,
          request.program.result place = (request.read.decoder.result c).mapError Stop.failed ∧
            (request.program.after place).offset.toNat = (request.read.decoder.after c).offset := by
  obtain ⟨c, hdata, hat⟩ := hplace.exists_at
  obtain ⟨left, hleft, hleftNat⟩ := hat.remaining
  have hresult (request : Request) := request.simulates.result_eq hat
  refine ⟨fun offset => ?_, ?_, fun request => ?_, roundLimit_clamp, c, hdata, hat.offset_eq, ?_,
    fun request => ⟨hresult request, ?_⟩⟩
  · rw [openAt_eq]
    exact faultless_mapError _
  · rw [hleft]
    exact faultless_mapError (.ok left)
  · rw [hresult]
    exact faultless_mapError _
  · rw [hleft, ← hleftNat, UInt64.ofNat_toNat]
  · exact (request.simulates.after_at hat).offset_eq.symm

/-- A buffer with one varint, of two bytes. -/
def oneVarint : Buffer where
  bytes := ⟨#[0x80, 0x01]⟩
  size_lt := by decide

/-- Behind the varint, which was read with the largest of widths, the largest number of bytes is
refused. -/
theorem faultless_behind_varint :
    Reachable oneVarint ⟨oneVarint, 2⟩ ∧
      Faultless ((Request.bytes 0xFFFFFFFFFFFFFFFF).program.result ⟨oneVarint, 2⟩) := by
  have hstart : Reachable oneVarint ⟨oneVarint, 0⟩ := @Reachable.opened _ 0 _ rfl
  have hplace : Reachable oneVarint ⟨oneVarint, 2⟩ := hstart.requested (.unsigned 0xFFFFFFFF)
  exact ⟨hplace, (reachable_faultless hplace).2.2.1 _⟩

end Bytestream.Machine
