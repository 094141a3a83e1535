import Mathlib
import Bytestream.Proofs.Decoder.Fixed
import Bytestream.Proofs.Decoder.Outcome
import Bytestream.Proofs.Read.Inheritance

/-!
# The same bytes further on

What a read yields does not depend on where its bytes stand.  With other bytes in front of the buffer
every place has a greater offset, and so has the place that an error names; the value, the figures
of the error and its contexts stay as they are.  A read looks up offsets only to name them in an
error, so the two runs of a read differ in nothing else, and this passes from the parts of a read to
the whole.
-/

namespace Bytestream

/-! ### Moved errors -/

/-- The error with the place of its cause `distance` bytes further on. -/
def DecodeError.moved (distance : Nat) : DecodeError → DecodeError
  | overflow maxBits offset => overflow maxBits (offset + distance)
  | truncated offset needed available => truncated (offset + distance) needed available
  | invalidUtf8 offset => invalidUtf8 (offset + distance)
  | nested context e => nested context (e.moved distance)

namespace DecodeError

@[simp] theorem contexts_moved (distance : Nat) (e : DecodeError) :
    (e.moved distance).contexts = e.contexts := by
  induction e with
  | nested context e ih => simp [moved, ih]
  | _ => rfl

@[simp] theorem root_moved (distance : Nat) (e : DecodeError) :
    (e.moved distance).root = e.root.moved distance := by
  induction e with
  | nested context e ih => exact ih
  | _ => rfl

end DecodeError

/-! ### Cursors behind other bytes -/

namespace Cursor

/-- The same place in the buffer with `before` in front of it. -/
def behind (c : Cursor) (before : ByteArray) : Cursor where
  data := before ++ c.data
  offset := c.offset + before.size
  offset_le := by
    have := c.offset_le
    rw [ByteArray.size_append]
    omega

@[simp] theorem unread_behind (c : Cursor) (before : ByteArray) :
    (c.behind before).unread = c.unread := by
  have hoffset : c.offset + before.size = before.data.toList.length + c.offset := by
    rw [Array.length_toList]
    exact Nat.add_comm _ _
  simp only [unread, behind, ByteArray.data_append, Array.toList_append, hoffset,
    List.drop_length_add_append]

@[simp] theorem remaining_behind (c : Cursor) (before : ByteArray) :
    (c.behind before).remaining = c.remaining := by
  rw [← length_unread, unread_behind, length_unread]

theorem truncated_behind (c : Cursor) (before : ByteArray) (needed : Nat) :
    (c.behind before).truncated needed = (c.truncated needed).moved before.size := by
  rw [truncated, remaining_behind]
  rfl

theorem advance_behind (c : Cursor) (before : ByteArray) {count : Nat}
    (hcount : count ≤ c.remaining) (hcount' : count ≤ (c.behind before).remaining) :
    (c.behind before).advance count hcount' = (c.advance count hcount).behind before :=
  ext rfl (Nat.add_right_comm c.offset before.size count)

/-- An offset that lies in the buffer lies in the buffer behind other bytes, and one beyond the end
is refused there as well, by as many bytes. -/
theorem openAt_behind (before data : ByteArray) (offset : Nat) :
    openAt (before ++ data) (offset + before.size) =
      match openAt data offset with
      | .ok c => .ok (c.behind before)
      | .error e => .error (e.moved before.size) := by
  cases hopen : openAt data offset with
  | ok c =>
      obtain ⟨rfl, rfl⟩ := openAt_eq_ok_iff.mp hopen
      exact openAt_eq_ok_iff.mpr ⟨rfl, rfl⟩
  | error e =>
      obtain ⟨hoffset, rfl⟩ := openAt_eq_error_iff.mp hopen
      have hsize : (before ++ data).size = data.size + before.size := by
        rw [ByteArray.size_append, Nat.add_comm]
      refine openAt_eq_error_iff.mpr ⟨by omega, ?_⟩
      rw [hsize, Nat.add_sub_add_right]
      rfl

end Cursor

/-! ### Reads behind other bytes -/

namespace Decoder

variable {α β : Type}

/-- What `d` yields at a cursor, `d'` yields at the same place behind other bytes, with nothing but
the offsets changed. -/
def Translates (before : ByteArray) (d d' : Decoder α) : Prop :=
  ∀ c : Cursor, d' (c.behind before) =
    match d c with
    | .ok value c' => .ok value (c'.behind before)
    | .error e c' => .error (e.moved before.size) (c'.behind before)

variable {before : ByteArray}

theorem Translates.ok {d d' : Decoder α} (hd : Translates before d d') {c c' : Cursor} {value : α}
    (hok : d c = .ok value c') : d' (c.behind before) = .ok value (c'.behind before) := by
  rw [hd c, hok]

theorem Translates.error {d d' : Decoder α} (hd : Translates before d d') {c c' : Cursor}
    {e : DecodeError} (herror : d c = .error e c') :
    d' (c.behind before) = .error (e.moved before.size) (c'.behind before) := by
  rw [hd c, herror]

theorem Translates.bind {d d' : Decoder α} {f f' : α → Decoder β} (hd : Translates before d d')
    (hf : ∀ value, Translates before (f value) (f' value)) :
    Translates before (d >>= f) (d' >>= f') := by
  intro c
  cases hread : d c with
  | ok value c₁ =>
      rw [bind_of_ok (hd.ok hread), bind_of_ok hread]
      exact hf value c₁
  | error e c₁ => rw [bind_of_error (hd.error hread), bind_of_error hread]

theorem Translates.atomically {d d' : Decoder α} (hd : Translates before d d') :
    Translates before (atomically d) (atomically d') := by
  intro c
  cases hread : d c with
  | ok value c₁ => simp only [Decoder.atomically, hread, hd.ok hread]
  | error e c₁ => simp only [Decoder.atomically, hread, hd.error hread]

theorem Translates.context {d d' : Decoder α} (hd : Translates before d d') (message : String) :
    Translates before (d.context message) (d'.context message) := by
  intro c
  cases hread : d c with
  | ok value c₁ => simp only [Decoder.context, mapError, hread, hd.ok hread]
  | error e c₁ =>
      simp only [Decoder.context, mapError, hread, hd.error hread]
      rfl

/-- A read of a fixed number of bytes depends on the bytes that come next alone. -/
theorem Takes.translates {d : Decoder α} {count : Nat} {value : List UInt8 → α}
    (hd : Takes d count value) : Translates before d d := by
  intro c
  by_cases hcount : count ≤ c.remaining
  · have hcount' : count ≤ (c.behind before).remaining := by
      rwa [Cursor.remaining_behind]
    rw [hd c, dif_pos hcount, hd, dif_pos hcount', Cursor.unread_behind,
      Cursor.advance_behind c before hcount]
  · have hcount' : ¬ count ≤ (c.behind before).remaining := by
      rwa [Cursor.remaining_behind]
    rw [hd c, dif_neg hcount, hd, dif_neg hcount', Cursor.truncated_behind]

theorem translates_peek : Translates before peek peek := by
  intro c
  have hnext : Translates before u8 u8 := takes_u8.translates
  rw [peek_eq, peek_eq, hnext c]
  cases u8 c with
  | ok byte c₁ => rfl
  | error e c₁ => rfl

theorem translates_congruence (before : ByteArray) :
    Congruence before.size (fun d d' => Translates before d d') where
  pure := fun _ _ => rfl
  overflow := fun _ _ _ => rfl
  invalidUtf8 := fun _ _ => rfl
  bind := Translates.bind
  -- The second offset that is looked up is the first one and the distance.
  offset := fun hf c => hf c.offset c
  atomically := Translates.atomically
  u8 := takes_u8.translates
  bytes := fun count => (takes_bytes count).translates

/-- The outcome of a read at an offset, with every offset `distance` bytes further on. -/
def movedOutcome (distance : Nat) : Except DecodeError (α × Nat) → Except DecodeError (α × Nat)
  | .ok (value, next) => .ok (value, next + distance)
  | .error e => .error (e.moved distance)

theorem Translates.runAt {d d' : Decoder α} (hd : Translates before d d') (data : ByteArray)
    (offset : Nat) :
    d'.runAt (before ++ data) (offset + before.size) =
      movedOutcome before.size (d.runAt data offset) := by
  simp only [Decoder.runAt, Cursor.openAt_behind]
  cases Cursor.openAt data offset with
  | error e => rfl
  | ok c =>
      cases hread : d c with
      | ok value c₁ =>
          simp only [hread, hd.ok hread]
          rfl
      | error e c₁ =>
          simp only [hread, hd.error hread]
          rfl

end Decoder

open Decoder

theorem Read.translates (before : ByteArray) (read : Read) :
    Translates before read.decoder read.decoder :=
  (translates_congruence before).read (fun message hd => hd.context message) read
    (Or.inr translates_peek)

/-- Other bytes in front of a buffer move every place in it by their number, and change nothing
else.  A cursor opens behind them where it opened before.  A read there yields the same value or the
same error, with the place of its cause moved, and leaves the cursor at the moved place.  Whatever is
read at an offset is read at the moved offset, and an offset beyond the end stays beyond it.  Moving
an error changes neither its contexts nor anything of its cause but the place. -/
theorem Read.behind_other_bytes (before : ByteArray) :
    (∀ data offset, Cursor.openAt (before ++ data) (offset + before.size) =
      match Cursor.openAt data offset with
      | .ok c => .ok (c.behind before)
      | .error e => .error (e.moved before.size)) ∧
    (∀ (read : Read) (c : Cursor), read.decoder (c.behind before) =
      match read.decoder c with
      | .ok value c' => .ok value (c'.behind before)
      | .error e c' => .error (e.moved before.size) (c'.behind before)) ∧
    (∀ data offset maxBits,
      Varint.unsignedAt (before ++ data) (offset + before.size) maxBits =
          movedOutcome before.size (Varint.unsignedAt data offset maxBits) ∧
        Varint.signedAt (before ++ data) (offset + before.size) maxBits =
          movedOutcome before.size (Varint.signedAt data offset maxBits) ∧
        stringAt (before ++ data) (offset + before.size) =
          movedOutcome before.size (stringAt data offset)) ∧
    ∀ e : DecodeError, (e.moved before.size).contexts = e.contexts ∧
      (e.moved before.size).root = e.root.moved before.size := by
  have hcongruence := translates_congruence before
  refine ⟨Cursor.openAt_behind before, ?_, ?_, ?_⟩
  · intro read c
    cases hread : read.decoder c with
    | ok value c' => exact (read.translates before).ok hread
    | error e c' => exact (read.translates before).error hread
  · intro data offset maxBits
    exact ⟨(hcongruence.unsigned maxBits).runAt data offset,
      (hcongruence.signed maxBits).runAt data offset, hcongruence.string.runAt data offset⟩
  · intro e
    exact ⟨e.contexts_moved _, e.root_moved _⟩

/-- The bytes in front are a name of their own, and the second name in the vector is the one that is
no text: its length stands at offset 4. -/
example : (Read.vector (.item .name)).decoder.runAt
    (⟨#[0x01, 0x61]⟩ ++ ⟨#[0x02, 0x00, 0x01, 0xFF]⟩) 2 =
      .error (.nested "vector element 1 of 2" (.invalidUtf8 4)) := rfl

end Bytestream
