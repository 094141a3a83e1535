import Mathlib
import Bytestream.Proofs.Cursor.Extension

/-!
# Taking a fixed number of bytes

The primitive reads differ in what they make of their bytes and in nothing else.  If enough bytes
remain, they take them, and otherwise they report how many they needed and stay.  What is said of a
read of this kind is said once, for `Takes`.
-/

namespace Bytestream.Decoder

variable {α : Type}

/-- The read takes the next `count` bytes and makes its value of them, or takes none of them if fewer
remain. -/
def Takes (d : Decoder α) (count : Nat) (value : List UInt8 → α) : Prop :=
  ∀ c : Cursor, d c =
    if hcount : count ≤ c.remaining then
      .ok (value (c.unread.take count)) (c.advance count hcount)
    else .error (c.truncated count) c

theorem takes_u8 : Takes u8 1 fun taken => taken.headD 0 := by
  intro c
  cases hunread : c.unread with
  | nil =>
      have hremaining : ¬ 1 ≤ c.remaining := by
        rw [← Cursor.length_unread, hunread]
        simp
      rw [u8_of_unread_nil hunread, dif_neg hremaining]
  | cons byte rest =>
      rw [u8_of_unread_cons hunread, dif_pos (Cursor.one_le_remaining hunread)]
      rfl

theorem takes_bytes (count : Nat) : Takes (bytes count) count List.toByteArray := by
  intro c
  have hslice : c.slice count = (c.unread.take count).toByteArray := by
    apply ByteArray.ext
    apply Array.toList_inj.mp
    rw [Cursor.toList_slice]
    simp
  rw [bytes, hslice]

/-- A look at the next byte is a read of it that goes back. -/
theorem peek_eq (c : Cursor) :
    peek c =
      match u8 c with
      | .ok byte _ => .ok byte c
      | .error e _ => .error e c := by
  simp only [peek, u8]
  by_cases hoffset : c.offset < c.data.size
  · simp only [hoffset, ↓reduceDIte]
  · simp only [hoffset, ↓reduceDIte]

namespace Takes

variable {d : Decoder α} {count : Nat} {value : List UInt8 → α} {c c' : Cursor}

theorem eq_ok_iff (hd : Takes d count value) {result : α} :
    d c = .ok result c' ↔
      ∃ hcount : count ≤ c.remaining,
        result = value (c.unread.take count) ∧ c' = c.advance count hcount := by
  rw [hd c]
  constructor
  · intro hok
    split at hok
    case isTrue hcount =>
      cases hok
      exact ⟨hcount, rfl, rfl⟩
    case isFalse => cases hok
  · rintro ⟨hcount, rfl, rfl⟩
    exact dif_pos hcount

theorem eq_error_iff (hd : Takes d count value) {e : DecodeError} :
    d c = .error e c' ↔ c.remaining < count ∧ e = c.truncated count ∧ c' = c := by
  rw [hd c]
  constructor
  · intro herror
    split at herror
    case isTrue => cases herror
    case isFalse hcount =>
      cases herror
      exact ⟨Nat.lt_of_not_le hcount, rfl, rfl⟩
  · rintro ⟨hcount, rfl, rfl⟩
    exact dif_neg (Nat.not_le_of_lt hcount)

end Takes

end Bytestream.Decoder
