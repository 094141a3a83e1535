import Mathlib
import Bytestream.Proofs.Decoder.Fixed
import Bytestream.Proofs.Decoder.Outcome
import Bytestream.Decoder.Prefixed

/-!
# Reads as transactions

A read that succeeds stays in its buffer and moves on by some bytes at least; a read that fails
leaves the cursor where it was.  The first property holds of every part of a decoder and adds up
along a sequence.  The second one is lost in a sequence, because the first part may have moved when
the second one fails, and is won back by going back to the start of the whole.
-/

namespace Bytestream.Decoder

variable {α β : Type}

/-- A success leaves a cursor in the same buffer, at least `least` bytes further on. -/
def Advances (d : Decoder α) (least : Nat) : Prop :=
  ∀ ⦃c c' : Cursor⦄ ⦃value : α⦄, d c = .ok value c' →
    c'.data = c.data ∧ c.offset + least ≤ c'.offset

/-- A failure leaves the cursor where it was. -/
def Reverts (d : Decoder α) : Prop :=
  ∀ ⦃c c' : Cursor⦄ ⦃e : DecodeError⦄, d c = .error e c' → c' = c

theorem Advances.mono {d : Decoder α} {least fewer : Nat} (hd : Advances d least)
    (hle : fewer ≤ least) : Advances d fewer := by
  intro c c' value hok
  obtain ⟨hdata, hoffset⟩ := hd hok
  exact ⟨hdata, by omega⟩

theorem advances_pure (value : α) : Advances (pure value) 0 := by
  intro c c' value' hok
  cases hok
  exact ⟨rfl, Nat.le_refl _⟩

/-- A decoder that always fails moves as far as anyone asks. -/
theorem advances_throw (e : DecodeError) (least : Nat) :
    Advances (throw e : Decoder α) least := by
  intro c c' value hok
  cases hok

/-- What the first part of a sequence takes, the whole takes. -/
theorem Advances.bind {d : Decoder α} {f : α → Decoder β} {least : Nat} (hd : Advances d least)
    (hf : ∀ value, Advances (f value) 0) : Advances (d >>= f) least := by
  intro c c' result hok
  obtain ⟨value, c₁, hvalue, hresult⟩ := bind_eq_ok_iff.mp hok
  obtain ⟨hdata₁, hoffset₁⟩ := hd hvalue
  obtain ⟨hdata₂, hoffset₂⟩ := hf value hresult
  exact ⟨hdata₂.trans hdata₁, by omega⟩

theorem Advances.map {d : Decoder α} {least : Nat} (hd : Advances d least) (f : α → β) :
    Advances (do return f (← d)) least :=
  hd.bind fun value => advances_pure (f value)

/-- Looking where the cursor is takes nothing. -/
theorem Advances.offset {f : Nat → Decoder α} {least : Nat}
    (hf : ∀ start, Advances (f start) least) : Advances (offset >>= f) least :=
  fun c _ _ hok => hf c.offset hok

theorem Advances.atomically {d : Decoder α} {least : Nat} (hd : Advances d least) :
    Advances (atomically d) least :=
  fun _ _ _ hok => hd (atomically_eq_ok_iff.mp hok)

theorem Advances.mapError {d : Decoder α} {least : Nat} (hd : Advances d least)
    (change : DecodeError → DecodeError) : Advances (mapError change d) least :=
  fun _ _ _ hok => hd (mapError_eq_ok_iff.mp hok)

theorem reverts_atomically (d : Decoder α) : Reverts (atomically d) :=
  fun _ _ _ herror => (atomically_eq_error_iff.mp herror).1

/-- Computing with the value of a read cannot fail, so that the cursor goes back as before. -/
theorem Reverts.map {d : Decoder α} (hd : Reverts d) (f : α → β) :
    Reverts (do return f (← d)) := by
  intro c c' e herror
  rcases bind_eq_error_iff.mp herror with hfirst | ⟨value, c₁, _, hsecond⟩
  · exact hd hfirst
  · cases hsecond

theorem Reverts.mapError {d : Decoder α} (hd : Reverts d)
    (change : DecodeError → DecodeError) : Reverts (mapError change d) := by
  intro c c' e herror
  obtain ⟨e₀, hfirst, _⟩ := mapError_eq_error_iff.mp herror
  exact hd hfirst

/-! ### Reads of a fixed number of bytes -/

theorem Takes.advances {d : Decoder α} {count : Nat} {value : List UInt8 → α}
    (hd : Takes d count value) : Advances d count := by
  intro c c' result hok
  obtain ⟨hcount, rfl, rfl⟩ := hd.eq_ok_iff.mp hok
  exact ⟨rfl, Nat.le_refl _⟩

theorem Takes.reverts {d : Decoder α} {count : Nat} {value : List UInt8 → α}
    (hd : Takes d count value) : Reverts d := by
  intro c c' e herror
  exact (hd.eq_error_iff.mp herror).2.2

theorem advances_peek : Advances peek 0 := by
  intro c c' value hok
  simp only [peek] at hok
  split at hok
  · cases hok
    exact ⟨rfl, Nat.le_refl _⟩
  · cases hok

theorem reverts_peek : Reverts peek := by
  intro c c' e herror
  simp only [peek] at herror
  split at herror
  · cases herror
  · cases herror
    rfl

theorem advances_u8 : Advances u8 1 :=
  takes_u8.advances

theorem reverts_u8 : Reverts u8 :=
  takes_u8.reverts

theorem advances_bytes (count : Nat) : Advances (bytes count) count :=
  (takes_bytes count).advances

theorem reverts_bytes (count : Nat) : Reverts (bytes count) :=
  (takes_bytes count).reverts

theorem advances_skip (count : Nat) : Advances (skip count) count :=
  (advances_bytes count).map fun _ => ()

theorem reverts_skip (count : Nat) : Reverts (skip count) :=
  (reverts_bytes count).map fun _ => ()

theorem advances_word (count : Nat) : Advances (word count) count :=
  (advances_bytes count).map fun taken => littleEndian taken.data.toList

theorem reverts_word (count : Nat) : Reverts (word count) :=
  (reverts_bytes count).map fun taken => littleEndian taken.data.toList

end Bytestream.Decoder
