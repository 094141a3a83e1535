import Mathlib
import Bytestream.Decoder.Basic

/-!
# Outcomes of composed decoders

A composed decoder succeeds or fails because its parts do.  The lemmas here say of each way of
composing decoders what must have happened in the parts, so that no later proof has to unfold it.
-/

namespace Bytestream

section Sequences

variable {ε σ α β : Type} {m : EStateM ε σ α} {f : α → EStateM ε σ β} {s s' : σ}

theorem bind_of_ok {value : α} (hok : m s = .ok value s') : (m >>= f) s = f value s' := by
  simp only [bind, EStateM.bind, hok]

theorem bind_of_error {e : ε} (herror : m s = .error e s') : (m >>= f) s = .error e s' := by
  simp only [bind, EStateM.bind, herror]

end Sequences

namespace Decoder

variable {α β : Type}

theorem offset_bind_apply (f : Nat → Decoder α) (c : Cursor) :
    (offset >>= f) c = f c.offset c := rfl

/-- Computing with the value of a read neither moves the cursor nor fails. -/
theorem map_apply (d : Decoder α) (f : α → β) (c : Cursor) :
    (do return f (← d) : Decoder β) c =
      match d c with
      | .ok value c' => .ok (f value) c'
      | .error e c' => .error e c' := by
  cases hread : d c with
  | ok value c' => exact bind_of_ok hread
  | error e c' => exact bind_of_error hread

theorem bind_eq_ok_iff {d : Decoder α} {f : α → Decoder β} {c c' : Cursor} {result : β} :
    (d >>= f) c = .ok result c' ↔
      ∃ value c₁, d c = .ok value c₁ ∧ f value c₁ = .ok result c' := by
  simp only [bind, EStateM.bind]
  rcases d c with ⟨value, c₁⟩ | ⟨e, c₁⟩
  · simp
  · simp

theorem bind_eq_error_iff {d : Decoder α} {f : α → Decoder β} {c c' : Cursor} {e : DecodeError} :
    (d >>= f) c = .error e c' ↔
      d c = .error e c' ∨ ∃ value c₁, d c = .ok value c₁ ∧ f value c₁ = .error e c' := by
  simp only [bind, EStateM.bind]
  rcases d c with ⟨value, c₁⟩ | ⟨e, c₁⟩
  · simp
  · simp

theorem atomically_eq_ok_iff {d : Decoder α} {c c' : Cursor} {value : α} :
    atomically d c = .ok value c' ↔ d c = .ok value c' := by
  simp only [atomically]
  rcases d c with ⟨value, c₁⟩ | ⟨e, c₁⟩
  · simp
  · simp

/-- What fails as a whole has failed somewhere, and the cursor is back at the start. -/
theorem atomically_eq_error_iff {d : Decoder α} {c c' : Cursor} {e : DecodeError} :
    atomically d c = .error e c' ↔ c' = c ∧ ∃ c₁, d c = .error e c₁ := by
  simp only [atomically]
  rcases d c with ⟨value, c₁⟩ | ⟨e', c₁⟩
  · simp
  · constructor
    · intro herror
      cases herror
      exact ⟨rfl, c₁, rfl⟩
    · rintro ⟨rfl, c₂, herror⟩
      cases herror
      rfl

theorem mapError_eq_ok_iff {change : DecodeError → DecodeError} {d : Decoder α} {c c' : Cursor}
    {value : α} : mapError change d c = .ok value c' ↔ d c = .ok value c' := by
  simp only [mapError]
  rcases d c with ⟨value, c₁⟩ | ⟨e, c₁⟩
  · simp
  · simp

theorem mapError_eq_error_iff {change : DecodeError → DecodeError} {d : Decoder α} {c c' : Cursor}
    {e : DecodeError} :
    mapError change d c = .error e c' ↔ ∃ e₀, d c = .error e₀ c' ∧ e = change e₀ := by
  simp only [mapError]
  rcases d c with ⟨value, c₁⟩ | ⟨e₀, c₁⟩
  · simp
  · constructor
    · intro herror
      cases herror
      exact ⟨e₀, rfl, rfl⟩
    · rintro ⟨e₁, herror, rfl⟩
      cases herror
      rfl

end Decoder

end Bytestream
