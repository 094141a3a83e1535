import Mathlib
import Bytestream.Proofs.Decoder.Fixed
import Bytestream.Proofs.Read.Inheritance
import Bytestream.Proofs.Read.Transaction

/-!
# More bytes and fewer bytes

What a read has found does not depend on bytes that it has not looked at.  If it has failed for the
lack of bytes, more of them may change this; any other outcome, a success as well as a failure, is
the same in every longer buffer.  So a success must fail for the lack of bytes in every buffer that
ends before the read does: with any other outcome it would have had this outcome in the longer buffer
too.
-/

namespace Bytestream

namespace Decoder

variable {α β : Type}

/-- Nothing but a truncation is changed by more bytes behind the buffer. -/
structure Stable (d : Decoder α) : Prop where
  ok : ∀ {c c' : Cursor} {value : α}, d c = .ok value c' →
    ∀ suffix, d (c.extend suffix) = .ok value (c'.extend suffix)
  error : ∀ {c c' : Cursor} {e : DecodeError}, d c = .error e c' → e.root.kind ≠ .truncated →
    ∀ suffix, d (c.extend suffix) = .error e (c'.extend suffix)

theorem stable_pure (value : α) : Stable (pure value) where
  ok := by
    intro c c' value' hok suffix
    cases hok
    rfl
  error := by
    intro c c' e herror
    cases herror

theorem stable_throw (e : DecodeError) : Stable (throw e : Decoder α) where
  ok := by
    intro c c' value hok
    cases hok
  error := by
    intro c c' e' herror _ suffix
    cases herror
    rfl

theorem Stable.bind {d : Decoder α} {f : α → Decoder β} (hd : Stable d)
    (hf : ∀ value, Stable (f value)) : Stable (d >>= f) where
  ok := by
    intro c c' result hok suffix
    obtain ⟨value, c₁, hvalue, hresult⟩ := bind_eq_ok_iff.mp hok
    exact bind_eq_ok_iff.mpr
      ⟨value, c₁.extend suffix, hd.ok hvalue suffix, (hf value).ok hresult suffix⟩
  error := by
    intro c c' e herror hroot suffix
    rcases bind_eq_error_iff.mp herror with hfirst | ⟨value, c₁, hvalue, hsecond⟩
    · exact bind_eq_error_iff.mpr (Or.inl (hd.error hfirst hroot suffix))
    · exact bind_eq_error_iff.mpr (Or.inr
        ⟨value, c₁.extend suffix, hd.ok hvalue suffix, (hf value).error hsecond hroot suffix⟩)

/-- More bytes behind a cursor do not change where it is. -/
theorem Stable.offset {f : Nat → Decoder α} (hf : ∀ start, Stable (f start)) :
    Stable (offset >>= f) where
  ok := fun {c _ _} hok suffix => (hf c.offset).ok hok suffix
  error := fun {c _ _} herror hroot suffix => (hf c.offset).error herror hroot suffix

theorem Stable.atomically {d : Decoder α} (hd : Stable d) : Stable (atomically d) where
  ok := by
    intro c c' value hok suffix
    exact atomically_eq_ok_iff.mpr (hd.ok (atomically_eq_ok_iff.mp hok) suffix)
  error := by
    intro c c' e herror hroot suffix
    obtain ⟨rfl, c₁, hfirst⟩ := atomically_eq_error_iff.mp herror
    exact atomically_eq_error_iff.mpr ⟨rfl, c₁.extend suffix, hd.error hfirst hroot suffix⟩

/-- A context leaves the cause of a failure as it is. -/
theorem Stable.context {d : Decoder α} (hd : Stable d) (message : String) :
    Stable (d.context message) where
  ok := by
    intro c c' value hok suffix
    exact mapError_eq_ok_iff.mpr (hd.ok (mapError_eq_ok_iff.mp hok) suffix)
  error := by
    intro c c' e herror hroot suffix
    obtain ⟨e₀, hfirst, rfl⟩ := mapError_eq_error_iff.mp herror
    exact mapError_eq_error_iff.mpr ⟨e₀, hd.error hfirst hroot suffix, rfl⟩

/-- Bytes that were there are taken again, and their lack is a truncation. -/
theorem Takes.stable {d : Decoder α} {count : Nat} {value : List UInt8 → α}
    (hd : Takes d count value) : Stable d where
  ok := by
    intro c c' result hok suffix
    obtain ⟨hcount, rfl, rfl⟩ := hd.eq_ok_iff.mp hok
    have hcount' : count ≤ (c.extend suffix).remaining := by
      rw [Cursor.remaining_extend]
      omega
    exact hd.eq_ok_iff.mpr ⟨hcount', by rw [Cursor.take_unread_extend hcount], rfl⟩
  error := by
    intro c c' e herror hroot
    obtain ⟨_, rfl, _⟩ := hd.eq_error_iff.mp herror
    exact absurd rfl hroot

theorem stable_peek : Stable peek where
  ok := by
    intro c c' byte hok suffix
    rw [peek_eq] at hok ⊢
    cases hread : u8 c with
    | ok byte' c₁ =>
        rw [hread] at hok
        cases hok
        rw [takes_u8.stable.ok hread suffix]
    | error e c₁ =>
        rw [hread] at hok
        cases hok
  error := by
    intro c c' e herror hroot suffix
    rw [peek_eq] at herror ⊢
    cases hread : u8 c with
    | ok byte c₁ =>
        rw [hread] at herror
        cases herror
    | error e' c₁ =>
        rw [hread] at herror
        cases herror
        rw [takes_u8.stable.error hread hroot suffix]

theorem stable_inherited : Inherited @Stable where
  pure := stable_pure
  throw := fun {_ e} _ => stable_throw e
  bind := Stable.bind
  offset := Stable.offset
  atomically := Stable.atomically
  context := Stable.context
  u8 := takes_u8.stable
  bytes := fun count => (takes_bytes count).stable

/-- A success in a longer buffer is a truncation in a buffer that ends before the read does. -/
theorem Stable.cut {d : Decoder α} (hd : Stable d) (hadvances : Advances d 0) (hreverts : Reverts d)
    {c c' : Cursor} {value : α} (hok : d c = .ok value c') {size : Nat} (hsize : c.offset ≤ size)
    (hlt : size < c'.offset) :
    ∃ e, e.root.kind = .truncated ∧ d (c.cut size hsize) = .error e (c.cut size hsize) := by
  have hinside : size ≤ c.data.size := by
    have hle := c'.offset_le
    rw [(hadvances hok).1] at hle
    omega
  -- Any other outcome is also the outcome in the whole buffer, which is a success beyond the cut.
  have hwhole := Cursor.extend_cut c hsize hinside
  cases hcut : d (c.cut size hsize) with
  | ok value' c₁ =>
      have hextended := hd.ok hcut (c.data.extract size c.data.size)
      rw [hwhole, hok] at hextended
      cases hextended
      have hle := c₁.offset_le
      rw [(hadvances hcut).1] at hle
      have hshort := c.size_data_cut_le size hsize
      rw [Cursor.offset_extend] at hlt
      omega
  | error e c₁ =>
      obtain rfl := hreverts hcut
      refine ⟨e, ?_, rfl⟩
      by_contra hroot
      have hextended := hd.error hcut hroot (c.data.extract size c.data.size)
      rw [hwhole, hok] at hextended
      cases hextended

end Decoder

open Decoder

theorem Read.stable (read : Read) : Stable read.decoder :=
  stable_inherited.read read (Or.inr stable_peek)

/-- An outcome other than a truncation is the same in every longer buffer: the same value or the same
error, at the same offset.  A success is a truncation in every buffer that ends before it, and the
cursor stays where it was. -/
theorem Read.extend_and_cut (read : Read) (c : Cursor) :
    (∀ suffix,
      match read.decoder c with
      | .ok value c' => read.decoder (c.extend suffix) = .ok value (c'.extend suffix)
      | .error e c' =>
          e.root.kind ≠ .truncated →
            read.decoder (c.extend suffix) = .error e (c'.extend suffix)) ∧
    ∀ value c', read.decoder c = .ok value c' →
      ∀ size (hsize : c.offset ≤ size), size < c'.offset →
        ∃ e, e.root.kind = .truncated ∧
          read.decoder (c.cut size hsize) = .error e (c.cut size hsize) := by
  constructor
  · intro suffix
    cases hread : read.decoder c with
    | ok value c' => exact read.stable.ok hread suffix
    | error e c' =>
        intro hroot
        exact read.stable.error hread hroot suffix
  · intro value c' hok size hsize hlt
    exact read.stable.cut (read.advances.mono (Nat.zero_le _)) read.reverts hok hsize hlt

/-- A buffer that ends inside a character lacks bytes, and does not hold bytes that are no text. -/
example : (Read.item .name).decoder.result (.ofBytes ⟨#[0x02, 0xC3]⟩) =
    .error (.truncated 1 2 1) := rfl

end Bytestream
