import Mathlib
import Bytestream.Proofs.Read.Extension

/-!
# Refilling a buffer

A truncation tells how many bytes are missing, and at which place.  Whoever gets them and reads again
makes progress.  With fewer bytes the read fails in the same way and reports the ones that are there
now; with all of them it gets past the place, whatever comes of it there.  The failing part of a read
is followed through the whole: the parts before it succeed as they did, and the parts behind it start
beyond the place.
-/

namespace Bytestream

namespace Decoder

variable {α β : Type}

/-- A read gets past a place if it ends behind it, or fails for another reason than a lack of bytes
there or before. -/
def Passes (place : Nat) : EStateM.Result DecodeError Cursor α → Prop
  | .ok _ c => place < c.offset
  | .error e _ =>
      ∀ place' needed available, e.root = .truncated place' needed available → place < place'

theorem Passes.atomically {d : Decoder α} {c : Cursor} {place : Nat} (hd : Passes place (d c)) :
    Passes place (atomically d c) := by
  revert hd
  simp only [Decoder.atomically]
  cases d c with
  | ok value c' => exact id
  | error e c' => exact id

theorem Passes.context {d : Decoder α} {c : Cursor} {place : Nat} (hd : Passes place (d c))
    (message : String) : Passes place (d.context message c) := by
  revert hd
  simp only [Decoder.context, Decoder.mapError]
  cases d c with
  | ok value c' => exact id
  | error e c' => exact id

/-- What the failure `e` of a read at `c` promises to whoever has more bytes, if its cause is a
truncation at `place`. -/
structure Refillable (d : Decoder α) (c : Cursor) (e : DecodeError)
    (place needed available : Nat) : Prop where
  start_le : c.offset ≤ place
  short : available < needed
  /-- With fewer bytes than are missing, only the number of available ones changes. -/
  waits : ∀ suffix : ByteArray, suffix.size < needed - available →
    ∃ e' c', d (c.extend suffix) = .error e' c' ∧ e'.contexts = e.contexts ∧
      e'.root = .truncated place needed (available + suffix.size)
  /-- With the bytes that are missing, the read gets past the place. -/
  passes : ∀ suffix : ByteArray, suffix.size = needed - available →
    Passes place (d (c.extend suffix))

/-- A read that can be tried again whenever it lacks bytes. -/
structure Resumable (d : Decoder α) : Prop where
  stable : Stable d
  advances : Advances d 0
  refillable : ∀ {c c' : Cursor} {e : DecodeError} {place needed available : Nat},
    d c = .error e c' → e.root = .truncated place needed available →
      Refillable d c e place needed available

/-- A read that starts beyond a place gets past it. -/
theorem Resumable.passes {d : Decoder α} (hd : Resumable d) {c : Cursor} {place : Nat}
    (hplace : place < c.offset) : Passes place (d c) := by
  cases hread : d c with
  | ok value c' =>
      have hoffset := (hd.advances hread).2
      exact Nat.lt_of_lt_of_le hplace hoffset
  | error e c' =>
      intro place' needed available hroot
      have hstart := (hd.refillable hread hroot).start_le
      exact Nat.lt_of_lt_of_le hplace hstart

theorem resumable_pure (value : α) : Resumable (pure value) where
  stable := stable_pure value
  advances := advances_pure value
  refillable := by
    intro c c' e place needed available herror
    cases herror

theorem resumable_throw {e : DecodeError} (hroot : e.root.kind ≠ .truncated) :
    Resumable (throw e : Decoder α) where
  stable := stable_throw e
  advances := advances_throw e 0
  refillable := by
    intro c c' e' place needed available herror htruncated
    cases herror
    rw [htruncated] at hroot
    exact absurd rfl hroot

theorem Resumable.bind {d : Decoder α} {f : α → Decoder β} (hd : Resumable d)
    (hf : ∀ value, Resumable (f value)) : Resumable (d >>= f) where
  stable := hd.stable.bind fun value => (hf value).stable
  advances := hd.advances.bind fun value => (hf value).advances
  refillable := by
    intro c c' e place needed available herror hroot
    rcases bind_eq_error_iff.mp herror with hfirst | ⟨value, c₁, hvalue, hsecond⟩
    · obtain ⟨hstart, hshort, hwaits, hpasses⟩ := hd.refillable hfirst hroot
      refine ⟨hstart, hshort, ?_, ?_⟩
      · intro suffix hsuffix
        obtain ⟨e', c₂, hagain, hsame⟩ := hwaits suffix hsuffix
        exact ⟨e', c₂, bind_of_error hagain, hsame⟩
      · intro suffix hsuffix
        have hbeyond := hpasses suffix hsuffix
        cases hagain : d (c.extend suffix) with
        | ok value c₂ =>
            rw [hagain] at hbeyond
            rw [bind_of_ok hagain]
            exact (hf value).passes hbeyond
        | error e' c₂ =>
            rw [hagain] at hbeyond
            rw [bind_of_error hagain]
            exact hbeyond
    · obtain ⟨hstart, hshort, hwaits, hpasses⟩ := (hf value).refillable hsecond hroot
      have hoffset := (hd.advances hvalue).2
      -- The first part succeeds with more bytes as it did without them.
      have hagain := fun suffix => bind_of_ok (f := f) (hd.stable.ok hvalue suffix)
      refine ⟨Nat.le_trans hoffset hstart, hshort, ?_, ?_⟩
      · intro suffix hsuffix
        rw [hagain suffix]
        exact hwaits suffix hsuffix
      · intro suffix hsuffix
        rw [hagain suffix]
        exact hpasses suffix hsuffix

theorem Resumable.offset {f : Nat → Decoder α} (hf : ∀ start, Resumable (f start)) :
    Resumable (offset >>= f) where
  stable := Stable.offset fun start => (hf start).stable
  advances := Advances.offset fun start => (hf start).advances
  refillable := by
    intro c c' e place needed available herror hroot
    -- More bytes behind the cursor do not change its offset, so that the same read is tried again.
    obtain ⟨hstart, hshort, hwaits, hpasses⟩ := (hf c.offset).refillable herror hroot
    exact ⟨hstart, hshort, hwaits, hpasses⟩

theorem Resumable.atomically {d : Decoder α} (hd : Resumable d) : Resumable (atomically d) where
  stable := hd.stable.atomically
  advances := hd.advances.atomically
  refillable := by
    intro c c' e place needed available herror hroot
    obtain ⟨rfl, c₁, hfirst⟩ := atomically_eq_error_iff.mp herror
    obtain ⟨hstart, hshort, hwaits, hpasses⟩ := hd.refillable hfirst hroot
    refine ⟨hstart, hshort, ?_, ?_⟩
    · intro suffix hsuffix
      obtain ⟨e', c₂, hagain, hsame⟩ := hwaits suffix hsuffix
      exact ⟨e', _, atomically_eq_error_iff.mpr ⟨rfl, c₂, hagain⟩, hsame⟩
    · intro suffix hsuffix
      exact (hpasses suffix hsuffix).atomically

theorem Resumable.context {d : Decoder α} (hd : Resumable d) (message : String) :
    Resumable (d.context message) where
  stable := hd.stable.context message
  advances := hd.advances.mapError _
  refillable := by
    intro c c' e place needed available herror hroot
    obtain ⟨e₀, hfirst, rfl⟩ := mapError_eq_error_iff.mp herror
    obtain ⟨hstart, hshort, hwaits, hpasses⟩ := hd.refillable hfirst hroot
    refine ⟨hstart, hshort, ?_, ?_⟩
    · intro suffix hsuffix
      obtain ⟨e', c₂, hagain, hcontexts, hroot'⟩ := hwaits suffix hsuffix
      refine ⟨e'.nest message, c₂, mapError_eq_error_iff.mpr ⟨e', hagain, rfl⟩, ?_, hroot'⟩
      rw [DecodeError.nest, DecodeError.nest, DecodeError.contexts_nested,
        DecodeError.contexts_nested, hcontexts]
    · intro suffix hsuffix
      exact (hpasses suffix hsuffix).context message

/-- Bytes that are missing at the cursor, and that are there now, are taken. -/
theorem Takes.resumable {d : Decoder α} {count : Nat} {value : List UInt8 → α}
    (hd : Takes d count value) : Resumable d where
  stable := hd.stable
  advances := hd.advances.mono (Nat.zero_le _)
  refillable := by
    intro c c' e place needed available herror hroot
    obtain ⟨hcount, rfl, rfl⟩ := hd.eq_error_iff.mp herror
    cases hroot
    refine ⟨Nat.le_refl _, hcount, ?_, ?_⟩
    · intro suffix hsuffix
      have hcount' : (c'.extend suffix).remaining < count := by
        rw [Cursor.remaining_extend]
        omega
      exact ⟨_, _, hd.eq_error_iff.mpr ⟨hcount', rfl, rfl⟩, rfl,
        Cursor.truncated_extend c' suffix count⟩
    · intro suffix hsuffix
      have hcount' : count ≤ (c'.extend suffix).remaining := by
        rw [Cursor.remaining_extend]
        omega
      rw [hd.eq_ok_iff.mpr ⟨hcount', rfl, rfl⟩]
      simp only [Passes, Cursor.offset_advance, Cursor.offset_extend]
      omega

theorem resumable_inherited : Inherited @Resumable where
  pure := resumable_pure
  throw := resumable_throw
  bind := Resumable.bind
  offset := Resumable.offset
  atomically := Resumable.atomically
  context := Resumable.context
  u8 := takes_u8.resumable
  bytes := fun count => (takes_bytes count).resumable

end Decoder

open Decoder

theorem Read.resumable {read : Read} (hread : read.PeekFree) : Resumable read.decoder :=
  resumable_inherited.read read (Or.inl hread)

/-- A truncation lacks `needed - available` bytes.  With fewer of them the read fails at the same
place, with the same contexts, and counts those that are there now.  With all of them it does not
fail for a lack of bytes any more, or does so further on. -/
theorem Read.refill {read : Read} (hread : read.PeekFree) {c c' : Cursor} {e : DecodeError}
    {place needed available : Nat} (herror : read.decoder c = .error e c')
    (hroot : e.root = .truncated place needed available) (suffix : ByteArray) :
    available < needed ∧
    (suffix.size < needed - available →
      ∃ e', read.decoder (c.extend suffix) = .error e' (c.extend suffix) ∧
        e'.contexts = e.contexts ∧
        e'.root = .truncated place needed (available + suffix.size)) ∧
    (suffix.size = needed - available →
      ∀ e' c₁, read.decoder (c.extend suffix) = .error e' c₁ →
        ∀ place' needed' available', e'.root = .truncated place' needed' available' →
          place < place') := by
  obtain ⟨_, hshort, hwaits, hpasses⟩ := (Read.resumable hread).refillable herror hroot
  refine ⟨hshort, ?_, ?_⟩
  · intro hsuffix
    obtain ⟨e', c₁, hagain, hsame⟩ := hwaits suffix hsuffix
    obtain rfl := read.reverts hagain
    exact ⟨e', hagain, hsame⟩
  · intro hsuffix e' c₁ hagain
    have hbeyond := hpasses suffix hsuffix
    rw [hagain] at hbeyond
    exact hbeyond

/-- Three strings, of which the second breaks off behind the first of its three bytes. -/
def cutStrings : ByteArray :=
  ⟨#[0x03, 0x01, 0x61, 0x03, 0x62]⟩

/-- With one more byte one is still missing, and with two more it is the third string that fails. -/
theorem Read.refill_cutStrings :
    (vector (item .string)).PeekFree ∧
    (vector (item .string)).decoder (.ofBytes cutStrings) =
      .error (.nested "vector element 1 of 3" (.truncated 4 3 1)) (.ofBytes cutStrings) ∧
    (∃ e', (vector (item .string)).decoder ((Cursor.ofBytes cutStrings).extend ⟨#[0x63]⟩) =
        .error e' ((Cursor.ofBytes cutStrings).extend ⟨#[0x63]⟩) ∧
      e'.contexts = ["vector element 1 of 3"] ∧ e'.root = .truncated 4 3 2) ∧
    ∀ e' c₁,
      (vector (item .string)).decoder ((Cursor.ofBytes cutStrings).extend ⟨#[0x63, 0x64]⟩) =
          .error e' c₁ →
        ∀ place' needed' available', e'.root = .truncated place' needed' available' →
          4 < place' := by
  have hpeek : (vector (item .string)).PeekFree := trivial
  have herror : (vector (item .string)).decoder (.ofBytes cutStrings) =
      .error (.nested "vector element 1 of 3" (.truncated 4 3 1)) (.ofBytes cutStrings) := rfl
  have hone := Read.refill hpeek herror rfl ⟨#[0x63]⟩
  have htwo := Read.refill hpeek herror rfl ⟨#[0x63, 0x64]⟩
  exact ⟨hpeek, herror, hone.2.1 (by decide), htwo.2.2 (by decide)⟩

end Bytestream
