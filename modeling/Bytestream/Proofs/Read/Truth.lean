import Mathlib
import Bytestream.Proofs.Read.Transaction
import Bytestream.Proofs.Varint.Wrapping

/-!
# What an error says of the buffer

The figures in an error are facts about the buffer in which the read failed.  A truncation counts
the bytes that are there and needs more of them.  An overflow stands in front of a varint that is
too long or writes too large a number, and a malformed text in front of a length with as many bytes
behind it as it announces.  An error that comes up from a part of a read is about a place behind the
start of the whole, in the same buffer, so that it is as true of the whole as it was of the part.
-/

namespace Bytestream

namespace Varint

/-- The varint that starts at the cursor is no number of `bits` bits: too many continuation bytes
come next, or a whole varint whose number is too large. -/
def Oversized (bits : Nat) (c : Cursor) : Prop :=
  bits ⌈/⌉ 7 + 1 ≤ continuations c ∨
    ∃ bytes, Terminated bytes ∧ bytes <+: c.unread ∧ 2 ^ bits ≤ positionalSum bytes

end Varint

/-- A length comes next and then as many bytes as it announces, and these are no text. -/
def Cursor.AtMalformedText (c : Cursor) : Prop :=
  ∃ length payload, Varint.Terminated length ∧ Varint.positionalSum length = payload.length ∧
    length ++ payload <+: c.unread ∧ ¬ payload.toByteArray.IsValidUTF8

/-- What a cause says of the buffer, if the read that failed started at `c`.  A nested error is no
cause. -/
def DecodeError.TrueAt (c : Cursor) : DecodeError → Prop
  | overflow bits place =>
      c.offset ≤ place ∧ 1 ≤ bits ∧ bits ≤ 64 ∧
        ∃ c₁ : Cursor, c₁.data = c.data ∧ c₁.offset = place ∧ Varint.Oversized bits c₁
  | truncated place needed available =>
      c.offset ≤ place ∧ place ≤ c.data.size ∧ available = c.data.size - place ∧ available < needed
  | invalidUtf8 place =>
      c.offset ≤ place ∧ ∃ c₁ : Cursor, c₁.data = c.data ∧ c₁.offset = place ∧ c₁.AtMalformedText
  | nested _ _ => False

/-- What is true behind a cursor is true of a read that starts there. -/
theorem DecodeError.TrueAt.of_later {c c₁ : Cursor} {e : DecodeError} (he : e.TrueAt c₁)
    (hdata : c₁.data = c.data) (hoffset : c.offset ≤ c₁.offset) : e.TrueAt c := by
  cases e with
  | overflow bits place =>
      obtain ⟨hplace, hpos, hbits, c₂, hdata₂, hfacts⟩ := he
      exact ⟨hoffset.trans hplace, hpos, hbits, c₂, hdata₂.trans hdata, hfacts⟩
  | truncated place needed available =>
      obtain ⟨hplace, hfacts⟩ := he
      exact ⟨hoffset.trans hplace, hdata ▸ hfacts⟩
  | invalidUtf8 place =>
      obtain ⟨hplace, c₂, hdata₂, hfacts⟩ := he
      exact ⟨hoffset.trans hplace, c₂, hdata₂.trans hdata, hfacts⟩
  | nested context e => exact he

namespace Decoder

variable {α β : Type}

/-- Every failure has a cause that is true of the buffer. -/
def Truthful (d : Decoder α) : Prop :=
  ∀ ⦃c c' : Cursor⦄ ⦃e : DecodeError⦄, d c = .error e c' → e.root.TrueAt c

theorem truthful_pure (value : α) : Truthful (pure value) := by
  intro c c' e herror
  cases herror

theorem Truthful.bind {d : Decoder α} {f : α → Decoder β} (hd : Truthful d)
    (hadvances : Advances d 0) (hf : ∀ value, Truthful (f value)) : Truthful (d >>= f) := by
  intro c c' e herror
  rcases bind_eq_error_iff.mp herror with hfirst | ⟨value, c₁, hvalue, hsecond⟩
  · exact hd hfirst
  · obtain ⟨hdata, hoffset⟩ := hadvances hvalue
    exact (hf value hsecond).of_later hdata hoffset

/-- Computing with the value of a read cannot fail. -/
theorem Truthful.map {d : Decoder α} (hd : Truthful d) (f : α → β) :
    Truthful (do return f (← d)) := by
  intro c c' e herror
  rcases bind_eq_error_iff.mp herror with hfirst | ⟨value, c₁, _, hsecond⟩
  · exact hd hfirst
  · cases hsecond

theorem Truthful.atomically {d : Decoder α} (hd : Truthful d) : Truthful (atomically d) := by
  intro c c' e herror
  obtain ⟨_, c₁, hfirst⟩ := atomically_eq_error_iff.mp herror
  exact hd hfirst

/-- A context says nothing of the buffer. -/
theorem Truthful.context {d : Decoder α} (hd : Truthful d) (message : String) :
    Truthful (d.context message) := by
  intro c c' e herror
  obtain ⟨e₀, hfirst, rfl⟩ := mapError_eq_error_iff.mp herror
  have hroot : (e₀.nest message).root = e₀.root := rfl
  rw [hroot]
  exact hd hfirst

theorem trueAt_truncated {c : Cursor} {count : Nat} (hcount : c.remaining < count) :
    (c.truncated count).TrueAt c :=
  ⟨Nat.le_refl _, c.offset_le, rfl, hcount⟩

theorem Takes.truthful {d : Decoder α} {count : Nat} {value : List UInt8 → α}
    (hd : Takes d count value) : Truthful d := by
  intro c c' e herror
  obtain ⟨hcount, rfl, _⟩ := hd.eq_error_iff.mp herror
  exact trueAt_truncated hcount

theorem truthful_peek : Truthful peek := by
  intro c c' e herror
  rw [peek_eq] at herror
  cases hread : u8 c with
  | ok byte c₁ =>
      rw [hread] at herror
      cases herror
  | error e₁ c₁ =>
      rw [hread] at herror
      cases herror
      exact takes_u8.truthful hread

end Decoder

/-! ### Varints -/

namespace Varint

open Decoder

variable {α : Type}

theorem truthful_groups {bits : Nat} (hpos : 1 ≤ bits) (hbits : bits ≤ 64) :
    Truthful (groups bits) := by
  intro c c' e herror
  have houtcome := groups_outcome bits c
  rw [herror] at houtcome
  obtain ⟨_, ⟨hrun, rfl⟩ | ⟨_, _, rfl⟩⟩ := houtcome
  · exact ⟨Nat.le_refl _, hpos, hbits, c, rfl, rfl, Or.inl hrun⟩
  · exact ⟨c.offset_le, Nat.le_refl _, (Nat.sub_self _).symm, Nat.one_pos⟩

theorem truthful_unsigned (maxBits : Nat) : Truthful (unsigned maxBits) :=
  (truthful_groups (one_le_clampWidth maxBits) (clampWidth_le maxBits)).map fun g => g.word

theorem truthful_signed (maxBits : Nat) : Truthful (signed maxBits) :=
  (truthful_groups (one_le_clampWidth maxBits) (clampWidth_le maxBits)).map
    fun g => (g.extended _).toInt64

/-- A check for numbers beyond `2 ^ bits` finds only such numbers.  The bytes write no less than the
word that is left of them. -/
theorem truthful_narrowed {bits : Nat} (hpos : 1 ≤ bits) (hbits : bits ≤ 64)
    {f : Nat → UInt64 → Decoder α}
    (hf : ∀ start value, (∃ result, f start value = pure result) ∨
      2 ^ bits ≤ value.toNat ∧ f start value = throw (.overflow bits start)) :
    Truthful (offset >>= fun start => unsigned bits >>= f start) := by
  intro c c' e herror
  rcases bind_eq_error_iff.mp herror with hoffset | ⟨start, c₀, hstart, hread⟩
  · cases hoffset
  cases hstart
  rcases bind_eq_error_iff.mp hread with hfirst | ⟨value, c₁, hvalue, hcheck⟩
  · exact truthful_unsigned bits hfirst
  rcases hf c.offset value with ⟨result, hresult⟩ | ⟨hlarge, hthrow⟩
  · rw [hresult] at hcheck
    cases hcheck
  · rw [hthrow] at hcheck
    cases hcheck
    have houtcome := unsigned_yields bits c
    rw [hvalue] at houtcome
    obtain ⟨_, _, hterminated, _, hword⟩ := houtcome
    have hsum : 2 ^ bits ≤ positionalSum (c.upTo c') :=
      (hlarge.trans_eq hword).trans (Nat.mod_le _ _)
    exact ⟨Nat.le_refl _, hpos, hbits, c, rfl, rfl,
      Or.inr ⟨c.upTo c', hterminated, List.take_prefix _ _, hsum⟩⟩

/-- A word that loses bits when it is cut down was too large. -/
theorem two_pow_le_of_setWidth_ne {value : UInt64} {bits : Nat}
    (hword : (value.toBitVec.setWidth bits).toNat ≠ value.toNat) : 2 ^ bits ≤ value.toNat :=
  Nat.le_of_not_lt fun hfits => hword ((toNat_setWidth_eq_iff value bits).mpr hfits)

theorem truthful_integer (type : IntType) : Truthful (integer type) := by
  apply Truthful.atomically
  cases htype : type.isSigned with
  | true =>
      simp only [↓reduceIte]
      exact (truthful_signed type.bits).map fun value =>
        TypedInt.mk type (value.toBitVec.setWidth type.bits)
  | false =>
      simp only [Bool.false_eq_true, ↓reduceIte]
      apply truthful_narrowed type.bits_pos type.bits_le
      intro start value
      by_cases hword : (value.toBitVec.setWidth type.bits).toNat = value.toNat
      · exact Or.inl ⟨⟨type, value.toBitVec.setWidth type.bits⟩, if_pos hword⟩
      · exact Or.inr ⟨two_pow_le_of_setWidth_ne hword, if_neg hword⟩

theorem truthful_u32 : Truthful u32 := by
  apply Truthful.atomically
  apply truthful_narrowed (by decide) (by decide)
  intro start value
  by_cases hword : value.toUInt32.toNat = value.toNat
  · exact Or.inl ⟨value.toUInt32, if_pos hword⟩
  · exact Or.inr ⟨two_pow_le_of_setWidth_ne hword, if_neg hword⟩

/-- A length is exactly what its bytes write: the check leaves none that has lost bits. -/
theorem u32_of_ok {c c₁ : Cursor} {size : UInt32} (hok : u32 c = .ok size c₁) :
    Terminated (c.upTo c₁) ∧ positionalSum (c.upTo c₁) = size.toNat := by
  obtain ⟨start, c₀, hstart, hread⟩ := bind_eq_ok_iff.mp (atomically_eq_ok_iff.mp hok)
  cases hstart
  obtain ⟨value, c₂, hvalue, hcheck⟩ := bind_eq_ok_iff.mp hread
  have hword : value.toUInt32.toNat = value.toNat ∧ value.toUInt32 = size ∧ c₂ = c₁ := by
    split at hcheck
    case isTrue hword =>
      cases hcheck
      exact ⟨hword, rfl, rfl⟩
    case isFalse => cases hcheck
  obtain ⟨hword, rfl, rfl⟩ := hword
  have houtcome := unsigned_yields 32 c
  rw [hvalue] at houtcome
  obtain ⟨_, _, hterminated, hlength, hsum⟩ := houtcome
  -- Six groups have 42 bits, so that a word holds all of them.
  have hlimit : (c.upTo c₂).length ≤ 6 := hlength
  have hpow : 128 ^ (c.upTo c₂).length ≤ 128 ^ 6 := Nat.pow_le_pow_right (by decide) hlimit
  have hlt : positionalSum (c.upTo c₂) < 2 ^ 64 :=
    (positionalSum_lt _).trans_le (hpow.trans (by decide))
  rw [hword, hsum, Nat.mod_eq_of_lt hlt]
  exact ⟨hterminated, rfl⟩

end Varint

/-! ### Reads with a length prefix -/

namespace Decoder

variable {α : Type}

theorem truthful_bytes (count : Nat) : Truthful (bytes count) :=
  (takes_bytes count).truthful

theorem truthful_word (count : Nat) : Truthful (word count) :=
  (truthful_bytes count).map fun taken => littleEndian taken.data.toList

theorem truthful_string : Truthful string := by
  apply Truthful.atomically
  apply Varint.truthful_u32.bind (Varint.advances_u32.mono (Nat.zero_le 1))
  intro size
  exact (truthful_bytes size.toNat).map fun taken => ByteString.mk taken

/-- The bytes of a string are a varint of its length and then itself. -/
theorem string_of_ok {c c₁ : Cursor} {s : ByteString} (hok : string c = .ok s c₁) :
    ∃ length, Varint.Terminated length ∧ Varint.positionalSum length = s.size ∧
      s.size < 2 ^ 32 ∧ c.upTo c₁ = length ++ s.bytes.data.toList := by
  obtain ⟨size, c₂, hsize, hread⟩ := bind_eq_ok_iff.mp (atomically_eq_ok_iff.mp hok)
  obtain ⟨taken, c₃, htaken, hpure⟩ := bind_eq_ok_iff.mp hread
  cases hpure
  obtain ⟨hcount, rfl, rfl⟩ := (takes_bytes size.toNat).eq_ok_iff.mp htaken
  obtain ⟨hterminated, hsum⟩ := Varint.u32_of_ok hsize
  obtain ⟨hdata, hoffset⟩ := Varint.advances_u32 hsize
  have hs : (ByteString.mk (c₂.unread.take size.toNat).toByteArray).size = size.toNat := by
    rw [ByteString.size]
    simpa [Cursor.length_unread] using hcount
  refine ⟨c.upTo c₂, hterminated, hsum.trans hs.symm, hs.trans_lt size.toNat_lt, ?_⟩
  rw [← Cursor.upTo_append_upTo hdata (Nat.le_of_succ_le hoffset) (Nat.le_add_right _ _)]
  simp

theorem truthful_name : Truthful name := by
  apply Truthful.atomically
  intro c c' e herror
  rcases bind_eq_error_iff.mp herror with hoffset | ⟨start, c₀, hstart, hread⟩
  · cases hoffset
  cases hstart
  rcases bind_eq_error_iff.mp hread with hfirst | ⟨s, c₁, hs, htext⟩
  · exact truthful_string hfirst
  cases hnone : s.text? with
  | some text =>
      rw [hnone] at htext
      cases htext
  | none =>
      rw [hnone] at htext
      cases htext
      obtain ⟨length, hterminated, hsum, _, hbytes⟩ := string_of_ok hs
      have hvalid : ¬ s.bytes.IsValidUTF8 := by
        intro hvalid
        simp [ByteString.text?, String.fromUTF8?, hvalid] at hnone
      refine ⟨Nat.le_refl _, c, rfl, rfl, length, s.bytes.data.toList, hterminated, ?_,
        hbytes ▸ List.take_prefix _ _, ?_⟩
      · rw [hsum]
        simp [ByteString.size]
      · have hpayload : s.bytes.data.toList.toByteArray = s.bytes := by
          apply ByteArray.ext
          apply Array.toList_inj.mp
          simp
        rwa [hpayload]

/-- The elements of a vector start one behind the other. -/
theorem truthful_elements {element : Decoder α} (helement : Truthful element)
    (hadvances : Advances element 0) (count left : Nat) (done : Array α) :
    Truthful (elements element count left done) := by
  induction left generalizing done with
  | zero => exact truthful_pure done
  | succ left ih =>
      rw [elements_succ]
      apply (helement.context _).bind (hadvances.mapError _)
      intro value
      exact ih (done.push value)

theorem truthful_vector {element : Decoder α} (helement : Truthful element)
    (hadvances : Advances element 0) : Truthful (vector element) := by
  rw [vector_eq]
  apply Truthful.atomically
  apply Varint.truthful_u32.bind (Varint.advances_u32.mono (Nat.zero_le 1))
  intro count
  exact truthful_elements helement hadvances _ _ _

end Decoder

open Decoder

theorem Item.truthful (item : Item) : Truthful item.decoder := by
  cases item with
  | u8 => exact takes_u8.truthful
  | u32LE => exact (truthful_word 4).map UInt32.ofNat
  | u64LE => exact (truthful_word 8).map UInt64.ofNat
  | bytes count => exact truthful_bytes count
  | unsigned maxBits => exact Varint.truthful_unsigned maxBits
  | signed maxBits => exact Varint.truthful_signed maxBits
  | integer type => exact Varint.truthful_integer type
  | u32 => exact Varint.truthful_u32
  | u64 => exact Varint.truthful_unsigned 64
  | i32 => exact (Varint.truthful_signed 32).map Int64.toInt32
  | i64 => exact Varint.truthful_signed 64
  | string => exact truthful_string
  | name => exact truthful_name

theorem Read.truthful (read : Read) : Truthful read.decoder := by
  induction read with
  | peek => exact truthful_peek
  | skip count => exact (truthful_bytes count).map fun _ => ()
  | item i => exact i.truthful
  | vector element ih => exact truthful_vector ih (element.advances.mono (Nat.zero_le _))
  | context read message ih => exact ih.context message

/-- Whatever a failed read says of the buffer is true.  Its cause is not nested.  A truncation is at
a place from the start of the read to the end of the buffer, counts all the bytes from there and
needs more of them.  An overflow and a malformed text are found where the cause says, at the start
of the read or behind it.  A cursor that cannot be opened is missing bytes from the end of the
buffer. -/
theorem Read.errors_are_true :
    (∀ (read : Read) (c c' : Cursor) (e : DecodeError), read.decoder c = .error e c' →
      e.root.kind ≠ .nested ∧ e.root.TrueAt c) ∧
    ∀ (data : ByteArray) (offset : Nat) (e : DecodeError), Cursor.openAt data offset = .error e ↔
      data.size < offset ∧ e = .truncated data.size (offset - data.size) 0 := by
  constructor
  · intro read c c' e herror
    exact ⟨e.kind_root_ne_nested, read.truthful herror⟩
  · intro data offset e
    exact Cursor.openAt_eq_error_iff

/-- A name in a vector whose two bytes are no text: the error is about the place of its length. -/
example : (Read.vector (.item .name)).decoder.result (.ofBytes ⟨#[0x01, 0x02, 0xC3, 0x28]⟩) =
    .error (.nested "vector element 0 of 1" (.invalidUtf8 1)) := rfl

end Bytestream
