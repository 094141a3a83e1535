import Mathlib
import Bytestream.ByteString

/-!
# Well-formed text

Which bytes are a character is a matter of a few ranges.  The first byte tells how many bytes there
are, and the others are trailing bytes.  The second byte has a narrower range behind some first
bytes, and this is what keeps three kinds of bytes out: those of a number that fewer bytes would
write, those of a surrogate, and those of a number beyond the last character.  Text is a run of such
bytes, and every run of them is the encoding of characters, each of them a Unicode scalar value.
-/

namespace Bytestream.Text

/-- A byte that goes on with a character. -/
def Trailing (byte : UInt8) : Prop :=
  0x80 ≤ byte.toNat ∧ byte.toNat ≤ 0xBF

/-- The bytes of one character.  `hlong` refuses those that could be fewer, `hsurrogate` those of the
surrogates from `U+D800` to `U+DFFF`, and `hbeyond` those of the numbers above `U+10FFFF`. -/
inductive CharacterBytes : List UInt8 → Prop
  | one {b₀ : UInt8} (hlead : b₀.toNat ≤ 0x7F) : CharacterBytes [b₀]
  | two {b₀ b₁ : UInt8} (hlead : 0xC2 ≤ b₀.toNat ∧ b₀.toNat ≤ 0xDF) (h₁ : Trailing b₁) :
      CharacterBytes [b₀, b₁]
  | three {b₀ b₁ b₂ : UInt8} (hlead : 0xE0 ≤ b₀.toNat ∧ b₀.toNat ≤ 0xEF) (h₁ : Trailing b₁)
      (h₂ : Trailing b₂) (hlong : b₀.toNat = 0xE0 → 0xA0 ≤ b₁.toNat)
      (hsurrogate : b₀.toNat = 0xED → b₁.toNat ≤ 0x9F) : CharacterBytes [b₀, b₁, b₂]
  | four {b₀ b₁ b₂ b₃ : UInt8} (hlead : 0xF0 ≤ b₀.toNat ∧ b₀.toNat ≤ 0xF4) (h₁ : Trailing b₁)
      (h₂ : Trailing b₂) (h₃ : Trailing b₃) (hlong : b₀.toNat = 0xF0 → 0x90 ≤ b₁.toNat)
      (hbeyond : b₀.toNat = 0xF4 → b₁.toNat ≤ 0x8F) : CharacterBytes [b₀, b₁, b₂, b₃]

/-- Bytes that are those of characters, one behind the other. -/
inductive WellFormed : List UInt8 → Prop
  | nil : WellFormed []
  | cons {bytes rest : List UInt8} (hbytes : CharacterBytes bytes) (hrest : WellFormed rest) :
      WellFormed (bytes ++ rest)

/-! ### One character -/

theorem characterBytes_utf8EncodeChar (ch : Char) : CharacterBytes (String.utf8EncodeChar ch) := by
  have hscalar : ch.val.toNat < 0xD800 ∨ 0xDFFF < ch.val.toNat ∧ ch.val.toNat < 0x110000 := ch.valid
  -- The encoder has one branch for each number of bytes.
  simp only [String.utf8EncodeChar]
  split
  · apply CharacterBytes.one
    rw [UInt8.toNat_ofNat']
    omega
  split
  · apply CharacterBytes.two <;> simp only [Trailing, UInt8.toNat_ofNat'] <;> omega
  split
  · apply CharacterBytes.three <;> simp only [Trailing, UInt8.toNat_ofNat'] <;> omega
  · apply CharacterBytes.four <;> simp only [Trailing, UInt8.toNat_ofNat'] <;> omega

theorem exists_char_of_toNat {n : Nat} (hn : n.isValidChar) : ∃ ch : Char, ch.val.toNat = n :=
  ⟨Char.ofNatAux n hn, rfl⟩

/-- The character is the number that the bytes write with six bits in each trailing byte. -/
theorem exists_utf8EncodeChar_eq {bytes : List UInt8} (hbytes : CharacterBytes bytes) :
    ∃ ch : Char, bytes = String.utf8EncodeChar ch := by
  cases hbytes with
  | @one b₀ hlead =>
      obtain ⟨ch, hch⟩ := exists_char_of_toNat (n := b₀.toNat) (Or.inl (by omega))
      refine ⟨ch, ?_⟩
      simp only [String.utf8EncodeChar, hch]
      rw [if_pos hlead, UInt8.ofNat_toNat]
  | @two b₀ b₁ hlead h₁ =>
      simp only [Trailing] at h₁
      obtain ⟨ch, hch⟩ := exists_char_of_toNat (n := (b₀.toNat - 0xC0) * 64 + (b₁.toNat - 0x80))
        (Or.inl (by omega))
      refine ⟨ch, ?_⟩
      simp only [String.utf8EncodeChar, hch]
      rw [if_neg (by omega), if_pos (by omega)]
      simp only [List.cons.injEq, and_true, ← UInt8.toNat_inj, UInt8.toNat_ofNat']
      omega
  | @three b₀ b₁ b₂ hlead h₁ h₂ hlong hsurrogate =>
      simp only [Trailing] at h₁ h₂
      obtain ⟨ch, hch⟩ := exists_char_of_toNat
        (n := (b₀.toNat - 0xE0) * 4096 + (b₁.toNat - 0x80) * 64 + (b₂.toNat - 0x80))
        (by simp only [Nat.isValidChar]; omega)
      refine ⟨ch, ?_⟩
      simp only [String.utf8EncodeChar, hch]
      rw [if_neg (by omega), if_neg (by omega), if_pos (by omega)]
      simp only [List.cons.injEq, and_true, ← UInt8.toNat_inj, UInt8.toNat_ofNat']
      omega
  | @four b₀ b₁ b₂ b₃ hlead h₁ h₂ h₃ hlong hbeyond =>
      simp only [Trailing] at h₁ h₂ h₃
      obtain ⟨ch, hch⟩ := exists_char_of_toNat
        (n := (b₀.toNat - 0xF0) * 262144 + (b₁.toNat - 0x80) * 4096 + (b₂.toNat - 0x80) * 64 +
          (b₃.toNat - 0x80)) (by simp only [Nat.isValidChar]; omega)
      refine ⟨ch, ?_⟩
      simp only [String.utf8EncodeChar, hch]
      rw [if_neg (by omega), if_neg (by omega), if_neg (by omega)]
      simp only [List.cons.injEq, and_true, ← UInt8.toNat_inj, UInt8.toNat_ofNat']
      omega

/-! ### Texts -/

/-- Well-formed bytes are the encodings of characters and nothing else. -/
theorem wellFormed_iff_exists {bytes : List UInt8} :
    WellFormed bytes ↔ ∃ chars : List Char, bytes = chars.flatMap String.utf8EncodeChar := by
  constructor
  · intro hbytes
    induction hbytes with
    | nil => exact ⟨[], rfl⟩
    | cons hfirst _ ih =>
        obtain ⟨ch, rfl⟩ := exists_utf8EncodeChar_eq hfirst
        obtain ⟨chars, rfl⟩ := ih
        exact ⟨ch :: chars, rfl⟩
  · rintro ⟨chars, rfl⟩
    induction chars with
    | nil => exact .nil
    | cons ch chars ih => exact .cons (characterBytes_utf8EncodeChar ch) ih

theorem isValidUTF8_iff {bytes : ByteArray} :
    bytes.IsValidUTF8 ↔ WellFormed bytes.data.toList := by
  rw [wellFormed_iff_exists]
  constructor
  · rintro ⟨chars, rfl⟩
    exact ⟨chars, by simp [List.utf8Encode]⟩
  · rintro ⟨chars, hchars⟩
    refine ⟨chars, ?_⟩
    apply ByteArray.ext
    apply Array.toList_inj.mp
    simpa [List.utf8Encode] using hchars

end Bytestream.Text

namespace Bytestream.ByteString

/-- A byte string has a text exactly if its bytes are well-formed. -/
theorem isSome_text?_iff (s : ByteString) :
    s.text?.isSome ↔ Text.WellFormed s.bytes.data.toList := by
  rw [← Text.isValidUTF8_iff, text?, String.fromUTF8?]
  split
  case isTrue hvalid => simp [hvalid]
  case isFalse hvalid => simp [hvalid]

end Bytestream.ByteString
