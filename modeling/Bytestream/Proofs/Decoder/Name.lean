import Mathlib
import Bytestream.Proofs.Decoder.Prefixed
import Bytestream.Proofs.Read.Truth
import Bytestream.Proofs.Text.WellFormed
import Bytestream.Proofs.Varint.Padding

/-!
# What is a string and what is a name

A string is a length and as many bytes as it says, whatever they are.  A name is a string whose bytes
are well-formed text.  Nothing else is read as one, and each way to miss the format has an error of
its own: the length fails, the bytes are too few, or they are no text.

A name can be written again.  The bytes of its text are those that were read, and so is its length,
except that a length may have been padded with groups of zeros.
-/

namespace Bytestream.Decoder

variable {c c' : Cursor}

/-- The length settles how many bytes there have to be, and these bytes are the string. -/
theorem string_apply (c : Cursor) :
    string c =
      match Varint.u32 c with
      | .error e _ => .error e c
      | .ok size c₁ =>
          if hsize : c₁.offset + size.toNat ≤ c.data.size then
            .ok ⟨c.data.extract c₁.offset (c₁.offset + size.toNat)⟩
              ⟨c.data, c₁.offset + size.toNat, hsize⟩
          else .error (.truncated c₁.offset size.toNat (c.data.size - c₁.offset)) c := by
  simp only [string, atomically]
  cases hread : Varint.u32 c with
  | error e c₁ => rw [bind_of_error hread]
  | ok size c₁ =>
      obtain ⟨data, offset, hoffset⟩ := c₁
      obtain ⟨rfl, _⟩ := Varint.advances_u32 hread
      rw [bind_of_ok hread, map_apply]
      by_cases hsize : offset + size.toNat ≤ c.data.size
      · have hcount : size.toNat ≤ c.data.size - offset := Nat.le_sub_of_add_le' hsize
        simp only [bytes, Cursor.remaining, hcount, hsize, ↓reduceDIte]
        rfl
      · have hcount : ¬ size.toNat ≤ c.data.size - offset := by omega
        simp only [bytes, Cursor.remaining, hcount, hsize, ↓reduceDIte]
        rfl

/-- A name is a string that has a text. -/
theorem name_apply (c : Cursor) :
    name c =
      match string c with
      | .error e _ => .error e c
      | .ok s c' =>
          match s.text? with
          | some text => .ok text c'
          | none => .error (.invalidUtf8 c.offset) c := by
  simp only [name, atomically, offset_bind_apply]
  cases hread : string c with
  | error e c' => rw [bind_of_error hread]
  | ok s c' =>
      rw [bind_of_ok hread]
      cases htext : s.text? with
      | some text =>
          simp only [htext]
          rfl
      | none =>
          simp only [htext]
          rfl

theorem string_of_name_eq_ok {text : String} (hread : name c = .ok text c') :
    string c = .ok ⟨text.toUTF8⟩ c' := by
  rw [name_apply] at hread
  split at hread
  case h_1 => cases hread
  case h_2 s c₁ hs =>
    split at hread
    case h_1 text' htext =>
      cases hread
      rw [hs, ByteString.text?_eq_some_iff.mp htext]
    case h_2 => cases hread

/-- The bytes of a name are its length, written with or without zeros, and the encoding of its
text. -/
theorem upTo_of_name_eq_ok {text : String} (hread : name c = .ok text c') :
    text.utf8ByteSize < 2 ^ 32 ∧
      ∃ length, c.upTo c' = length ++ text.toUTF8.data.toList ∧
        (length = Varint.encodeUnsigned text.utf8ByteSize ∨
          ∃ zeros, length =
            Varint.withZeros (Varint.encodeUnsigned text.utf8ByteSize) zeros) := by
  obtain ⟨length, hterminated, hsum, hsize, hbytes⟩ := string_of_ok (string_of_name_eq_ok hread)
  have hlength := hterminated.eq_encodeUnsigned
  rw [hsum] at hlength
  exact ⟨hsize, length, hbytes, hlength⟩

/-- Strings and names are read exactly in their format.  A length that fails is the error.  Otherwise
the string is the bytes behind the length, if there are enough of them, and a truncation behind the
length if not.  A name fails as its string does.  Otherwise it is read exactly if the bytes of the
string are well-formed, that is, if they encode characters; its text is the one that they encode, and
it ends where the string ends.  If they are no text, the error is about the start of the length.

Every text with a length of 32 bits is read back from its encoding.  Conversely, the encoding of a
name is the bytes that were read, but for groups of zeros in the length. -/
theorem string_and_name_accept (c : Cursor) :
    (string c =
      match Varint.u32 c with
      | .error e _ => .error e c
      | .ok size c₁ =>
          if hsize : c₁.offset + size.toNat ≤ c.data.size then
            .ok ⟨c.data.extract c₁.offset (c₁.offset + size.toNat)⟩
              ⟨c.data, c₁.offset + size.toNat, hsize⟩
          else .error (.truncated c₁.offset size.toNat (c.data.size - c₁.offset)) c) ∧
      (name c =
        match string c with
        | .error e _ => .error e c
        | .ok s c' =>
            match s.text? with
            | some text => .ok text c'
            | none => .error (.invalidUtf8 c.offset) c) ∧
      (∀ s : ByteString,
        (s.text?.isSome ↔ Text.WellFormed s.bytes.data.toList) ∧
          (s.text?.isSome ↔
            ∃ chars : List Char, s.bytes.data.toList = chars.flatMap String.utf8EncodeChar) ∧
          ∀ text, s.text? = some text ↔ text.toUTF8 = s.bytes) ∧
      (∀ text : String, text.utf8ByteSize < 2 ^ 32 →
        ReadsBetween name
          (Varint.encodeUnsigned text.utf8ByteSize ++ text.toUTF8.data.toList) text) ∧
      ∀ text c', name c = .ok text c' →
        text.utf8ByteSize < 2 ^ 32 ∧
          ∃ length, c.upTo c' = length ++ text.toUTF8.data.toList ∧
            (length = Varint.encodeUnsigned text.utf8ByteSize ∨
              ∃ zeros, length =
                Varint.withZeros (Varint.encodeUnsigned text.utf8ByteSize) zeros) := by
  refine ⟨string_apply c, name_apply c, ?_, ?_, ?_⟩
  · intro s
    have hwellFormed := s.isSome_text?_iff
    exact ⟨hwellFormed, hwellFormed.trans Text.wellFormed_iff_exists,
      fun text => ByteString.text?_eq_some_iff⟩
  · intro text hsize
    exact (consumes_name hsize).between
  · intro text c' hread
    exact upTo_of_name_eq_ok hread

/-- A length with a group of zeros is taken.  A zero in two bytes and a half of a surrogate pair are
no text. -/
example : name.result (.ofBytes ⟨#[0x82, 0x00, 0xC3, 0xA9]⟩) = .ok "é" ∧
    name.result (.ofBytes ⟨#[0x02, 0xC0, 0x80]⟩) = .error (.invalidUtf8 0) ∧
    name.result (.ofBytes ⟨#[0x03, 0xED, 0xA0, 0x80]⟩) = .error (.invalidUtf8 0) :=
  ⟨rfl, rfl, rfl⟩

end Bytestream.Decoder
