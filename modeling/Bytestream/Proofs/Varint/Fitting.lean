import Mathlib
import Bytestream.Proofs.Varint.Wrapping
import Bytestream.Proofs.Read.Transaction

/-!
# Numbers that fit

The unsigned reads of a type make two checks: the reader of the groups counts the continuation bytes,
and the typed read asks whether the word is a number of the type.  Each of them lets something
through that the other one has to stop.  Up to 32 bits they are exact together.  The bytes that the
first check lets through are six at most and write 42 bits at most, so that none is lost before the
second check looks at the number.
-/

namespace Bytestream.Varint

open Decoder

variable {α : Type}

/-- Reads an unsigned varint and makes a value of its number, if the number has `bits` bits at most.
Any other number is an overflow at the start of the varint. -/
def fitting (bits : Nat) (make : Nat → α) : Decoder α :=
  atomically do
    let start ← offset
    let value ← unsigned bits
    if value.toNat < 2 ^ bits then return make value.toNat
    else throw (.overflow bits start)

theorem fitting_apply (bits : Nat) (make : Nat → α) (c : Cursor) :
    fitting bits make c =
      match unsigned bits c with
      | .ok value c' =>
          if value.toNat < 2 ^ bits then .ok (make value.toNat) c'
          else .error (.overflow bits c.offset) c
      | .error e _ => .error e c := by
  simp only [fitting, atomically, offset_bind_apply]
  cases hread : unsigned bits c with
  | error e c' => rw [bind_of_error hread]
  | ok value c' =>
      rw [bind_of_ok hread]
      by_cases hfits : value.toNat < 2 ^ bits
      · simp only [hfits, ↓reduceIte]
        rfl
      · simp only [hfits, ↓reduceIte]
        rfl

/-! ### The typed reads -/

theorem integer_eq_fitting {type : IntType} (htype : type.isSigned = false) :
    integer type = fitting type.bits fun n => ⟨type, BitVec.ofNat type.bits n⟩ := by
  have hword : ∀ value : UInt64,
      BitVec.ofNat type.bits value.toNat = value.toBitVec.setWidth type.bits :=
    fun value => BitVec.ofNat_toNat type.bits value.toBitVec
  simp only [integer, fitting, htype, Bool.false_eq_true, ↓reduceIte, toNat_setWidth_eq_iff, hword]

theorem u32_eq_fitting : u32 = fitting 32 UInt32.ofNat := by
  have hword : ∀ value : UInt64, value.toUInt32.toNat = value.toNat ↔ value.toNat < 2 ^ 32 :=
    fun value => toNat_setWidth_eq_iff value 32
  simp only [u32, fitting, hword]
  rfl

/-- Every word fits in 64 bits, so that the second check is none. -/
theorem u64_eq_fitting : u64 = fitting 64 UInt64.ofNat := by
  funext c
  rw [fitting_apply, u64]
  cases hread : unsigned 64 c with
  | error e c' => rw [reverts_unsigned 64 hread]
  | ok value c' => simp only [value.toNat_lt, ↓reduceIte, UInt64.ofNat_toNat]

/-! ### Exact reads -/

/-- What comes of a varint of `bits` bits at `c` if its number is taken as it is written: the value
made of the number, if there is a whole varint with no more continuation bytes than the width allows
and the number has `bits` bits at most. -/
def exactRead (bits : Nat) (make : Nat → α) (c : Cursor) : EStateM.Result DecodeError Cursor α :=
  if bits ⌈/⌉ 7 < continuations c then .error (.overflow bits c.offset) c
  else if hend : c.offset + continuations c = c.data.size then .error (.truncated c.data.size 1 0) c
  else if positionalSum (upcoming c) < 2 ^ bits then
    .ok (make (positionalSum (upcoming c)))
      (c.advance (continuations c + 1) (succ_continuations_le hend))
  else .error (.overflow bits c.offset) c

/-- A word with room for the groups of some bytes is the number that they write. -/
theorem toNat_ofNat_positionalSum {bytes : List UInt8} (hlength : 7 * bytes.length ≤ 64) :
    (UInt64.ofNat (positionalSum bytes)).toNat = positionalSum bytes := by
  have hsum : positionalSum bytes < 2 ^ (7 * bytes.length) :=
    pow_128 bytes.length ▸ positionalSum_lt bytes
  exact UInt64.toNat_ofNat_of_lt'
    (Nat.lt_of_lt_of_le hsum (Nat.pow_le_pow_right Nat.two_pos hlength))

/-- The two checks are exact if all the groups that the first one lets through fit in a word. -/
theorem fitting_eq_exactRead {bits : Nat} (hclamp : clampWidth bits = bits)
    (hroom : 7 * (groupLimit bits + 1) ≤ 64) (make : Nat → α) (c : Cursor) :
    fitting bits make c = exactRead bits make c := by
  rw [fitting_apply, exactRead, unsigned_apply, hclamp, ← groupLimit_eq_ceilDiv]
  rcases groups_cases bits c with
    ⟨hrun, hgroups⟩ | ⟨hrun, hend, hgroups⟩ | ⟨hend, last, hrun, _, hbytes, hgroups⟩
  · rw [hgroups, if_pos hrun]
  · rw [hgroups, if_neg (Nat.not_lt_of_le hrun), dif_pos hend]
  · have hlength : 7 * (upcoming c).length ≤ 64 := by
      rw [length_upcoming hend]
      omega
    have hvalue : (gathered (c.unread.takeWhile continues) last).word.toNat =
        positionalSum (upcoming c) := by
      rw [gathered, ← hbytes]
      exact toNat_ofNat_positionalSum hlength
    rw [hgroups, if_neg (Nat.not_lt_of_le hrun), dif_neg hend]
    simp only [hvalue]

/-- The number 256 in two bytes, which are not too many for a read of 8 bits. -/
def twoByteVarint : ByteArray :=
  ⟨#[0x80, 0x02]⟩

end Bytestream.Varint
