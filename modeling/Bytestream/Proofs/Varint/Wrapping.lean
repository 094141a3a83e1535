import Mathlib
import Bytestream.Proofs.Varint.Consumption

/-!
# Numbers wider than their type

A varint may write more bits than its type holds: with five continuation bytes it writes 42 bits for
a type of 32, and with ten of them 77 bits for a word.  The reads of 64 bits and the signed reads
take such a varint like any other one within the limit of their width, and the value is what is left
of the number modulo the size of the type.  So the value is the number itself exactly if the number
fits, and a number that does not fit is an overflow only if its varint is too long.
-/

namespace Bytestream.Varint

open Decoder

variable {α β : Type}

/-- What comes of reading a varint of `bits` bits at `c`, if nothing but its length can be wrong with
it.  A success takes a varint within the limit, and its bytes yield the value.  A failure moves
nothing; it is an overflow if too many continuation bytes come next, and otherwise a truncation. -/
def Outcome (bits : Nat) (c : Cursor) (Yields : List UInt8 → α → Prop) :
    EStateM.Result DecodeError Cursor α → Prop
  | .ok value c' =>
      c'.data = c.data ∧ c'.offset = c.offset + (c.upTo c').length ∧ Terminated (c.upTo c') ∧
        (c.upTo c').length ≤ bits ⌈/⌉ 7 + 1 ∧ Yields (c.upTo c') value
  | .error e c' =>
      c' = c ∧
        (bits ⌈/⌉ 7 < continuations c ∧ e = .overflow bits c.offset ∨
          continuations c ≤ bits ⌈/⌉ 7 ∧ c.offset + continuations c = c.data.size ∧
            e = .truncated c.data.size 1 0)

theorem groups_outcome (bits : Nat) (c : Cursor) :
    Outcome bits c (fun bytes g => ∃ init last, bytes = init ++ [last] ∧ g = gathered init last)
      (groups bits c) := by
  rcases groups_cases bits c with
    ⟨hrun, hgroups⟩ | ⟨hrun, hend, hgroups⟩ | ⟨hend, last, hrun, _, hbytes, hgroups⟩
  · rw [hgroups, Outcome, ← groupLimit_eq_ceilDiv]
    exact ⟨rfl, Or.inl ⟨hrun, rfl⟩⟩
  · rw [hgroups, Outcome, ← groupLimit_eq_ceilDiv]
    exact ⟨rfl, Or.inr ⟨hrun, hend, rfl⟩⟩
  · rw [hgroups, Outcome, upTo_advance_continuations hend, length_upcoming hend,
      ← groupLimit_eq_ceilDiv]
    exact ⟨rfl, rfl, terminated_upcoming hend, Nat.succ_le_succ hrun, _, last, hbytes, rfl⟩

/-- What is made of the value without reading on comes of the same bytes. -/
theorem Outcome.bind_pure {d : Decoder α} {f : α → Decoder β} {bits : Nat} {c : Cursor}
    {Yields : List UInt8 → α → Prop} {Yields' : List UInt8 → β → Prop}
    (hd : Outcome bits c Yields (d c))
    (hf : ∀ bytes value, Yields bytes value → ∃ result, f value = pure result ∧
      Yields' bytes result) :
    Outcome bits c Yields' ((d >>= f) c) := by
  cases hread : d c with
  | ok value c' =>
      rw [hread] at hd
      obtain ⟨hdata, hoffset, hterminated, hlength, hvalue⟩ := hd
      obtain ⟨result, hresult, hyields⟩ := hf _ value hvalue
      rw [bind_of_ok hread, hresult]
      exact ⟨hdata, hoffset, hterminated, hlength, hyields⟩
  | error e c' =>
      rw [hread] at hd
      rw [bind_of_error hread]
      exact hd

theorem Outcome.map {d : Decoder α} {bits : Nat} {c : Cursor} {Yields : List UInt8 → α → Prop}
    {Yields' : List UInt8 → β → Prop} (hd : Outcome bits c Yields (d c)) (f : α → β)
    (hf : ∀ bytes value, Yields bytes value → Yields' bytes (f value)) :
    Outcome bits c Yields' ((do return f (← d) : Decoder β) c) :=
  hd.bind_pure fun bytes value hvalue => ⟨f value, rfl, hf bytes value hvalue⟩

theorem Outcome.imp {bits : Nat} {c : Cursor} {Yields Yields' : List UInt8 → α → Prop}
    {r : EStateM.Result DecodeError Cursor α} (hr : Outcome bits c Yields r)
    (himp : ∀ bytes value, Yields bytes value → Yields' bytes value) :
    Outcome bits c Yields' r := by
  cases r with
  | ok value c' =>
      obtain ⟨hdata, hoffset, hterminated, hlength, hvalue⟩ := hr
      exact ⟨hdata, hoffset, hterminated, hlength, himp _ value hvalue⟩
  | error e c' => exact hr

/-- A read with such an outcome goes back by itself. -/
theorem Outcome.atomically {d : Decoder α} {bits : Nat} {c : Cursor}
    {Yields : List UInt8 → α → Prop} (hd : Outcome bits c Yields (d c)) :
    Outcome bits c Yields (atomically d c) := by
  revert hd
  simp only [Decoder.atomically]
  cases d c with
  | ok value c' => exact id
  | error e c' => exact fun hd => ⟨rfl, hd.2⟩

/-! ### Unsigned words -/

/-- The word of an unsigned varint is what its bytes write, as far as it fits. -/
theorem unsigned_yields (maxBits : Nat) (c : Cursor) :
    Outcome (clampWidth maxBits) c (fun bytes word => word.toNat = positionalSum bytes % 2 ^ 64)
      (unsigned maxBits c) := by
  apply (groups_outcome (clampWidth maxBits) c).map fun g => g.word
  rintro bytes g ⟨init, last, rfl, rfl⟩
  exact UInt64.toNat_ofNat'

theorem u64_outcome (c : Cursor) :
    Outcome 64 c (fun bytes word => word.toNat = positionalSum bytes % 2 ^ 64) (u64 c) :=
  unsigned_yields 64 c

/-- The check for lost bits never fires at 64 bits, because they are lost before it is made. -/
theorem integer_u64_outcome (c : Cursor) :
    Outcome 64 c (fun bytes n => n.type = .u64 ∧ n.value = (positionalSum bytes : Int) % 2 ^ 64)
      (integer .u64 c) := by
  apply Outcome.atomically
  apply (u64_outcome c).bind_pure
  intro bytes value hvalue
  have hwidth : value.toBitVec.setWidth IntType.u64.bits = value.toBitVec :=
    BitVec.setWidth_eq value.toBitVec
  refine ⟨⟨.u64, value.toBitVec⟩, ?_, rfl, ?_⟩
  · rw [hwidth]
    exact if_pos rfl
  · change (value.toNat : Int) = _
    rw [hvalue]
    norm_cast

/-- A word of 64 bits is what its varint writes modulo its size, and so it is exactly what the varint
writes if that is below `2 ^ 64`, and only then.  A number that is not is no reason to refuse the
varint, for the plain read as for the typed one: an overflow has more than ten continuation bytes. -/
theorem u64_wraps (c : Cursor) :
    Outcome 64 c (fun bytes word =>
        word.toNat = positionalSum bytes % 2 ^ 64 ∧
          (word.toNat = positionalSum bytes ↔ positionalSum bytes < 2 ^ 64))
      (u64 c) ∧
    Outcome 64 c (fun bytes n =>
        n.type = .u64 ∧ n.value = (positionalSum bytes : Int) % 2 ^ 64 ∧
          (n.value = (positionalSum bytes : Int) ↔ positionalSum bytes < 2 ^ 64))
      (integer .u64 c) := by
  constructor
  · apply (u64_outcome c).imp
    intro bytes word hword
    refine ⟨hword, ?_⟩
    rw [hword]
    exact Nat.mod_eq_iff_lt (by decide)
  · apply (integer_u64_outcome c).imp
    rintro bytes n ⟨htype, hvalue⟩
    refine ⟨htype, hvalue, ?_⟩
    rw [hvalue]
    omega

/-- Nine continuation bytes without a bit in them, and a tenth byte whose only bit is number 64. -/
def wideVarint : ByteArray :=
  ⟨#[0x80, 0x80, 0x80, 0x80, 0x80, 0x80, 0x80, 0x80, 0x80, 0x02]⟩

theorem wideVarint_remaining : 10 ≤ (Cursor.ofBytes wideVarint).remaining := by
  decide

/-- The varint writes `2 ^ 64` and is read as zero. -/
theorem u64_wideVarint :
    positionalSum wideVarint.data.toList = 2 ^ 64 ∧
      u64 (.ofBytes wideVarint) =
        .ok 0 ((Cursor.ofBytes wideVarint).advance 10 wideVarint_remaining) ∧
      integer .u64 (.ofBytes wideVarint) =
        .ok ⟨.u64, 0⟩ ((Cursor.ofBytes wideVarint).advance 10 wideVarint_remaining) :=
  ⟨by decide, rfl, rfl⟩

/-! ### Signed numbers -/

theorem bmod_eq_of_modEq {m : Nat} {n k : Int} (hmod : n ≡ k [ZMOD m]) : n.bmod m = k.bmod m := by
  rw [← Int.emod_bmod, hmod.eq, Int.emod_bmod]

/-- The numbers that a power of two leaves as they are lie within half of it on either side. -/
theorem bmod_two_pow_eq_self_iff (bits : Nat) {n : Int} :
    n.bmod (2 ^ (bits + 1)) = n ↔ -2 ^ bits ≤ n ∧ n < 2 ^ bits := by
  have hpow : ((2 ^ (bits + 1) : Nat) : Int) = 2 * 2 ^ bits := by
    push_cast
    ring
  have hpos : 0 < 2 ^ (bits + 1) := Nat.two_pow_pos _
  constructor
  · intro hself
    have hlow := Int.le_bmod (x := n) hpos
    have hhigh := Int.bmod_lt (x := n) hpos
    rw [hself, hpow] at hlow hhigh
    omega
  · rintro ⟨hlow, hhigh⟩
    exact Int.bmod_eq_of_le_mul_two (by omega) (by omega)

theorem signed_outcome {bits : Nat} (hpos : 1 ≤ bits) (hbits : bits ≤ 64) (c : Cursor) :
    Outcome bits c (fun bytes value => value.toInt ≡ signedSum bytes [ZMOD 2 ^ bits])
      (signed bits c) := by
  have hclamp : clampWidth bits = bits := by
    rw [clampWidth, Nat.min_eq_left hbits, Nat.max_eq_right hpos]
  rw [signed, hclamp]
  apply (groups_outcome bits c).map fun g => (g.extended bits).toInt64
  rintro bytes g ⟨init, last, rfl, rfl⟩
  exact toInt_extended_modEq init last hbits

theorem i32_outcome (c : Cursor) :
    Outcome 32 c (fun bytes value => value.toInt = (signedSum bytes).bmod (2 ^ 32)) (i32 c) := by
  apply (signed_outcome (by decide) (by decide) c).map Int64.toInt32
  intro bytes value hvalue
  rw [Int64.toInt_toInt32]
  exact bmod_eq_of_modEq hvalue

theorem i64_outcome (c : Cursor) :
    Outcome 64 c (fun bytes value => value.toInt = (signedSum bytes).bmod (2 ^ 64)) (i64 c) := by
  apply (signed_outcome (by decide) (by decide) c).imp
  intro bytes value hvalue
  rw [← Int64.toInt_bmod value]
  exact bmod_eq_of_modEq hvalue

/-- A signed read yields the one number of its type that agrees with what the varint writes modulo
the size of the type, and so it yields exactly what the varint writes if that is in range, and only
then.  A number out of range is no reason to refuse the varint: an overflow has more than five
continuation bytes for a type of 32 bits, and more than ten for one of 64. -/
theorem signed_typed_wraps (c : Cursor) :
    Outcome 32 c (fun bytes value =>
        value.toInt = (signedSum bytes).bmod (2 ^ 32) ∧
          (value.toInt = signedSum bytes ↔
            -2 ^ 31 ≤ signedSum bytes ∧ signedSum bytes < 2 ^ 31))
      (i32 c) ∧
    Outcome 64 c (fun bytes value =>
        value.toInt = (signedSum bytes).bmod (2 ^ 64) ∧
          (value.toInt = signedSum bytes ↔
            -2 ^ 63 ≤ signedSum bytes ∧ signedSum bytes < 2 ^ 63))
      (i64 c) := by
  constructor
  · apply (i32_outcome c).imp
    intro bytes value hvalue
    refine ⟨hvalue, ?_⟩
    rw [hvalue]
    exact bmod_two_pow_eq_self_iff 31
  · apply (i64_outcome c).imp
    intro bytes value hvalue
    refine ⟨hvalue, ?_⟩
    rw [hvalue]
    exact bmod_two_pow_eq_self_iff 63

/-- Four continuation bytes without a bit in them, and a byte whose only bit is number 31. -/
def topBitVarint : ByteArray :=
  ⟨#[0x80, 0x80, 0x80, 0x80, 0x08]⟩

/-- Nine continuation bytes without a bit in them, and a byte whose only bit is number 63. -/
def topBitVarint64 : ByteArray :=
  ⟨#[0x80, 0x80, 0x80, 0x80, 0x80, 0x80, 0x80, 0x80, 0x80, 0x01]⟩

theorem topBitVarint_remaining : 5 ≤ (Cursor.ofBytes topBitVarint).remaining := by
  decide

theorem topBitVarint64_remaining : 10 ≤ (Cursor.ofBytes topBitVarint64).remaining := by
  decide

/-- The varints write the numbers behind the greatest ones of their types, and are read as the least
ones. -/
theorem signed_topBitVarints :
    (signedSum topBitVarint.data.toList = 2 ^ 31 ∧
      i32 (.ofBytes topBitVarint) =
        .ok Int32.minValue ((Cursor.ofBytes topBitVarint).advance 5 topBitVarint_remaining)) ∧
    (signedSum topBitVarint64.data.toList = 2 ^ 63 ∧
      i64 (.ofBytes topBitVarint64) =
        .ok Int64.minValue ((Cursor.ofBytes topBitVarint64).advance 10 topBitVarint64_remaining)) :=
  ⟨⟨by decide, rfl⟩, by decide, rfl⟩

end Bytestream.Varint
