import Mathlib
import Bytestream.Proofs.Varint.Encoding

/-!
# Varints that are consumed

A varint within the limit of its reader is consumed, and the value is read off the number that its
bytes write: cut down to a word for a plain unsigned read, and cut down to the width of the type, in
two's complement if the type is signed, for a typed one.  With the shortest varint of a number the
value is that number.
-/

namespace Bytestream.Varint

open Decoder

/-- The groups of a width hold all of its bits. -/
theorem le_groupLimit (bits : Nat) : bits ≤ 7 * groupLimit bits := by
  simp only [groupLimit]
  omega

/-- The groups of a width are at least one. -/
theorem exists_groupLimit_eq {bits : Nat} (hpos : 1 ≤ bits) :
    ∃ count, groupLimit bits = count + 1 ∧ bits ≤ 7 * (count + 1) := by
  obtain ⟨count, hcount⟩ := Nat.exists_eq_add_of_le' (Nat.div_pos (by omega) (by decide) :
    1 ≤ groupLimit bits)
  exact ⟨count, hcount, hcount ▸ le_groupLimit bits⟩

/-- A number of the width of a reader is written within its groups. -/
theorem length_encodeUnsigned_le_groupLimit {bits n : Nat} (hpos : 1 ≤ bits) (hn : n < 2 ^ bits) :
    (encodeUnsigned n).length ≤ groupLimit bits := by
  obtain ⟨count, hcount, hle⟩ := exists_groupLimit_eq hpos
  rw [hcount]
  apply length_encodeUnsigned_le
  rw [pow_128]
  exact Nat.lt_of_lt_of_le hn (Nat.pow_le_pow_right Nat.two_pos hle)

/-- A word has ten groups. -/
theorem groupLimit_le {bits : Nat} (hbits : bits ≤ 64) : groupLimit bits ≤ 10 :=
  Nat.div_le_div_right (Nat.add_le_add_right hbits 6)

theorem clampWidth_bits (type : IntType) : clampWidth type.bits = type.bits := by
  cases type <;> rfl

theorem consumes_unsigned (maxBits : Nat) {bytes : List UInt8} (hbytes : Terminated bytes)
    (hlength : bytes.length ≤ groupLimit (clampWidth maxBits) + 1) :
    Consumes (unsigned maxBits) bytes (UInt64.ofNat (positionalSum bytes)) := by
  obtain ⟨init, last, rfl, hinit, hlast⟩ := hbytes
  have hlimit : init.length ≤ groupLimit (clampWidth maxBits) := by simpa using hlength
  exact (consumes_groups hinit hlast hlimit).map fun g => g.word

/-- A word keeps its number when it is cut down exactly if the number fits. -/
theorem toNat_setWidth_eq_iff (value : UInt64) (bits : Nat) :
    (value.toBitVec.setWidth bits).toNat = value.toNat ↔ value.toNat < 2 ^ bits := by
  rw [BitVec.toNat_setWidth]
  exact Nat.mod_eq_iff_lt (Nat.two_pow_pos bits).ne'

/-- A word read as signed keeps its low bits when it is cut down. -/
theorem setWidth_eq_ofInt {x : BitVec 64} {width : Nat} (hwidth : width ≤ 64) {n : Int}
    (hmod : x.toInt ≡ n [ZMOD 2 ^ width]) : x.setWidth width = BitVec.ofInt width n := by
  have hx : (x.toNat : Int) ≡ n [ZMOD 2 ^ width] := by
    have hsigned : x.toInt ≡ x.toNat [ZMOD 2 ^ width] :=
      toInt_toInt64_modEq ⟨x⟩ hwidth
    exact hsigned.symm.trans hmod
  apply BitVec.eq_of_toNat_eq
  rw [BitVec.toNat_setWidth, BitVec.toNat_ofInt, Nat.cast_pow, Nat.cast_ofNat, ← hx.eq]
  norm_cast

/-- A signed type takes the number modulo its width, whatever else the bytes write. -/
theorem consumes_integer_of_signed {type : IntType} (htype : type.isSigned = true)
    {bytes : List UInt8} (hbytes : Terminated bytes)
    (hlength : bytes.length ≤ groupLimit type.bits + 1) :
    Consumes (integer type) bytes ⟨type, BitVec.ofInt type.bits (signedSum bytes)⟩ := by
  obtain ⟨init, last, rfl, hinit, hlast⟩ := hbytes
  have hlimit : init.length ≤ groupLimit (clampWidth type.bits) := by
    rw [clampWidth_bits]
    simpa using hlength
  have hword : ((gathered init last).extended (clampWidth type.bits)).toInt64.toBitVec.setWidth
      type.bits = BitVec.ofInt type.bits (signedSum (init ++ [last])) := by
    rw [clampWidth_bits]
    exact setWidth_eq_ofInt type.bits_le (toInt_extended_modEq init last type.bits_le)
  apply Consumes.atomically
  apply Consumes.offset
  intro start
  rw [if_pos htype, ← hword]
  exact ((consumes_groups hinit hlast hlimit).map fun g =>
    (g.extended (clampWidth type.bits)).toInt64).map fun value =>
      TypedInt.mk type (value.toBitVec.setWidth type.bits)

/-- An unsigned type takes a number that fits in it. -/
theorem consumes_integer_of_unsigned {type : IntType} (htype : type.isSigned = false)
    {bytes : List UInt8} (hbytes : Terminated bytes)
    (hlength : bytes.length ≤ groupLimit type.bits + 1)
    (hfits : positionalSum bytes < 2 ^ type.bits) :
    Consumes (integer type) bytes ⟨type, BitVec.ofNat type.bits (positionalSum bytes)⟩ := by
  have hlt : positionalSum bytes < 2 ^ 64 :=
    Nat.lt_of_lt_of_le hfits (Nat.pow_le_pow_right Nat.two_pos type.bits_le)
  have hvalue : (UInt64.ofNat (positionalSum bytes)).toNat = positionalSum bytes :=
    UInt64.toNat_ofNat_of_lt' hlt
  have hword : (UInt64.ofNat (positionalSum bytes)).toBitVec.setWidth type.bits =
      BitVec.ofNat type.bits (positionalSum bytes) := by
    apply BitVec.eq_of_toNat_eq
    rw [BitVec.toNat_setWidth, BitVec.toNat_ofNat]
    exact congrArg (· % 2 ^ type.bits) hvalue
  have hread := consumes_unsigned type.bits hbytes (by rwa [clampWidth_bits])
  apply Consumes.atomically
  apply Consumes.offset
  intro start
  rw [if_neg (by simp [htype])]
  apply hread.bind_pure
  rw [hword]
  exact if_pos (by rw [BitVec.toNat_ofNat, Nat.mod_eq_of_lt hfits, hvalue])

theorem consumes_u32 {bytes : List UInt8} (hbytes : Terminated bytes)
    (hlength : bytes.length ≤ groupLimit 32 + 1) (hfits : positionalSum bytes < 2 ^ 32) :
    Consumes u32 bytes (UInt32.ofNat (positionalSum bytes)) := by
  have hvalue : (UInt64.ofNat (positionalSum bytes)).toNat = positionalSum bytes :=
    UInt64.toNat_ofNat_of_lt' (Nat.lt_trans hfits (by decide))
  have hword : (UInt64.ofNat (positionalSum bytes)).toUInt32 =
      UInt32.ofNat (positionalSum bytes) := by
    apply UInt32.toNat_inj.mp
    rw [UInt64.toNat_toUInt32, hvalue, UInt32.toNat_ofNat']
  have hread := consumes_unsigned 32 hbytes hlength
  apply Consumes.atomically
  apply Consumes.offset
  intro start
  apply hread.bind_pure
  rw [hword]
  exact if_pos (by rw [UInt32.toNat_ofNat', Nat.mod_eq_of_lt hfits, hvalue])

/-- A length is written so that it is read back. -/
theorem consumes_u32_encodeUnsigned {n : Nat} (hn : n < 2 ^ 32) :
    Consumes u32 (encodeUnsigned n) (UInt32.ofNat n) := by
  have hlength : (encodeUnsigned n).length ≤ groupLimit 32 + 1 :=
    length_encodeUnsigned_le (Nat.lt_trans hn (by decide))
  have hfits : positionalSum (encodeUnsigned n) < 2 ^ 32 := by
    rwa [positionalSum_encodeUnsigned]
  have hread := consumes_u32 (terminated_encodeUnsigned n) hlength hfits
  rwa [positionalSum_encodeUnsigned] at hread

end Bytestream.Varint
