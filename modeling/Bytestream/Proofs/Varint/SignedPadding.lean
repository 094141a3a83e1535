import Mathlib
import Bytestream.Proofs.Varint.Padding

/-!
# Padded varints of signed numbers

A signed number is padded with groups of its sign, and there are two ways in which a read comes to
its value.  If the groups stop short of the declared width, the sign is carried on above them.  If
they reach it, the word is left as it is, and it is not the number if that is negative; only when the
word is cut down to the type does the sign bit of the type get its meaning.  A typed read ends with
the number itself either way.
-/

namespace Bytestream.Varint

open Decoder

/-- Whether a number can be written in two's complement with so many bits. -/
def SignedFits (bits : Nat) (n : Int) : Prop :=
  -2 ^ (bits - 1) ≤ n ∧ n < 2 ^ (bits - 1)

theorem SignedFits.bmod {bits : Nat} {n : Int} (hn : SignedFits bits n) (hpos : 0 < bits) :
    n.bmod (2 ^ bits) = n := by
  obtain ⟨bits, rfl⟩ := Nat.exists_eq_add_of_le' hpos
  exact (bmod_two_pow_eq_self_iff bits).mpr hn

theorem SignedFits.mono {bits more : Nat} {n : Int} (hn : SignedFits bits n) (hle : bits ≤ more) :
    SignedFits more n := by
  have hpow : (2 : Int) ^ (bits - 1) ≤ 2 ^ (more - 1) :=
    pow_le_pow_right₀ (by decide) (Nat.sub_le_sub_right hle 1)
  obtain ⟨hlow, hhigh⟩ := hn
  exact ⟨by omega, by omega⟩

/-- In whole groups, the lowest bit that only repeats the sign is bit 6 of the last one. -/
theorem signedFits_groups {count : Nat} {n : Int} :
    SignedFits (7 * (count + 1)) n ↔ -(64 * 128 ^ count) ≤ n ∧ n < 64 * 128 ^ count := by
  have hpow : (2 : Int) ^ (7 * (count + 1) - 1) = 64 * 128 ^ count := by
    rw [intPow_128, Nat.mul_succ, Nat.add_sub_assoc (by decide), pow_add, mul_comm]
    rfl
  rw [SignedFits, hpow]

/-- One group more holds the sign of a number if one group fewer holds that of its quotient. -/
theorem signedFits_div_128 {count : Nat} {n : Int} :
    SignedFits (7 * (count + 1)) (n / 128) ↔ SignedFits (7 * (count + 1 + 1)) n := by
  rw [signedFits_groups, signedFits_groups, pow_succ]
  omega

/-- Padded to a length that holds the sign, a number is what its bytes write. -/
theorem signedSum_padded {count : Nat} {n : Int} (hn : SignedFits (7 * (count + 1)) n) :
    signedSum (padded (count + 1) n) = n := by
  induction count generalizing n with
  | zero =>
      obtain ⟨hlow, hhigh⟩ := signedFits_groups.mp hn
      exact signedSum_finalByte (by simpa using hlow) (by simpa using hhigh)
  | succ count ih =>
      have hrest := terminated_padded (Nat.succ_pos count) (n / 128)
      rw [padded, signedSum_cons _ hrest.ne_nil, payload_continuationByte,
        ih (signedFits_div_128.mpr hn)]
      exact Int.emod_add_mul_ediv n 128

/-- The shortest varint is a padded one without padding. -/
theorem exists_encodeSigned_eq_padded (n : Int) :
    ∃ count, encodeSigned n = padded (count + 1) n ∧ SignedFits (7 * (count + 1)) n := by
  fun_induction encodeSigned n with
  | case1 n hn => exact ⟨0, rfl, signedFits_groups.mpr (by simpa using hn)⟩
  | case2 n _ ih =>
      obtain ⟨count, hrest, hfits⟩ := ih
      exact ⟨count + 1, by rw [hrest, padded], signedFits_div_128.mp hfits⟩

theorem length_encodeSigned_le_groupLimit {bits : Nat} {n : Int} (hpos : 0 < bits)
    (hn : SignedFits bits n) : (encodeSigned n).length ≤ groupLimit bits := by
  obtain ⟨count, hcount, hle⟩ := exists_groupLimit_eq hpos
  rw [hcount]
  obtain ⟨hlow, hhigh⟩ := signedFits_groups.mp (hn.mono hle)
  exact length_encodeSigned_le hlow hhigh

/-- What a signed read makes of a varint within its limit. -/
theorem consumes_signed (maxBits : Nat) {bytes : List UInt8} (hbytes : Terminated bytes)
    (hlength : bytes.length ≤ groupLimit (clampWidth maxBits) + 1) :
    ∃ value : Int64, Consumes (signed maxBits) bytes value ∧
      value.toInt ≡ signedSum bytes [ZMOD 2 ^ clampWidth maxBits] ∧
      (clampWidth maxBits ≤ 7 * bytes.length →
        value = (UInt64.ofNat (positionalSum bytes)).toInt64) := by
  obtain ⟨init, last, rfl, hinit, hlast⟩ := hbytes
  rw [List.length_append, List.length_singleton] at hlength ⊢
  refine ⟨_, (consumes_groups hinit hlast (Nat.le_of_succ_le_succ hlength)).map fun g =>
    (g.extended (clampWidth maxBits)).toInt64,
    toInt_extended_modEq init last (clampWidth_le maxBits), ?_⟩
  intro hlong
  rw [extended_of_long hlong]
  rfl

/-- A typed read cuts the value down to its type, which makes it the number that was written. -/
theorem exists_consumes_integer {type : IntType} (htype : type.isSigned = true) {n : Int}
    (hn : SignedFits type.bits n) {bytes : List UInt8} (hbytes : Terminated bytes)
    (hlength : bytes.length ≤ groupLimit type.bits + 1) (hsum : signedSum bytes = n) :
    ∃ value : TypedInt, Consumes (integer type) bytes value ∧ value.type = type ∧
      value.value = n := by
  refine ⟨_, consumes_integer_of_signed htype hbytes hlength, rfl, ?_⟩
  rw [TypedInt.value, if_pos htype, hsum, BitVec.toInt_ofInt]
  exact hn.bmod type.bits_pos

theorem exists_consumes_i32 {n : Int} (hn : SignedFits 32 n) {bytes : List UInt8}
    (hbytes : Terminated bytes) (hlength : bytes.length ≤ groupLimit 32 + 1)
    (hsum : signedSum bytes = n) :
    ∃ value : Int32, Consumes i32 bytes value ∧ value.toInt = n := by
  obtain ⟨value, hread, hmod, _⟩ := consumes_signed 32 hbytes hlength
  refine ⟨_, hread.map Int64.toInt32, ?_⟩
  calc
    value.toInt32.toInt = value.toInt.bmod (2 ^ 32) := Int64.toInt_toInt32 value
    _ = (signedSum bytes).bmod (2 ^ 32) := bmod_eq_of_modEq hmod
    _ = n := by rw [hsum, hn.bmod (by decide)]

theorem exists_consumes_i64 {n : Int} (hn : SignedFits 64 n) {bytes : List UInt8}
    (hbytes : Terminated bytes) (hlength : bytes.length ≤ groupLimit 64 + 1)
    (hsum : signedSum bytes = n) :
    ∃ value : Int64, Consumes i64 bytes value ∧ value.toInt = n := by
  obtain ⟨value, hread, hmod, _⟩ := consumes_signed 64 hbytes hlength
  refine ⟨value, hread, ?_⟩
  calc
    value.toInt = value.toInt.bmod (2 ^ 64) := (Int64.toInt_bmod value).symm
    _ = (signedSum bytes).bmod (2 ^ 64) := bmod_eq_of_modEq hmod
    _ = n := by rw [hsum, hn.bmod (by decide)]

/-- The groups of a negative number make it greater by the power of 128 that their sign takes off. -/
theorem positionalSum_of_negative {bytes : List UInt8} (hneg : signedSum bytes < 0) :
    (positionalSum bytes : Int) = signedSum bytes + 128 ^ bytes.length := by
  rw [signedSum] at hneg ⊢
  split
  · omega
  case isFalse hsign =>
    rw [if_neg hsign] at hneg
    omega

/-- A negative number that reaches the declared width comes out of the untyped read without its
sign. -/
theorem exists_consumes_signed_of_negative (maxBits : Nat) {bytes : List UInt8}
    (hbytes : Terminated bytes) (hlength : bytes.length ≤ groupLimit (clampWidth maxBits) + 1)
    (hneg : signedSum bytes < 0) (hlong : clampWidth maxBits ≤ 7 * bytes.length)
    (hshort : 7 * bytes.length < 64) :
    ∃ value : Int64, Consumes (signed maxBits) bytes value ∧
      value.toInt = signedSum bytes + 2 ^ (7 * bytes.length) := by
  obtain ⟨value, hread, _, hvalue⟩ := consumes_signed maxBits hbytes hlength
  refine ⟨value, hread, ?_⟩
  have hlt : positionalSum bytes < 2 ^ 63 := by
    apply Nat.lt_of_lt_of_le (positionalSum_lt bytes)
    rw [pow_128]
    exact Nat.pow_le_pow_right Nat.two_pos (Nat.le_of_lt_succ hshort)
  have hword : (UInt64.ofNat (positionalSum bytes)).toNat = positionalSum bytes :=
    UInt64.toNat_ofNat_of_lt' (Nat.lt_trans hlt (by decide))
  rw [← intPow_128, ← positionalSum_of_negative hneg, hvalue hlong]
  exact toInt_toInt64_eq (by rw [hword]) (by omega) (by omega)

/-- A signed type that is narrower than a word has room in a word for all that its varints hold. -/
theorem groups_lt_word {type : IntType} (hnarrow : type.bits < 64) :
    7 * (groupLimit type.bits + 1) < 64 := by
  revert hnarrow
  cases type <;> decide

/-- Within the limit of its type, a typed read yields every number of its range from any padded varint
that holds the sign, and takes exactly its bytes, whatever stands around them.  The untyped read of
the same width does not: from the width on it loses the sign of a negative number, which makes the
value greater by a power of 128.  The shortest varint is one of the padded ones. -/
theorem signed_types_padded {type : IntType} (htype : type.isSigned = true) {n : Int}
    (hn : SignedFits type.bits n) :
    (∀ count, 1 ≤ count → count ≤ type.bits ⌈/⌉ 7 + 1 → SignedFits (7 * count) n →
      (∃ value : TypedInt, ReadsBetween (integer type) (padded count n) value ∧
        value.type = type ∧ value.value = n) ∧
      (type = .i32 → ∃ value : Int32, ReadsBetween i32 (padded count n) value ∧
        value.toInt = n) ∧
      (type = .i64 → ∃ value : Int64, ReadsBetween i64 (padded count n) value ∧
        value.toInt = n) ∧
      (n < 0 → type.bits ≤ 7 * count → type.bits < 64 →
        ∃ value : Int64, ReadsBetween (signed type.bits) (padded count n) value ∧
          value.toInt = n + 2 ^ (7 * count) ∧ value.toInt ≠ n)) ∧
    ∃ count, 1 ≤ count ∧ count ≤ type.bits ⌈/⌉ 7 ∧ SignedFits (7 * count) n ∧
      encodeSigned n = padded count n := by
  rw [← groupLimit_eq_ceilDiv]
  constructor
  · intro count hpos hlimit hgroups
    have hbytes := terminated_padded hpos n
    have hlength := length_padded count n
    have hsum : signedSum (padded count n) = n := by
      obtain ⟨count, rfl⟩ := Nat.exists_eq_add_of_le' hpos
      exact signedSum_padded hgroups
    rw [← hlength] at hlimit
    refine ⟨?_, ?_, ?_, ?_⟩
    · obtain ⟨value, hread, hvalue⟩ := exists_consumes_integer htype hn hbytes hlimit hsum
      exact ⟨value, hread.between, hvalue⟩
    · rintro rfl
      obtain ⟨value, hread, hvalue⟩ := exists_consumes_i32 hn hbytes hlimit hsum
      exact ⟨value, hread.between, hvalue⟩
    · rintro rfl
      obtain ⟨value, hread, hvalue⟩ := exists_consumes_i64 hn hbytes hlimit hsum
      exact ⟨value, hread.between, hvalue⟩
    · intro hneg hlong hnarrow
      have hshort := groups_lt_word hnarrow
      obtain ⟨value, hread, hvalue⟩ := exists_consumes_signed_of_negative type.bits
        hbytes (by rwa [clampWidth_bits]) (by rwa [hsum]) (by rwa [clampWidth_bits, hlength])
        (by omega)
      rw [hsum, hlength] at hvalue
      have hpow : (0 : Int) < 2 ^ (7 * count) := by positivity
      exact ⟨value, hread.between, hvalue, by omega⟩
  · obtain ⟨count, hbytes, hfits⟩ := exists_encodeSigned_eq_padded n
    have hlength := length_encodeSigned_le_groupLimit type.bits_pos hn
    rw [hbytes, length_padded] at hlength
    exact ⟨count + 1, Nat.succ_pos count, hlength, hfits, hbytes⟩

/-- Five bytes that write -1 reach the width of 32 bits. -/
theorem signed_types_padded_fiveBytes :
    IntType.i32.isSigned = true ∧ SignedFits 32 (-1) ∧
      (∃ value : Int32, ReadsBetween i32 [0xFF, 0xFF, 0xFF, 0xFF, 0x7F] value ∧
        value.toInt = -1) ∧
      ∃ value : Int64, ReadsBetween (signed 32) [0xFF, 0xFF, 0xFF, 0xFF, 0x7F] value ∧
        value.toInt = -1 + 2 ^ 35 ∧ value.toInt ≠ -1 := by
  have hfits : SignedFits 32 (-1) := ⟨by decide, by decide⟩
  have hlimit : 5 ≤ IntType.i32.bits ⌈/⌉ 7 + 1 := by
    rw [← groupLimit_eq_ceilDiv]
    decide
  obtain ⟨_, h32, _, huntyped⟩ := (@signed_types_padded .i32 rfl (-1) hfits).1 5 (by decide)
    hlimit (hfits.mono (by decide))
  exact ⟨rfl, hfits, h32 rfl, huntyped (by decide) (by decide) (by decide)⟩

end Bytestream.Varint
