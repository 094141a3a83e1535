import Mathlib
import Bytestream.Proofs.Varint.Wrapping

/-!
# Padded varints

A varint may be longer than its number needs: groups of zeros at the end add nothing to the sum.  A
number and a length that holds it make one varint, and this is all the freedom there is.  Every
varint is the number that it writes, padded to its length, and two varints of one number are the same
groups but for zeros behind the shorter one.
-/

namespace Bytestream.Varint

open Decoder

/-! ### Padded numbers -/

theorem terminated_padded {count : Nat} (hcount : 1 ≤ count) (n : Int) :
    Terminated (padded count n) := by
  fun_induction padded count n with
  | case1 => cases hcount
  | case2 n => exact Terminated.singleton (continues_finalByte n)
  | case3 count n ih =>
      exact Terminated.cons (continues_continuationByte n) (ih (Nat.succ_pos count))

theorem positionalSum_padded {count n : Nat} (hn : n < 128 ^ count) :
    positionalSum (padded count n) = n := by
  induction count generalizing n with
  | zero => exact (Nat.lt_one_iff.mp hn).symm
  | succ count ih =>
      cases count with
      | zero =>
          have hbyte := payload_finalByte n
          rw [padded, positionalSum, positionalSum]
          omega
      | succ count =>
          have hbyte := payload_continuationByte n
          have hrest := ih (n := n / 128) (by omega)
          rw [Int.natCast_ediv, Nat.cast_ofNat] at hrest
          rw [padded, positionalSum]
          omega

/-- A byte that continues a varint is made of its group. -/
theorem continuationByte_of_continues {byte : UInt8} (hbyte : continues byte = true) (rest : Nat) :
    continuationByte ((payload byte).toNat + 128 * rest : Nat) = byte := by
  have hhigh := (continues_iff byte).mp hbyte
  have hlt := byte.toNat_lt
  have hgroup := payload_toNat byte
  have hmade := toNat_continuationByte ((payload byte).toNat + 128 * rest : Nat)
  exact UInt8.toNat_inj.mp (by omega)

theorem finalByte_of_not_continues {byte : UInt8} (hbyte : continues byte = false) :
    finalByte (payload byte).toNat = byte := by
  have hlow : ¬ 128 ≤ byte.toNat := fun hhigh =>
    absurd ((continues_iff byte).mpr hhigh) (by simp [hbyte])
  have hgroup := payload_toNat byte
  have hmade := toNat_finalByte (payload byte).toNat
  exact UInt8.toNat_inj.mp (by omega)

/-- Every varint is the number that it writes, padded to its length. -/
theorem padded_positionalSum {bytes : List UInt8} (hbytes : Terminated bytes) :
    padded bytes.length (positionalSum bytes) = bytes := by
  obtain ⟨init, last, rfl, hinit, hlast⟩ := hbytes
  induction init with
  | nil => exact congrArg (fun byte => [byte]) (finalByte_of_not_continues hlast)
  | cons byte init ih =>
      obtain ⟨hbyte, hinit⟩ := List.forall_mem_cons.mp hinit
      have hrest := ih hinit
      have hquotient : (((payload byte).toNat + 128 * positionalSum (init ++ [last]) : Nat) : Int) /
          128 = positionalSum (init ++ [last]) := by
        have hgroup := payload_toNat byte
        omega
      rw [List.length_append, List.length_singleton] at hrest
      rw [List.cons_append, List.length_cons, List.length_append, List.length_singleton, padded,
        positionalSum, continuationByte_of_continues hbyte, hquotient, hrest]

/-- A number and a length make one varint. -/
theorem Terminated.eq_of_positionalSum_eq {bytes bytes' : List UInt8} (hbytes : Terminated bytes)
    (hbytes' : Terminated bytes') (hlength : bytes.length = bytes'.length)
    (hsum : positionalSum bytes = positionalSum bytes') : bytes = bytes' := by
  rw [← padded_positionalSum hbytes, ← padded_positionalSum hbytes', hlength, hsum]

/-! ### Groups of zeros -/

/-- The varint with so many groups of zeros behind it, and one more that ends it. -/
def withZeros (bytes : List UInt8) (zeros : Nat) : List UInt8 :=
  bytes.map (· ||| 0x80) ++ List.replicate zeros 0x80 ++ [0x00]

theorem continues_or (byte : UInt8) : continues (byte ||| 0x80) = true := by
  rw [continues_iff, UInt8.toNat_or]
  exact Nat.right_le_or

theorem payload_or (byte : UInt8) : payload (byte ||| 0x80) = payload byte := by
  apply UInt8.toNat_inj.mp
  rw [payload_toNat, payload_toNat, UInt8.toNat_or]
  change (byte.toNat ||| 128) % 2 ^ 7 = byte.toNat % 2 ^ 7
  rw [Nat.or_mod_two_pow]
  exact Nat.or_zero _

theorem length_withZeros (bytes : List UInt8) (zeros : Nat) :
    (withZeros bytes zeros).length = bytes.length + zeros + 1 := by
  simp [withZeros, Nat.add_assoc]

theorem terminated_withZeros (bytes : List UInt8) (zeros : Nat) :
    Terminated (withZeros bytes zeros) := by
  refine ⟨_, 0x00, rfl, ?_, by decide⟩
  intro byte hbyte
  rcases List.mem_append.mp hbyte with hbyte | hzero
  · obtain ⟨byte, _, rfl⟩ := List.mem_map.mp hbyte
    exact continues_or byte
  · rw [List.eq_of_mem_replicate hzero]
    decide

theorem positionalSum_map_or (bytes : List UInt8) :
    positionalSum (bytes.map (· ||| 0x80)) = positionalSum bytes := by
  induction bytes with
  | nil => rfl
  | cons byte rest ih => rw [List.map_cons, positionalSum, positionalSum, payload_or, ih]

theorem positionalSum_zeros (zeros : Nat) :
    positionalSum (List.replicate zeros 0x80 ++ [0x00]) = 0 := by
  induction zeros with
  | zero => rfl
  | succ zeros ih =>
      rw [List.replicate_succ, List.cons_append, positionalSum, ih]
      rfl

theorem positionalSum_withZeros (bytes : List UInt8) (zeros : Nat) :
    positionalSum (withZeros bytes zeros) = positionalSum bytes := by
  rw [withZeros, List.append_assoc, positionalSum_append, positionalSum_map_or,
    positionalSum_zeros, Nat.mul_zero, Nat.add_zero]

/-- Of two varints of one number, the longer one is the shorter one with zeros. -/
theorem eq_or_eq_withZeros {short long : List UInt8} (hshort : Terminated short)
    (hlong : Terminated long) (hsum : positionalSum long = positionalSum short)
    (hlength : short.length ≤ long.length) :
    long = short ∨ ∃ zeros, long = withZeros short zeros := by
  rcases Nat.eq_or_lt_of_le hlength with heq | hlt
  · exact Or.inl (hlong.eq_of_positionalSum_eq hshort heq.symm hsum)
  · obtain ⟨zeros, hzeros⟩ := Nat.exists_eq_add_of_lt hlt
    refine Or.inr ⟨zeros, hlong.eq_of_positionalSum_eq (terminated_withZeros short zeros) ?_ ?_⟩
    · rw [length_withZeros, hzeros]
    · rw [positionalSum_withZeros, hsum]

/-- A varint of a number is the shortest one, or the shortest one with zeros. -/
theorem Terminated.eq_encodeUnsigned {bytes : List UInt8} (hbytes : Terminated bytes) :
    bytes = encodeUnsigned (positionalSum bytes) ∨
      ∃ zeros, bytes = withZeros (encodeUnsigned (positionalSum bytes)) zeros := by
  obtain ⟨count, hcount⟩ : ∃ count, bytes.length = count + 1 :=
    Nat.exists_eq_succ_of_ne_zero (by simpa using hbytes.ne_nil)
  have hlength : (encodeUnsigned (positionalSum bytes)).length ≤ bytes.length := by
    rw [hcount]
    exact length_encodeUnsigned_le (hcount ▸ positionalSum_lt bytes)
  exact eq_or_eq_withZeros (terminated_encodeUnsigned _) hbytes
    (positionalSum_encodeUnsigned _).symm hlength

/-! ### Unsigned reads -/

theorem consumes_unsigned_padded {maxBits count : Nat} {value : UInt64} (hpos : 1 ≤ count)
    (hlimit : count ≤ groupLimit (clampWidth maxBits) + 1) (hvalue : value.toNat < 2 ^ (7 * count)) :
    Consumes (unsigned maxBits) (padded count value.toNat) value := by
  have hread := consumes_unsigned maxBits (terminated_padded hpos value.toNat)
    (by rwa [length_padded])
  rwa [positionalSum_padded (by rwa [pow_128]), UInt64.ofNat_toNat] at hread

theorem of_unsigned_eq_ok {maxBits : Nat} {c c' : Cursor} {value : UInt64}
    (hread : unsigned maxBits c = .ok value c') :
    c'.offset = c.offset + (c.upTo c').length ∧ Terminated (c.upTo c') ∧
      (c.upTo c').length ≤ groupLimit (clampWidth maxBits) + 1 ∧
      value.toNat = positionalSum (c.upTo c') % 2 ^ 64 := by
  have houtcome := unsigned_yields maxBits c
  rw [hread, Outcome, ← groupLimit_eq_ceilDiv] at houtcome
  exact houtcome.2

/-- Within the limit of the reader, every number of a word is read back from its varint of any length
that holds it.  Conversely, whatever is read is the number that the bytes write, padded to their
length, and the value is that number if it fits in a word.  The shortest varint of a number of the
declared width is within the limit.  Two varints of one number differ in groups of zeros alone. -/
theorem unsigned_padded (maxBits : Nat) :
    (∀ (count : Nat) (value : UInt64), 1 ≤ count → count ≤ clampWidth maxBits ⌈/⌉ 7 + 1 →
      value.toNat < 2 ^ (7 * count) →
      ReadsBetween (unsigned maxBits) (padded count value.toNat) value) ∧
    (∀ c c' value, unsigned maxBits c = .ok value c' →
      c'.offset = c.offset + (c.upTo c').length ∧
      1 ≤ (c.upTo c').length ∧ (c.upTo c').length ≤ clampWidth maxBits ⌈/⌉ 7 + 1 ∧
      c.upTo c' = padded (c.upTo c').length (positionalSum (c.upTo c')) ∧
      (positionalSum (c.upTo c') < 2 ^ 64 → value.toNat = positionalSum (c.upTo c'))) ∧
    (∀ value : UInt64, value.toNat < 2 ^ clampWidth maxBits →
      (encodeUnsigned value.toNat).length ≤ clampWidth maxBits ⌈/⌉ 7 ∧
      ReadsBetween (unsigned maxBits) (encodeUnsigned value.toNat) value) ∧
    ∀ c₁ c₁' value₁ c₂ c₂' value₂, unsigned maxBits c₁ = .ok value₁ c₁' →
      unsigned maxBits c₂ = .ok value₂ c₂' →
      positionalSum (c₂.upTo c₂') = positionalSum (c₁.upTo c₁') →
      (c₁.upTo c₁').length ≤ (c₂.upTo c₂').length →
      c₂.upTo c₂' = c₁.upTo c₁' ∨ ∃ zeros, c₂.upTo c₂' = withZeros (c₁.upTo c₁') zeros := by
  rw [← groupLimit_eq_ceilDiv]
  refine ⟨?_, ?_, ?_, ?_⟩
  · intro count value hpos hlimit hvalue
    exact (consumes_unsigned_padded hpos hlimit hvalue).between
  · intro c c' value hread
    obtain ⟨hoffset, hterminated, hlimit, hvalue⟩ := of_unsigned_eq_ok hread
    have hlength : 1 ≤ (c.upTo c').length := List.length_pos_iff.mpr hterminated.ne_nil
    refine ⟨hoffset, hlength, hlimit, (padded_positionalSum hterminated).symm, ?_⟩
    intro hsum
    rw [hvalue, Nat.mod_eq_of_lt hsum]
  · intro value hvalue
    have hlength := length_encodeUnsigned_le_groupLimit (one_le_clampWidth maxBits) hvalue
    have hread := consumes_unsigned maxBits (terminated_encodeUnsigned value.toNat)
      (Nat.le_succ_of_le hlength)
    rw [positionalSum_encodeUnsigned, UInt64.ofNat_toNat] at hread
    exact ⟨hlength, hread.between⟩
  · intro c₁ c₁' value₁ c₂ c₂' value₂ hread₁ hread₂
    obtain ⟨_, hterminated₁, _⟩ := of_unsigned_eq_ok hread₁
    obtain ⟨_, hterminated₂, _⟩ := of_unsigned_eq_ok hread₂
    exact eq_or_eq_withZeros hterminated₁ hterminated₂

/-- The number 300 in six bytes, the most that a read of 32 bits takes. -/
theorem unsigned_padded_sixBytes :
    300 < 2 ^ (7 * 6) ∧ ReadsBetween (unsigned 32) [0xAC, 0x82, 0x80, 0x80, 0x80, 0x00] 300 :=
  ⟨by decide, (unsigned_padded 32).1 6 300 (by decide) (by decide) (by decide)⟩

end Bytestream.Varint
