import Mathlib
import Bytestream.Proofs.Varint.Grammar

/-!
# The sign of a varint

The bytes of a varint write a number in two's complement that may be longer than a word.  The signed
reading agrees with it modulo the declared width in two ways.  If the groups stop short of the width,
the filled bits lie above all of them, and the word is the number itself.  If they reach the width,
nothing is filled, and what the sign of the last byte would take off is a multiple of the modulus.
-/

namespace Bytestream.Varint

theorem signSet_eq (last : UInt8) : signSet last = last.toNat.testBit 6 := by
  have hbit : (last &&& 0x40).toNat = (last.toNat.testBit 6).toNat * 2 ^ 6 := by
    rw [UInt8.toNat_and]
    exact Nat.and_two_pow last.toNat 6
  rw [signSet]
  cases htest : last.toNat.testBit 6 with
  | false =>
      have hzero : last &&& 0x40 = 0 := UInt8.toNat_inj.mp (by rw [hbit, htest]; rfl)
      rw [hzero]
      rfl
  | true =>
      apply bne_iff_ne.mpr
      intro hzero
      rw [hzero, htest] at hbit
      exact absurd hbit (by decide)

theorem signedSum_append_singleton (init : List UInt8) (last : UInt8) :
    signedSum (init ++ [last]) =
      positionalSum (init ++ [last]) - if signSet last then 128 ^ (init.length + 1) else 0 := by
  simp [signedSum, hasSign, signSet_eq]

theorem signedSum_bounds (bytes : List UInt8) :
    -(128 ^ bytes.length : Int) ≤ signedSum bytes ∧ signedSum bytes < 128 ^ bytes.length := by
  have hsum : (positionalSum bytes : Int) < 128 ^ bytes.length := by
    exact_mod_cast positionalSum_lt bytes
  have hpow : (0 : Int) < 128 ^ bytes.length := by positivity
  simp only [signedSum]
  split <;> omega

/-- The filled bits make up what a number below `2 ^ shift` lacks to a whole word. -/
theorem toNat_fillFrom {shift : Nat} (hshift : shift < 64) :
    (fillFrom shift).toNat = 2 ^ 64 - 2 ^ shift := by
  have hle : 2 ^ shift ≤ 2 ^ 64 := Nat.pow_le_pow_right Nat.two_pos (Nat.le_of_lt hshift)
  have hpos : 0 < 2 ^ shift := Nat.two_pow_pos shift
  have hsplit : (2 ^ 64 - 1) * 2 ^ shift = (2 ^ 64 - 2 ^ shift) + (2 ^ shift - 1) * 2 ^ 64 := by
    omega
  have hamount : (UInt64.ofNat shift).toNat % 64 = shift := by
    rw [UInt64.toNat_ofNat']
    omega
  rw [fillFrom, UInt64.toNat_shiftLeft, hamount, Nat.shiftLeft_eq]
  change (2 ^ 64 - 1) * 2 ^ shift % 2 ^ 64 = _
  rw [hsplit, Nat.add_mul_mod_self_right]
  exact Nat.mod_eq_of_lt (by omega)

/-- Filling above a number takes `2 ^ shift` off it, modulo the size of a word. -/
theorem toNat_or_fillFrom {word : UInt64} {shift : Nat} (hword : word.toNat < 2 ^ shift)
    (hshift : shift < 64) :
    ((word ||| fillFrom shift).toNat : Int) = word.toNat + 2 ^ 64 - 2 ^ shift := by
  have hle : 2 ^ shift ≤ 2 ^ 64 := Nat.pow_le_pow_right Nat.two_pos (Nat.le_of_lt hshift)
  have hfill : (fillFrom shift).toNat = 2 ^ shift * (2 ^ (64 - shift) - 1) := by
    rw [toNat_fillFrom hshift, Nat.mul_sub, ← pow_add, Nat.mul_one]
    congr 2
    omega
  rw [UInt64.toNat_or, Nat.or_comm, hfill, ← Nat.two_pow_add_eq_or_of_lt hword, ← hfill,
    toNat_fillFrom hshift, Nat.cast_add, Nat.cast_sub hle]
  push_cast
  ring

theorem toInt_toInt64 (word : UInt64) : word.toInt64.toInt = (word.toNat : Int).bmod (2 ^ 64) :=
  BitVec.toInt_eq_toNat_bmod word.toBitVec

/-- Read as signed, a word agrees with the number it holds modulo every power of two up to its
own size. -/
theorem toInt_toInt64_modEq (word : UInt64) {bits : Nat} (hbits : bits ≤ 64) :
    word.toInt64.toInt ≡ word.toNat [ZMOD 2 ^ bits] := by
  have hword : word.toInt64.toInt ≡ word.toNat [ZMOD 2 ^ 64] := by
    rw [toInt_toInt64]
    exact Int.bmod_emod
  exact hword.of_dvd (pow_dvd_pow 2 hbits)

/-- A signed word is the one number of its size that it agrees with. -/
theorem toInt_toInt64_eq {word : UInt64} {n : Int} (hword : word.toNat ≡ n [ZMOD 2 ^ 64])
    (hlow : -2 ^ 63 ≤ n) (hhigh : n < 2 ^ 63) : word.toInt64.toInt = n := by
  have hemod : (word.toNat : Int) % (2 ^ 64 : Nat) = n % (2 ^ 64 : Nat) := hword
  rw [toInt_toInt64, ← Int.emod_bmod, hemod, Int.emod_bmod]
  exact Int.bmod_eq_of_le_mul_two (by omega) (by omega)

/-- Groups that stop short of the width make the number itself. -/
theorem toInt_extended_of_short {init : List UInt8} {last : UInt8} {bits : Nat} (hbits : bits ≤ 64)
    (hshort : 7 * (init.length + 1) < bits) :
    ((gathered init last).extended bits).toInt64.toInt = signedSum (init ++ [last]) := by
  have hshift : 7 * (init.length + 1) < 64 := Nat.lt_of_lt_of_le hshort hbits
  have hpow : 128 ^ (init.length + 1) ≤ 2 ^ 63 := by
    rw [pow_128]
    exact Nat.pow_le_pow_right Nat.two_pos (Nat.le_of_lt_succ hshift)
  have hlt : positionalSum (init ++ [last]) < 128 ^ (init.length + 1) := by
    simpa using positionalSum_lt (init ++ [last])
  have hword : (gathered init last).word.toNat = positionalSum (init ++ [last]) :=
    UInt64.toNat_ofNat_of_lt' (Nat.lt_of_lt_of_le hlt (Nat.le_trans hpow (by decide)))
  have hpow' : (128 ^ (init.length + 1) : Int) ≤ 2 ^ 63 := by exact_mod_cast hpow
  have hbounds := signedSum_bounds (init ++ [last])
  rw [List.length_append, List.length_singleton] at hbounds
  refine toInt_toInt64_eq ?_ (by omega) (by omega)
  rw [signedSum_append_singleton, Groups.extended]
  by_cases hsign : signSet last = true
  · have hlow : (gathered init last).word.toNat < 2 ^ (7 * (init.length + 1)) := by
      rw [hword, ← pow_128]
      exact hlt
    have hfilled := toNat_or_fillFrom hlow hshift
    have hwidth : (gathered init last).width = 7 * (init.length + 1) := rfl
    have hlast : (gathered init last).last = last := rfl
    rw [hlast, hwidth, if_pos ⟨hshort, hsign⟩, if_pos hsign, hfilled, hword]
    rw [← intPow_128, add_sub_right_comm]
    exact Int.add_modEq_right
  · have hlast : (gathered init last).last = last := rfl
    rw [hlast, if_neg (fun h => hsign h.2), if_neg hsign, hword, sub_zero]

/-- Groups that reach the width are left as they are. -/
theorem extended_of_long {init : List UInt8} {last : UInt8} {bits : Nat}
    (hlong : bits ≤ 7 * (init.length + 1)) :
    (gathered init last).extended bits = (gathered init last).word := by
  rw [Groups.extended]
  exact if_neg fun hfill => Nat.not_lt_of_le hlong hfill.1

theorem toNat_word_gathered_modEq (init : List UInt8) (last : UInt8) {bits : Nat}
    (hbits : bits ≤ 64) :
    (gathered init last).word.toNat ≡ positionalSum (init ++ [last]) [MOD 2 ^ bits] := by
  have hword : (gathered init last).word.toNat ≡ positionalSum (init ++ [last]) [MOD 2 ^ 64] := by
    rw [gathered, UInt64.toNat_ofNat']
    exact Nat.mod_modEq _ _
  exact hword.of_dvd (pow_dvd_pow 2 hbits)

/-- What the sign takes off is a multiple of every power of two up to the bits of the groups. -/
theorem signedSum_modEq (init : List UInt8) (last : UInt8) {bits : Nat}
    (hbits : bits ≤ 7 * (init.length + 1)) :
    signedSum (init ++ [last]) ≡ positionalSum (init ++ [last]) [ZMOD 2 ^ bits] := by
  have hdvd : (2 : Int) ^ bits ∣ 128 ^ (init.length + 1) :=
    intPow_128 _ ▸ pow_dvd_pow 2 hbits
  rw [signedSum_append_singleton]
  apply Int.ModEq.symm
  apply Int.modEq_iff_dvd.mpr
  split
  · simpa using hdvd
  · simp

/-- The signed reading agrees with the number that the bytes write, modulo the declared width. -/
theorem toInt_extended_modEq (init : List UInt8) (last : UInt8) {bits : Nat} (hbits : bits ≤ 64) :
    ((gathered init last).extended bits).toInt64.toInt ≡ signedSum (init ++ [last])
      [ZMOD 2 ^ bits] := by
  by_cases hshort : 7 * (init.length + 1) < bits
  · rw [toInt_extended_of_short hbits hshort]
  · have hlong : bits ≤ 7 * (init.length + 1) := Nat.le_of_not_lt hshort
    have hword : ((gathered init last).word.toNat : Int) ≡ positionalSum (init ++ [last])
        [ZMOD 2 ^ bits] := by
      exact_mod_cast toNat_word_gathered_modEq init last hbits
    rw [extended_of_long hlong]
    exact ((toInt_toInt64_modEq _ hbits).trans hword).trans (signedSum_modEq init last hlong).symm

theorem one_le_clampWidth (maxBits : Nat) : 1 ≤ clampWidth maxBits :=
  Nat.le_max_left 1 _

theorem clampWidth_le (maxBits : Nat) : clampWidth maxBits ≤ 64 :=
  max_le (by decide) (Nat.min_le_right maxBits 64)

theorem signed_apply (maxBits : Nat) (c : Cursor) :
    signed maxBits c =
      match groups (clampWidth maxBits) c with
      | .ok g c' => .ok (g.extended (clampWidth maxBits)).toInt64 c'
      | .error e c' => .error e c' := by
  simp only [signed, bind, EStateM.bind]
  rcases groups (clampWidth maxBits) c with ⟨g, c'⟩ | ⟨e, c'⟩
  · rfl
  · rfl

/-- The signed reading fails where the unsigned one does, and in the same way.  Otherwise both take
the same bytes, which are a varint.  The value is then the number that these write modulo the declared
width, and exactly this number if the groups stop short of the width; if they do not, it is the
unsigned value bit for bit.  The declared width is clamped to one bit at least and a word at most. -/
theorem signed_agrees (maxBits : Nat) (c : Cursor) :
    match unsigned maxBits c, signed maxBits c with
    | .error e c₁, .error e' c₂ => e' = e ∧ c₁ = c ∧ c₂ = c
    | .ok word c₁, .ok value c₂ =>
        c₂ = c₁ ∧ c₁.data = c.data ∧ c₁.offset = c.offset + (c.upTo c₁).length ∧
        Terminated (c.upTo c₁) ∧
        value.toInt ≡ signedSum (c.upTo c₁) [ZMOD 2 ^ max 1 (min maxBits 64)] ∧
        (7 * (c.upTo c₁).length < max 1 (min maxBits 64) →
          value.toInt = signedSum (c.upTo c₁)) ∧
        (max 1 (min maxBits 64) ≤ 7 * (c.upTo c₁).length → value.toUInt64 = word)
    | _, _ => False := by
  rw [unsigned_apply, signed_apply]
  rcases groups_cases (clampWidth maxBits) c with
    ⟨_, hgroups⟩ | ⟨_, _, hgroups⟩ | ⟨hend, last, _, _, hbytes, hgroups⟩
  · rw [hgroups]
    exact ⟨rfl, rfl, rfl⟩
  · rw [hgroups]
    exact ⟨rfl, rfl, rfl⟩
  · rw [hgroups]
    refine ⟨rfl, rfl, ?_⟩
    rw [upTo_advance_continuations hend]
    refine ⟨?_, terminated_upcoming hend, ?_⟩
    · rw [length_upcoming hend]
      rfl
    · rw [hbytes, List.length_append, List.length_singleton]
      refine ⟨toInt_extended_modEq _ last (clampWidth_le maxBits),
        toInt_extended_of_short (clampWidth_le maxBits), ?_⟩
      intro hlong
      have hreaches : clampWidth maxBits ≤ 7 * ((c.unread.takeWhile continues).length + 1) := hlong
      rw [extended_of_long hreaches]
      rfl

end Bytestream.Varint
