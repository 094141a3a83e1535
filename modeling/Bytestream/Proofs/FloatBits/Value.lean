import Mathlib
import Bytestream.FloatBits

/-!
# The numbers that patterns stand for

A pattern stands for an infinity if its exponent field is full and its fraction is zero, for no
number if its exponent field is full and its fraction is not zero, and for a finite number in every
other case.  A finite number is its significand, an integer, at the power of two of its last place,
and the smallest exponent is shared by the numbers with and without a leading one.

Every finite number is a multiple of the smallest one above zero.  As a multiple of it, a number
grows with the bits below the sign read as one integer, so the numbers are ordered as the signed
magnitudes are.  Only the two zeros have one value between them; the positive one is put above the
other, and then the patterns of numbers are in one line.
-/

namespace Bytestream.FloatFormat

variable (format : FloatFormat)

/-! ### Fields -/

/-- The exponent field. -/
def exponent (a : BitVec format.width) : Nat :=
  format.magnitude a / 2 ^ format.fractionBits

/-- The fraction field. -/
def fraction (a : BitVec format.width) : Nat :=
  format.magnitude a % 2 ^ format.fractionBits

/-- The exponent field with every bit set. -/
def fullExponent : Nat :=
  2 ^ format.exponentBits - 1

/-- What the exponent field is too large by. -/
def bias : Int :=
  2 ^ (format.exponentBits - 1) - 1

/-- The fraction, and the one in front of it that is not stored.  Numbers with the exponent field
zero have none. -/
def significand (a : BitVec format.width) : Nat :=
  if format.exponent a = 0 then format.fraction a
  else 2 ^ format.fractionBits + format.fraction a

/-- The power of two that the last bit of the significand counts for. -/
def lastPlace (a : BitVec format.width) : Int :=
  Max.max (format.exponent a : Int) 1 - format.bias - format.fractionBits

/-- The number that the pattern stands for, if it stands for one. -/
def value (a : BitVec format.width) : WithBot (WithTop ℚ) :=
  if format.exponent a = format.fullExponent then
    if format.isNegative a then ⊥ else ⊤
  else
    let size : ℚ := format.significand a * 2 ^ format.lastPlace a
    ((if format.isNegative a then -size else size : ℚ) : WithTop ℚ)

variable {format}

theorem two_pow_mul_exponent_add_fraction (a : BitVec format.width) :
    2 ^ format.fractionBits * format.exponent a + format.fraction a = format.magnitude a :=
  Nat.div_add_mod (format.magnitude a) (2 ^ format.fractionBits)

theorem fraction_lt (a : BitVec format.width) : format.fraction a < 2 ^ format.fractionBits :=
  Nat.mod_lt _ (Nat.two_pow_pos _)

theorem exponent_le_fullExponent (a : BitVec format.width) :
    format.exponent a ≤ format.fullExponent := by
  have hmagnitude : format.magnitude a < 2 ^ (format.exponentBits + format.fractionBits) :=
    (a.setWidth format.magnitudeBits).isLt
  rw [Nat.pow_add] at hmagnitude
  have hexponent : format.exponent a < 2 ^ format.exponentBits :=
    Nat.div_lt_of_lt_mul (Nat.mul_comm _ _ ▸ hmagnitude)
  rw [fullExponent]
  omega

theorem fullExponent_pos : 0 < format.fullExponent := by
  have hpos := Nat.one_lt_two_pow format.exponentBits_pos.ne'
  rw [fullExponent]
  omega

theorem infinity_eq : format.infinity = 2 ^ format.fractionBits * format.fullExponent := by
  rw [infinity, BitVec.toNat_allOnes, Nat.shiftLeft_eq, Nat.mul_comm, fullExponent]

/-- A pattern stands for no number exactly if its exponent field is full and its fraction is not
zero. -/
theorem isNaN_iff (a : BitVec format.width) :
    format.isNaN a = true ↔ format.exponent a = format.fullExponent ∧ format.fraction a ≠ 0 := by
  have hfraction := fraction_lt a
  have hexponent := exponent_le_fullExponent a
  rw [isNaN, decide_eq_true_iff, infinity_eq, ← two_pow_mul_exponent_add_fraction a]
  constructor
  · intro hlt
    have hfull : format.exponent a = format.fullExponent := by
      by_contra hne
      have hstep := Nat.mul_le_mul_left (2 ^ format.fractionBits)
        (show format.exponent a + 1 ≤ format.fullExponent by omega)
      rw [Nat.mul_succ] at hstep
      omega
    rw [hfull] at hlt
    exact ⟨hfull, by omega⟩
  · rintro ⟨hfull, hzero⟩
    rw [hfull]
    omega

/-- A pattern is its sign and the bits below it. -/
theorem eq_of_magnitude_eq {a b : BitVec format.width}
    (hmagnitude : format.magnitude a = format.magnitude b)
    (hsign : format.isNegative a = format.isNegative b) : a = b := by
  have hbits : a.setWidth format.magnitudeBits = b.setWidth format.magnitudeBits :=
    BitVec.eq_of_toNat_eq hmagnitude
  have hmsb : a.msb = b.msb := hsign
  rw [← BitVec.cons_msb_setWidth a, ← BitVec.cons_msb_setWidth b, hbits, hmsb]

/-! ### Multiples of the smallest number above zero -/

/-- The size of a finite number as a multiple of the smallest one above zero. -/
def multiple (format : FloatFormat) (a : BitVec format.width) : Nat :=
  format.significand a * 2 ^ (format.exponent a - 1)

theorem multiple_lt_of_exponent (a : BitVec format.width) :
    format.multiple a < 2 ^ format.fractionBits * 2 ^ format.exponent a := by
  have hfraction := fraction_lt a
  rw [multiple, significand]
  by_cases hzero : format.exponent a = 0
  · simpa [hzero] using hfraction
  · obtain ⟨e, he⟩ := Nat.exists_eq_succ_of_ne_zero hzero
    rw [if_neg hzero, he, Nat.succ_sub_one, Nat.pow_succ, Nat.mul_comm (2 ^ e) 2, ← Nat.mul_assoc]
    exact Nat.mul_lt_mul_of_pos_right (by omega) (Nat.two_pow_pos e)

theorem le_multiple_of_exponent {a : BitVec format.width} {e : Nat}
    (he : e < format.exponent a) : 2 ^ format.fractionBits * 2 ^ e ≤ format.multiple a := by
  rw [multiple, significand, if_neg (Nat.ne_zero_of_lt he)]
  exact Nat.mul_le_mul (Nat.le_add_right _ _) (Nat.pow_le_pow_right (by decide) (by omega))

/-- Sizes grow with the bits below the sign. -/
theorem multiple_lt {a b : BitVec format.width}
    (hlt : format.magnitude a < format.magnitude b) : format.multiple a < format.multiple b := by
  have ha := two_pow_mul_exponent_add_fraction a
  have hb := two_pow_mul_exponent_add_fraction b
  have hle : format.exponent a ≤ format.exponent b := Nat.div_le_div_right hlt.le
  rcases hle.lt_or_eq with hexponent | hexponent
  · exact (multiple_lt_of_exponent a).trans_le (le_multiple_of_exponent hexponent)
  · have hfraction : format.fraction a < format.fraction b := by
      rw [hexponent] at ha
      omega
    rw [multiple, multiple, significand, significand, hexponent]
    apply Nat.mul_lt_mul_of_pos_right _ (Nat.two_pow_pos _)
    split_ifs <;> omega

theorem multiple_pos {a : BitVec format.width} (hpos : 0 < format.magnitude a) :
    0 < format.multiple a := by
  have hsum := two_pow_mul_exponent_add_fraction a
  rw [multiple]
  apply Nat.mul_pos _ (Nat.two_pow_pos _)
  rw [significand]
  by_cases hzero : format.exponent a = 0
  · rw [hzero, Nat.mul_zero] at hsum
    rw [if_pos hzero]
    omega
  · rw [if_neg hzero]
    exact Nat.add_pos_left (Nat.two_pow_pos _) _

/-- The multiple with the sign of the number. -/
def signedMultiple (format : FloatFormat) (a : BitVec format.width) : Int :=
  if format.isNegative a then -(format.multiple a : Int) else format.multiple a

theorem signedMultiple_lt {a b : BitVec format.width}
    (hlt : format.signedMagnitude a < format.signedMagnitude b) :
    format.signedMultiple a < format.signedMultiple b := by
  rw [signedMagnitude, signedMagnitude] at hlt
  rw [signedMultiple, signedMultiple]
  cases ha : format.isNegative a <;> cases hb : format.isNegative b <;>
    simp only [ha, hb, if_true, Bool.false_eq_true, if_false] at hlt ⊢
  -- Both are positive.
  · have hmultiple : format.multiple a < format.multiple b := multiple_lt (by omega)
    omega
  -- A positive number is not below a negative one.
  · omega
  -- A negative number is below a positive one, and not both of them are zero.
  · rcases Nat.eq_zero_or_pos (format.magnitude a) with hzero | hpos
    · have hmultiple : 0 < format.multiple b := multiple_pos (by omega)
      omega
    · have hmultiple : 0 < format.multiple a := multiple_pos hpos
      omega
  -- Both are negative.
  · have hmultiple : format.multiple b < format.multiple a := multiple_lt (by omega)
    omega

/-! ### Values -/

/-- The smallest number above zero. -/
def smallest (format : FloatFormat) : ℚ :=
  2 ^ (1 - format.bias - format.fractionBits)

theorem smallest_pos : 0 < format.smallest :=
  zpow_pos (by norm_num) _

theorem significand_mul_lastPlace (a : BitVec format.width) :
    (format.significand a : ℚ) * 2 ^ format.lastPlace a = format.multiple a * format.smallest := by
  have hplace : format.lastPlace a =
      ((format.exponent a - 1 : Nat) : Int) + (1 - format.bias - format.fractionBits) := by
    rw [lastPlace]
    omega
  rw [hplace, zpow_add₀ (by norm_num), zpow_natCast, multiple, smallest]
  push_cast
  ring

theorem value_of_finite {a : BitVec format.width}
    (hfinite : format.exponent a ≠ format.fullExponent) :
    format.value a = ((format.signedMultiple a * format.smallest : ℚ) : WithTop ℚ) := by
  rw [value, if_neg hfinite, significand_mul_lastPlace, signedMultiple]
  cases format.isNegative a <;> simp

/-- A number with a full exponent field has the bits of an infinity below its sign. -/
theorem magnitude_eq_infinity {a : BitVec format.width} (hnumber : format.isNaN a = false)
    (hfull : format.exponent a = format.fullExponent) : format.magnitude a = format.infinity := by
  have hfraction : format.fraction a = 0 := by
    by_contra hne
    rw [(isNaN_iff a).mpr ⟨hfull, hne⟩] at hnumber
    cases hnumber
  rw [← two_pow_mul_exponent_add_fraction a, hfull, hfraction, infinity_eq, Nat.add_zero]

theorem natAbs_signedMagnitude_le {a : BitVec format.width} (hnumber : format.isNaN a = false) :
    (format.signedMagnitude a).natAbs ≤ format.infinity := by
  have hle : format.magnitude a ≤ format.infinity := by
    simpa [isNaN] using hnumber
  rw [signedMagnitude]
  split <;> simpa using hle

/-- The infinities are at the ends of the signed magnitudes and of the values. -/
theorem value_of_infinite {a : BitVec format.width} (hnumber : format.isNaN a = false)
    (hfull : format.exponent a = format.fullExponent) :
    (format.signedMagnitude a = -(format.infinity : Int) ∧ format.value a = ⊥) ∨
      (format.signedMagnitude a = format.infinity ∧ format.value a = ⊤) := by
  rw [signedMagnitude, magnitude_eq_infinity hnumber hfull, value, if_pos hfull]
  cases format.isNegative a
  · exact .inr ⟨rfl, rfl⟩
  · exact .inl ⟨rfl, rfl⟩

theorem value_of_zero {a : BitVec format.width} (hzero : format.magnitude a = 0) :
    format.value a = ((0 : ℚ) : WithTop ℚ) := by
  have hexponent : format.exponent a = 0 := by rw [exponent, hzero, Nat.zero_div]
  have hfraction : format.fraction a = 0 := by rw [fraction, hzero, Nat.zero_mod]
  have hmultiple : format.signedMultiple a = 0 := by
    simp [signedMultiple, multiple, significand, hexponent, hfraction]
  rw [value_of_finite (hexponent ▸ fullExponent_pos.ne), hmultiple, Int.cast_zero, zero_mul]

/-- The values of numbers grow with their signed magnitudes. -/
theorem value_lt {a b : BitVec format.width} (ha : format.isNaN a = false)
    (hb : format.isNaN b = false) (hlt : format.signedMagnitude a < format.signedMagnitude b) :
    format.value a < format.value b := by
  have hlow := natAbs_signedMagnitude_le ha
  have hhigh := natAbs_signedMagnitude_le hb
  by_cases hafull : format.exponent a = format.fullExponent
  · rcases value_of_infinite ha hafull with ⟨hasize, havalue⟩ | ⟨hasize, havalue⟩
    · by_cases hbfull : format.exponent b = format.fullExponent
      · rcases value_of_infinite hb hbfull with ⟨hbsize, hbvalue⟩ | ⟨hbsize, hbvalue⟩
        · omega
        · rw [havalue, hbvalue]
          exact bot_lt_top
      · rw [havalue, value_of_finite hbfull]
        exact WithBot.bot_lt_coe _
    · omega
  · by_cases hbfull : format.exponent b = format.fullExponent
    · rcases value_of_infinite hb hbfull with ⟨hbsize, hbvalue⟩ | ⟨hbsize, hbvalue⟩
      · omega
      · rw [value_of_finite hafull, hbvalue]
        exact WithBot.coe_lt_coe.mpr (WithTop.coe_lt_top _)
    · rw [value_of_finite hafull, value_of_finite hbfull, WithBot.coe_lt_coe, WithTop.coe_lt_coe]
      exact mul_lt_mul_of_pos_right (Int.cast_lt.mpr (signedMultiple_lt hlt)) smallest_pos

/-! ### The line of numbers -/

/-- A pattern that stands for a number, finite or not. -/
@[ext]
structure Number (format : FloatFormat) where
  pattern : BitVec format.width
  isNumber : format.isNaN pattern = false

namespace Number

theorem eq_of_signedMagnitude_eq {x y : Number format}
    (hsize : format.signedMagnitude x.pattern = format.signedMagnitude y.pattern)
    (hsign : format.isNegative x.pattern = format.isNegative y.pattern) : x = y := by
  rw [signedMagnitude, signedMagnitude, hsign] at hsize
  apply Number.ext (eq_of_magnitude_eq _ hsign)
  split at hsize <;> omega

/-- Only the two zeros have one signed magnitude between them. -/
theorem eq_or_zero_of_signedMagnitude_eq {x y : Number format}
    (hsize : format.signedMagnitude x.pattern = format.signedMagnitude y.pattern) :
    x = y ∨ (format.magnitude x.pattern = 0 ∧ format.magnitude y.pattern = 0) := by
  by_cases hsign : format.isNegative x.pattern = format.isNegative y.pattern
  · exact .inl (eq_of_signedMagnitude_eq hsize hsign)
  · rw [signedMagnitude, signedMagnitude] at hsize
    cases hx : format.isNegative x.pattern <;> cases hy : format.isNegative y.pattern <;>
      simp only [hx, hy, not_true_eq_false, if_true, Bool.false_eq_true, if_false] at hsize hsign
    · exact .inr (by omega)
    · exact .inr (by omega)

theorem value_eq {x y : Number format}
    (hsize : format.signedMagnitude x.pattern = format.signedMagnitude y.pattern) :
    format.value x.pattern = format.value y.pattern := by
  rcases eq_or_zero_of_signedMagnitude_eq hsize with rfl | ⟨hx, hy⟩
  · rfl
  · rw [value_of_zero hx, value_of_zero hy]

/-- Comparing values is comparing signed magnitudes. -/
theorem value_lt_iff (x y : Number format) :
    format.value x.pattern < format.value y.pattern ↔
      format.signedMagnitude x.pattern < format.signedMagnitude y.pattern := by
  constructor
  · intro hvalue
    rcases lt_trichotomy (format.signedMagnitude x.pattern) (format.signedMagnitude y.pattern)
      with hlt | heq | hgt
    · exact hlt
    · exact absurd hvalue (value_eq heq).not_lt
    · exact absurd hvalue (value_lt y.isNumber x.isNumber hgt).not_gt
  · exact value_lt x.isNumber y.isNumber

theorem value_eq_iff (x y : Number format) :
    format.value x.pattern = format.value y.pattern ↔
      format.signedMagnitude x.pattern = format.signedMagnitude y.pattern := by
  constructor
  · intro hvalue
    have hnot := mt (value_lt_iff x y).mpr hvalue.not_lt
    have hnot' := mt (value_lt_iff y x).mpr hvalue.not_gt
    omega
  · exact value_eq

/-- The place of a number in the line: its value, and of two zeros the negative one first. -/
def place (x : Number format) : WithBot (WithTop ℚ) ×ₗ Bool :=
  toLex (format.value x.pattern, !format.isNegative x.pattern)

theorem place_injective :
    Function.Injective (place : Number format → WithBot (WithTop ℚ) ×ₗ Bool) := by
  intro x y hplace
  have hpair : (format.value x.pattern, !format.isNegative x.pattern) =
      (format.value y.pattern, !format.isNegative y.pattern) := hplace
  rw [Prod.mk.injEq, Bool.not_inj_iff] at hpair
  exact eq_of_signedMagnitude_eq ((value_eq_iff x y).mp hpair.1) hpair.2

instance : LinearOrder (Number format) :=
  LinearOrder.lift' place place_injective

theorem lt_iff (x y : Number format) :
    x < y ↔ format.value x.pattern < format.value y.pattern ∨
      (format.value x.pattern = format.value y.pattern ∧
        format.isNegative x.pattern = true ∧ format.isNegative y.pattern = false) := by
  have hplace : x < y ↔ format.value x.pattern < format.value y.pattern ∨
      (format.value x.pattern = format.value y.pattern ∧
        (!format.isNegative x.pattern) < (!format.isNegative y.pattern)) :=
    Prod.Lex.toLex_lt_toLex
  rw [hplace]
  cases format.isNegative x.pattern <;> cases format.isNegative y.pattern <;> simp

theorem lt_iff_signedMagnitude (x y : Number format) :
    x < y ↔ format.signedMagnitude x.pattern < format.signedMagnitude y.pattern ∨
      (format.signedMagnitude x.pattern = format.signedMagnitude y.pattern ∧
        format.isNegative x.pattern = true ∧ format.isNegative y.pattern = false) := by
  rw [lt_iff, value_lt_iff, value_eq_iff]

/-- Different numbers of one value are zeros. -/
theorem eq_or_zero_of_value_eq {x y : Number format}
    (hvalue : format.value x.pattern = format.value y.pattern) :
    x = y ∨ format.value x.pattern = ((0 : ℚ) : WithTop ℚ) := by
  rcases eq_or_zero_of_signedMagnitude_eq ((value_eq_iff x y).mp hvalue) with heq | ⟨hzero, _⟩
  · exact .inl heq
  · exact .inr (value_of_zero hzero)

end Number

example : binary64.value 0x3FF8000000000000 = ((3 / 2 : ℚ) : WithTop ℚ) := by decide +kernel

end Bytestream.FloatFormat
