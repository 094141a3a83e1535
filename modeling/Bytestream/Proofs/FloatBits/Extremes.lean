import Mathlib
import Bytestream.Proofs.FloatBits.Value

/-!
# The laws of the larger and the smaller operand

Of two numbers the larger operand is the one that stands later in the line of numbers, and the
smaller one is the other, bit for bit.  On numbers the two operations are therefore those of a
linear order, with all of its laws.  A pattern that stands for no number absorbs what stands behind
it, so two laws hold of all patterns: each operation is associative and idempotent.  Flipping the
signs turns the line around, and exchanges the two operations.
-/

namespace Bytestream.FloatFormat

variable {format : FloatFormat}

/-! ### Patterns that stand for no number -/

theorem max_of_isNaN_left {a : BitVec format.width} (ha : format.isNaN a = true)
    (b : BitVec format.width) : format.max a b = a := by
  rw [max, if_pos ha]

theorem max_of_isNaN_right {a b : BitVec format.width} (ha : format.isNaN a = false)
    (hb : format.isNaN b = true) : format.max a b = b := by
  rw [max, if_neg (by simp [ha]), if_pos hb]

theorem max_of_number {a b : BitVec format.width} (ha : format.isNaN a = false)
    (hb : format.isNaN b = false) :
    format.max a b =
      if format.signedMagnitude a = format.signedMagnitude b then
        if format.isNegative a then b else a
      else if format.signedMagnitude b < format.signedMagnitude a then a
      else b := by
  rw [max, if_neg (by simp [ha]), if_neg (by simp [hb])]

/-! ### Numbers -/

/-- The larger one of two numbers is the one that stands later in the line. -/
theorem max_eq_sup (x y : Number format) :
    format.max x.pattern y.pattern = (x ⊔ y).pattern := by
  rw [max_of_number x.isNumber y.isNumber, max_def_lt]
  rcases lt_trichotomy (format.signedMagnitude x.pattern) (format.signedMagnitude y.pattern)
    with hlt | heq | hgt
  · have hxy : x < y := (Number.lt_iff_signedMagnitude x y).mpr (.inl hlt)
    rw [if_neg hlt.ne, if_neg hlt.not_gt, if_pos hxy]
  · rw [if_pos heq]
    by_cases hxy : x < y
    · obtain hlt | ⟨_, hsign, _⟩ := (Number.lt_iff_signedMagnitude x y).mp hxy
      · exact absurd heq hlt.ne
      · rw [if_pos hsign, if_pos hxy]
    · rw [if_neg hxy]
      split_ifs with hsign
      · -- The other sign is negative too, or `x` would stand in front of `y`.
        have hother : format.isNegative y.pattern = true := by
          by_contra hpositive
          rw [Bool.not_eq_true] at hpositive
          exact hxy ((Number.lt_iff_signedMagnitude x y).mpr (.inr ⟨heq, hsign, hpositive⟩))
        rw [Number.eq_of_signedMagnitude_eq heq (hsign.trans hother.symm)]
      · rfl
  · have hxy : ¬x < y := by
      intro hxy
      obtain hlt | ⟨heq, _⟩ := (Number.lt_iff_signedMagnitude x y).mp hxy
      · exact absurd hlt hgt.not_gt
      · exact absurd heq hgt.ne'
    rw [if_neg hgt.ne', if_pos hgt, if_neg hxy]

theorem max_self (a : BitVec format.width) : format.max a a = a := by
  simp [max]

/-- The larger of three operands does not depend on which two are compared first. -/
theorem max_assoc (a b c : BitVec format.width) :
    format.max (format.max a b) c = format.max a (format.max b c) := by
  cases ha : format.isNaN a with
  | true => rw [max_of_isNaN_left ha, max_of_isNaN_left ha, max_of_isNaN_left ha]
  | false =>
      cases hb : format.isNaN b with
      | true => rw [max_of_isNaN_right ha hb, max_of_isNaN_left hb, max_of_isNaN_right ha hb]
      | false =>
          have hab : format.max a b = ((⟨a, ha⟩ : Number format) ⊔ ⟨b, hb⟩).pattern :=
            max_eq_sup ⟨a, ha⟩ ⟨b, hb⟩
          cases hc : format.isNaN c with
          | true =>
              rw [hab, max_of_isNaN_right (Number.isNumber _) hc, max_of_isNaN_right hb hc,
                max_of_isNaN_right ha hc]
          | false =>
              have hbc : format.max b c = ((⟨b, hb⟩ : Number format) ⊔ ⟨c, hc⟩).pattern :=
                max_eq_sup ⟨b, hb⟩ ⟨c, hc⟩
              rw [hab, hbc]
              have hleft := max_eq_sup ((⟨a, ha⟩ : Number format) ⊔ ⟨b, hb⟩) ⟨c, hc⟩
              have hright := max_eq_sup (⟨a, ha⟩ : Number format) (⟨b, hb⟩ ⊔ ⟨c, hc⟩)
              rw [hleft, hright, sup_assoc]

/-! ### Flipping the sign -/

/-- The pattern with the other sign. -/
def neg (format : FloatFormat) (a : BitVec format.width) : BitVec format.width :=
  a ^^^ BitVec.intMin format.width

@[simp] theorem neg_neg (a : BitVec format.width) : format.neg (format.neg a) = a := by
  rw [neg, neg, BitVec.xor_assoc, BitVec.xor_self, BitVec.xor_zero]

@[simp] theorem isNegative_neg (a : BitVec format.width) :
    format.isNegative (format.neg a) = !format.isNegative a := by
  rw [isNegative, neg, BitVec.msb_xor, BitVec.msb_intMin]
  simp [isNegative]

@[simp] theorem magnitude_neg (a : BitVec format.width) :
    format.magnitude (format.neg a) = format.magnitude a := by
  have hlow : (BitVec.intMin format.width).setWidth format.magnitudeBits = 0 := by
    have hdvd : 2 ^ format.magnitudeBits ∣ 2 ^ format.width := pow_dvd_pow 2 (Nat.le_succ _)
    apply BitVec.eq_of_toNat_eq
    simp [BitVec.toNat_intMin, Nat.mod_mod_of_dvd _ hdvd]
  rw [magnitude, neg, BitVec.setWidth_xor, hlow, magnitude]
  simp

@[simp] theorem isNaN_neg (a : BitVec format.width) :
    format.isNaN (format.neg a) = format.isNaN a := by
  rw [isNaN, magnitude_neg, isNaN]

@[simp] theorem signedMagnitude_neg (a : BitVec format.width) :
    format.signedMagnitude (format.neg a) = -format.signedMagnitude a := by
  rw [signedMagnitude, isNegative_neg, magnitude_neg, signedMagnitude]
  cases format.isNegative a <;> simp

/-- The smaller operand is the larger one behind flipped signs. -/
theorem min_eq_neg_max (a b : BitVec format.width) :
    format.min a b = format.neg (format.max (format.neg a) (format.neg b)) := by
  simp only [min, max, isNaN_neg, signedMagnitude_neg, isNegative_neg, neg_inj, neg_lt_neg_iff,
    apply_ite format.neg, neg_neg]
  cases format.isNegative a <;> simp

theorem min_of_isNaN_left {a : BitVec format.width} (ha : format.isNaN a = true)
    (b : BitVec format.width) : format.min a b = a := by
  rw [min_eq_neg_max, max_of_isNaN_left (by rw [isNaN_neg, ha]), neg_neg]

theorem min_of_isNaN_right {a b : BitVec format.width} (ha : format.isNaN a = false)
    (hb : format.isNaN b = true) : format.min a b = b := by
  rw [min_eq_neg_max, max_of_isNaN_right (by rw [isNaN_neg, ha]) (by rw [isNaN_neg, hb]), neg_neg]

theorem min_self (a : BitVec format.width) : format.min a a = a := by
  rw [min_eq_neg_max, max_self, neg_neg]

theorem min_assoc (a b c : BitVec format.width) :
    format.min (format.min a b) c = format.min a (format.min b c) := by
  simp only [min_eq_neg_max, neg_neg, max_assoc]

/-- The number with the other sign. -/
def Number.flip (x : Number format) : Number format where
  pattern := format.neg x.pattern
  isNumber := by rw [isNaN_neg, x.isNumber]

theorem Number.flip_antitone : Antitone (Number.flip : Number format → Number format) := by
  apply StrictAnti.antitone
  intro x y hlt
  rw [Number.lt_iff_signedMagnitude] at hlt ⊢
  simp only [Number.flip, signedMagnitude_neg, isNegative_neg]
  rcases hlt with hsize | ⟨hsize, hx, hy⟩
  · exact .inl (neg_lt_neg hsize)
  · exact .inr ⟨by rw [hsize], by simp [hy], by simp [hx]⟩

/-- The smaller one of two numbers is the one that stands earlier in the line. -/
theorem min_eq_inf (x y : Number format) :
    format.min x.pattern y.pattern = (x ⊓ y).pattern := by
  have hflip : ∀ z : Number format, z.flip.flip = z := fun z => Number.ext (neg_neg z.pattern)
  calc
    format.min x.pattern y.pattern = format.neg (format.max x.flip.pattern y.flip.pattern) :=
      min_eq_neg_max x.pattern y.pattern
    _ = (x.flip ⊔ y.flip).flip.pattern := by rw [max_eq_sup]; rfl
    _ = (x.flip.flip ⊓ y.flip.flip).pattern := by rw [Number.flip_antitone.map_max]
    _ = (x ⊓ y).pattern := by rw [hflip, hflip]

/-! ### All laws together -/

/-- The larger and the smaller operand form a lattice that is absorbed by patterns that stand for no
number.  These are told by their fields, and numbers are in one line, by their value, with the
negative zero in front of the positive one; no other two numbers have the same value.  A pattern
that stands for no number is the result itself, the first one if there are two.  Of two numbers the
result is the one later in the line, or earlier.  Hence both operations are associative and
idempotent on all patterns, and on numbers they are commutative, absorb each other and distribute
over each other.  The smaller operand is the larger one with all signs flipped. -/
theorem extremes_form_lattice (format : FloatFormat) :
    (∀ a : BitVec format.width, format.isNaN a = true ↔
      format.exponent a = format.fullExponent ∧ format.fraction a ≠ 0) ∧
    (∀ x y : Number format,
      (x < y ↔ format.value x.pattern < format.value y.pattern ∨
        (format.value x.pattern = format.value y.pattern ∧
          format.isNegative x.pattern = true ∧ format.isNegative y.pattern = false)) ∧
      (format.value x.pattern = format.value y.pattern →
        x = y ∨ format.value x.pattern = ((0 : ℚ) : WithTop ℚ))) ∧
    (∀ a b : BitVec format.width,
      (format.isNaN a = true → format.max a b = a ∧ format.min a b = a) ∧
      (format.isNaN a = false → format.isNaN b = true →
        format.max a b = b ∧ format.min a b = b)) ∧
    (∀ x y : Number format,
      format.max x.pattern y.pattern = (x ⊔ y).pattern ∧
        format.min x.pattern y.pattern = (x ⊓ y).pattern) ∧
    (∀ a b c : BitVec format.width,
      format.max (format.max a b) c = format.max a (format.max b c) ∧
        format.min (format.min a b) c = format.min a (format.min b c)) ∧
    (∀ a : BitVec format.width, format.max a a = a ∧ format.min a a = a) ∧
    (∀ x y : Number format,
      format.max x.pattern y.pattern = format.max y.pattern x.pattern ∧
        format.min x.pattern y.pattern = format.min y.pattern x.pattern) ∧
    (∀ x y : Number format,
      format.max x.pattern (format.min x.pattern y.pattern) = x.pattern ∧
        format.min x.pattern (format.max x.pattern y.pattern) = x.pattern) ∧
    (∀ x y z : Number format,
      format.max x.pattern (format.min y.pattern z.pattern) =
          format.min (format.max x.pattern y.pattern) (format.max x.pattern z.pattern) ∧
        format.min x.pattern (format.max y.pattern z.pattern) =
          format.max (format.min x.pattern y.pattern) (format.min x.pattern z.pattern)) ∧
    ∀ a b : BitVec format.width,
      format.min a b = format.neg (format.max (format.neg a) (format.neg b)) := by
  refine ⟨isNaN_iff, ?_, ?_, ?_, ?_, fun a => ⟨max_self a, min_self a⟩, ?_, ?_, ?_, min_eq_neg_max⟩
  · exact fun x y => ⟨Number.lt_iff x y, Number.eq_or_zero_of_value_eq⟩
  · intro a b
    exact ⟨fun ha => ⟨max_of_isNaN_left ha b, min_of_isNaN_left ha b⟩,
      fun ha hb => ⟨max_of_isNaN_right ha hb, min_of_isNaN_right ha hb⟩⟩
  · exact fun x y => ⟨max_eq_sup x y, min_eq_inf x y⟩
  · exact fun a b c => ⟨max_assoc a b c, min_assoc a b c⟩
  · intro x y
    rw [max_eq_sup, max_eq_sup, min_eq_inf, min_eq_inf, sup_comm, inf_comm]
    exact ⟨rfl, rfl⟩
  · intro x y
    rw [min_eq_inf, max_eq_sup, max_eq_sup, min_eq_inf, sup_inf_self, inf_sup_self]
    exact ⟨rfl, rfl⟩
  · intro x y z
    simp only [max_eq_sup, min_eq_inf]
    exact ⟨congrArg Number.pattern (sup_inf_left x y z),
      congrArg Number.pattern (inf_sup_left x y z)⟩

/-- A pattern that stands for no number keeps its sign and its fraction behind a number. -/
theorem extremes_keep_fraction :
    binary64.isNaN 0x8000000000000000 = false ∧ binary64.isNaN 0xFFF0000000000001 = true ∧
      binary64.max 0x8000000000000000 0xFFF0000000000001 = 0xFFF0000000000001 ∧
      binary64.min 0x8000000000000000 0xFFF0000000000001 = 0xFFF0000000000001 :=
  ⟨by decide, by decide,
    ((extremes_form_lattice binary64).2.2.1 0x8000000000000000 0xFFF0000000000001).2 (by decide)
      (by decide)⟩

end Bytestream.FloatFormat
