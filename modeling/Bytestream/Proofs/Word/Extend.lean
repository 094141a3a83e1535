import Mathlib
import Bytestream.Word.Extend

/-!
# Extending the sign of a narrow word

A narrow word can be put into a wider one in two ways that keep its sign: by repeating its highest
bit, and by filling with zeros and setting the bits above it afterwards if the highest bit is set.
The two ways come to the same.

The second way works in place, also on a word whose high bits are not clear.  It can only set bits,
so it is sign extension if the sign is set or nothing stands above the low bits, and leaves the word
alone otherwise.  `getLsbD_extendSign` gives every bit of the result, and the laws that hold of all
words are read off it: extension is idempotent, and extensions from different places commute.
-/

namespace Bytestream.Word

variable {narrow width : Nat}

theorem getLsbD_onesFrom (low : Nat) {width i : Nat} (hi : i < width) :
    (onesFrom low : BitVec width).getLsbD i = decide (low ≤ i) := by
  rw [onesFrom, BitVec.getLsbD_shiftLeft, BitVec.getLsbD_allOnes]
  by_cases hlow : low ≤ i
  · simp [hi, hlow, Nat.not_lt_of_le hlow, Nat.lt_of_le_of_lt (Nat.sub_le i low) hi]
  · simp [hlow, Nat.lt_of_not_le hlow]

/-- Extension sets the bits above a sign that is set, and no others. -/
theorem getLsbD_extendSign (narrow : Nat) {i : Nat} (x : BitVec width) (hi : i < width) :
    (extendSign narrow x).getLsbD i =
      (x.getLsbD i || (x.getLsbD (narrow - 1) && decide (narrow ≤ i))) := by
  rw [extendSign]
  split
  case isTrue hsign => rw [BitVec.getLsbD_or, getLsbD_onesFrom narrow hi, hsign, Bool.true_and]
  case isFalse hsign => rw [Bool.eq_false_of_not_eq_true hsign, Bool.false_and, Bool.or_false]

/-- Extension in place repeats the sign of the narrow word, if zeros stand above it. -/
theorem extendSign_setWidth (hpos : 0 < narrow) (hle : narrow ≤ width)
    (x : BitVec narrow) : extendSign narrow (x.setWidth width) = x.signExtend width := by
  have hsign : (x.setWidth width).getLsbD (narrow - 1) = x.msb := by
    rw [BitVec.getLsbD_setWidth, BitVec.msb_eq_getLsbD_last]
    simp [show narrow - 1 < width by omega]
  apply BitVec.eq_of_getLsbD_eq
  intro i hi
  rw [getLsbD_extendSign narrow _ hi, hsign, BitVec.getLsbD_setWidth, BitVec.getLsbD_signExtend]
  rcases Nat.lt_or_ge i narrow with hbelow | habove
  · simp [hi, hbelow, Nat.not_le_of_lt hbelow]
  · simp [hi, habove, Nat.not_lt_of_le habove]

/-! ### Words with anything in their high bits -/

/-- The sign is found by a mask of one bit. -/
theorem extendSign_eq_ite_and (hpos : 0 < narrow) (hle : narrow ≤ width) (x : BitVec width) :
    extendSign narrow x =
      if x &&& BitVec.twoPow width (narrow - 1) = 0 then x else x ||| onesFrom narrow := by
  have hplace : narrow - 1 < width := by omega
  have hbit : BitVec.twoPow width (narrow - 1) ≠ 0 := by
    intro hzero
    have hclear := congrArg (fun y : BitVec width => y.getLsbD (narrow - 1)) hzero
    simp [hplace] at hclear
  rw [extendSign, BitVec.and_twoPow]
  cases x.getLsbD (narrow - 1) with
  | true => rw [if_pos rfl, if_pos rfl, if_neg hbit]
  | false => simp

theorem getLsbD_extendSign_of_lt {i : Nat} (hlow : i < narrow) (x : BitVec width) :
    (extendSign narrow x).getLsbD i = x.getLsbD i := by
  rcases Nat.lt_or_ge i width with hi | hi
  · simp [getLsbD_extendSign narrow x hi, Nat.not_le_of_lt hlow]
  · rw [BitVec.getLsbD_of_ge _ i hi, BitVec.getLsbD_of_ge _ i hi]

theorem setWidth_extendSign (narrow : Nat) (x : BitVec width) :
    (extendSign narrow x).setWidth narrow = x.setWidth narrow := by
  apply BitVec.eq_of_getLsbD_eq
  intro i hi
  rw [BitVec.getLsbD_setWidth, BitVec.getLsbD_setWidth, getLsbD_extendSign_of_lt hi]

/-- No bit is cleared. -/
theorem and_extendSign (narrow : Nat) (x : BitVec width) : x &&& extendSign narrow x = x := by
  apply BitVec.eq_of_getLsbD_eq
  intro i hi
  rw [BitVec.getLsbD_and, getLsbD_extendSign narrow x hi]
  cases x.getLsbD i <;> rfl

theorem extendSign_extendSign (hpos : 0 < narrow) (x : BitVec width) :
    extendSign narrow (extendSign narrow x) = extendSign narrow x := by
  have hsign := getLsbD_extendSign_of_lt (Nat.sub_lt hpos Nat.one_pos) x
  apply BitVec.eq_of_getLsbD_eq
  intro i hi
  rw [getLsbD_extendSign narrow _ hi, hsign, getLsbD_extendSign narrow x hi, Bool.or_assoc,
    Bool.or_self]

/-- The wider of two extensions sees the sign that the narrower one has spread, and the narrower one
sees nothing of the wider. -/
theorem extendSign_comm_of_lt {wider : Nat} (hlt : narrow < wider) (hpos : 0 < narrow)
    (hle : wider ≤ width) (x : BitVec width) :
    extendSign wider (extendSign narrow x) = extendSign narrow (extendSign wider x) := by
  have hplace : wider - 1 < width := by omega
  have hsign : (extendSign wider x).getLsbD (narrow - 1) = x.getLsbD (narrow - 1) :=
    getLsbD_extendSign_of_lt (by omega) x
  have hspread : (extendSign narrow x).getLsbD (wider - 1) =
      (x.getLsbD (wider - 1) || x.getLsbD (narrow - 1)) := by
    simp [getLsbD_extendSign narrow x hplace, Nat.le_sub_one_of_lt hlt]
  apply BitVec.eq_of_getLsbD_eq
  intro i hi
  rw [getLsbD_extendSign wider _ hi, hspread, getLsbD_extendSign narrow x hi,
    getLsbD_extendSign narrow _ hi, hsign, getLsbD_extendSign wider x hi]
  rcases Nat.lt_or_ge i wider with hbelow | habove
  · simp [Nat.not_le_of_lt hbelow]
  · -- Both fill from here on, so it counts whether either sign is set.
    rw [decide_eq_true habove, decide_eq_true (hlt.le.trans habove)]
    cases x.getLsbD i <;> cases x.getLsbD (narrow - 1) <;> cases x.getLsbD (wider - 1) <;> rfl

theorem extendSign_comm {other : Nat} (hpos : 0 < narrow) (hle : narrow ≤ width)
    (hpos' : 0 < other) (hle' : other ≤ width) (x : BitVec width) :
    extendSign narrow (extendSign other x) = extendSign other (extendSign narrow x) := by
  rcases Nat.lt_trichotomy narrow other with hlt | rfl | hlt
  · exact (extendSign_comm_of_lt hlt hpos hle' x).symm
  · rfl
  · exact extendSign_comm_of_lt hlt hpos' hle x

/-! ### The signed number in the low bits -/

/-- A word that fits in its low bits is what they hold. -/
theorem setWidth_setWidth_of_lt {x : BitVec width} (hfits : x.toNat < 2 ^ narrow) :
    (x.setWidth narrow).setWidth width = x := by
  apply BitVec.eq_of_toNat_eq
  rw [BitVec.toNat_setWidth, BitVec.toNat_setWidth, Nat.mod_eq_of_lt hfits, Nat.mod_eq_of_lt x.isLt]

/-- What stands above a sign that is set does not matter. -/
theorem extendSign_of_sign (hpos : 0 < narrow) {x : BitVec width}
    (hsign : x.getLsbD (narrow - 1) = true) :
    extendSign narrow x = (x.setWidth narrow).signExtend width := by
  have hmsb : (x.setWidth narrow).msb = true := by
    simpa [BitVec.msb_eq_getLsbD_last, hpos] using hsign
  apply BitVec.eq_of_getLsbD_eq
  intro i hi
  rw [getLsbD_extendSign narrow x hi, hsign, BitVec.getLsbD_signExtend, hmsb,
    BitVec.getLsbD_setWidth]
  rcases Nat.lt_or_ge i narrow with hbelow | habove
  · simp [hi, hbelow, Nat.not_le_of_lt hbelow]
  · simp [hi, habove, Nat.not_lt_of_le habove]

/-- The extended word stands for the signed number in the low bits, if its sign is set or nothing
stands above it. -/
theorem toInt_extendSign (hpos : 0 < narrow) (hle : narrow ≤ width) {x : BitVec width}
    (hx : x.getLsbD (narrow - 1) = true ∨ x.toNat < 2 ^ narrow) :
    (extendSign narrow x).toInt = (x.setWidth narrow).toInt := by
  have hextended : extendSign narrow x = (x.setWidth narrow).signExtend width := by
    rcases hx with hsign | hfits
    · exact extendSign_of_sign hpos hsign
    · have hlow := extendSign_setWidth hpos hle (x.setWidth narrow)
      rwa [setWidth_setWidth_of_lt hfits] at hlow
  rw [hextended, BitVec.toInt_signExtend_of_le hle]

/-- An extension to a wider word may stop at a width in between. -/
theorem extendSign_setWidth_extendSign {wide : Nat} (hpos : 0 < narrow) (hle : narrow ≤ width)
    (hwide : width ≤ wide) {x : BitVec width} (hfits : x.toNat < 2 ^ narrow) :
    extendSign width ((extendSign narrow x).setWidth wide) =
      extendSign narrow (x.setWidth wide) := by
  have hfits' : (x.setWidth wide).toNat < 2 ^ narrow := by
    rw [BitVec.toNat_setWidth]
    exact (Nat.mod_le _ _).trans_lt hfits
  apply BitVec.eq_of_toInt_eq
  rw [extendSign_setWidth (hpos.trans_le hle) hwide, BitVec.toInt_signExtend_of_le hwide,
    toInt_extendSign hpos hle (.inr hfits), toInt_extendSign hpos (hle.trans hwide) (.inr hfits'),
    BitVec.setWidth_setWidth_of_le x (hle.trans hwide)]

/-- Extension in place on any word.  The sign is looked up by a mask of its bit, and the bits above
it are set or nothing is done.  If the sign is set, the result stands for the signed number in the
low bits, whatever the high bits were; if it is clear, the word stays as it is; and a word that fits
in its low bits comes out as the signed number in them in either case.  Extension is idempotent,
keeps the low bits and clears no bit.  Two extensions in one word commute, and an extension may be
made in two stages. -/
theorem extensions_of_any_word (hpos : 0 < narrow) (hle : narrow ≤ width) :
    (∀ x : BitVec width, extendSign narrow x =
      if x &&& BitVec.twoPow width (narrow - 1) = 0 then x else x ||| onesFrom narrow) ∧
    (∀ x : BitVec width, x.getLsbD (narrow - 1) = true →
      (extendSign narrow x).toInt = (x.setWidth narrow).toInt) ∧
    (∀ x : BitVec width, x.getLsbD (narrow - 1) = false → extendSign narrow x = x) ∧
    (∀ x : BitVec width, x.toNat < 2 ^ narrow →
      (extendSign narrow x).toInt = (x.setWidth narrow).toInt) ∧
    (∀ x : BitVec width,
      extendSign narrow (extendSign narrow x) = extendSign narrow x ∧
        (extendSign narrow x).setWidth narrow = x.setWidth narrow ∧
        x &&& extendSign narrow x = x) ∧
    (∀ other, 0 < other → other ≤ width → ∀ x : BitVec width,
      extendSign narrow (extendSign other x) = extendSign other (extendSign narrow x)) ∧
    ∀ wide, width ≤ wide → ∀ x : BitVec width, x.toNat < 2 ^ narrow →
      extendSign width ((extendSign narrow x).setWidth wide) =
        extendSign narrow (x.setWidth wide) := by
  refine ⟨extendSign_eq_ite_and hpos hle, ?_, ?_, ?_, ?_, ?_, ?_⟩
  · intro x hsign
    exact toInt_extendSign hpos hle (.inl hsign)
  · intro x hsign
    rw [extendSign, if_neg (by simp [hsign])]
  · intro x hfits
    exact toInt_extendSign hpos hle (.inr hfits)
  · intro x
    exact ⟨extendSign_extendSign hpos x, setWidth_extendSign narrow x, and_extendSign narrow x⟩
  · intro other hpos' hle' x
    exact extendSign_comm hpos hle hpos' hle' x
  · intro wide hwide x hfits
    exact extendSign_setWidth_extendSign hpos hle hwide hfits

/-- The extensions between bytes, half words, words and long words, with their masks; and a byte in a
word that is not clean, a half word that looks like a negative byte, and a byte in two stages. -/
theorem extensions_of_machine_words :
    ((0 < 8 ∧ 8 ≤ 32) ∧ ∀ x : BitVec 32,
      extendSign 8 x = if x &&& 0x80 = 0 then x else x ||| 0xFFFFFF00) ∧
    ((0 < 16 ∧ 16 ≤ 32) ∧ ∀ x : BitVec 32,
      extendSign 16 x = if x &&& 0x8000 = 0 then x else x ||| 0xFFFF0000) ∧
    ((0 < 8 ∧ 8 ≤ 64) ∧ ∀ x : BitVec 64,
      extendSign 8 x = if x &&& 0x80 = 0 then x else x ||| 0xFFFFFFFFFFFFFF00) ∧
    ((0 < 16 ∧ 16 ≤ 64) ∧ ∀ x : BitVec 64,
      extendSign 16 x = if x &&& 0x8000 = 0 then x else x ||| 0xFFFFFFFFFFFF0000) ∧
    ((0 < 32 ∧ 32 ≤ 64) ∧ ∀ x : BitVec 64,
      extendSign 32 x = if x &&& 0x80000000 = 0 then x else x ||| 0xFFFFFFFF00000000) ∧
    (extendSign 8 (0x12340080 : BitVec 32)).toInt = -128 ∧
    extendSign 8 (extendSign 16 (0x0080 : BitVec 32)) = extendSign 16 (extendSign 8 0x0080) ∧
    extendSign 32 ((extendSign 8 (0x80 : BitVec 32)).setWidth 64) =
      extendSign 8 (0x80 : BitVec 64) := by
  have hword : 0 < 8 ∧ 8 ≤ 32 := by decide
  have hbyte := extensions_of_any_word hword.1 hword.2
  refine ⟨⟨hword, hbyte.1⟩, ⟨by decide, ?_⟩, ⟨by decide, ?_⟩, ⟨by decide, ?_⟩, ⟨by decide, ?_⟩,
    ?_, ?_, ?_⟩
  · exact (extensions_of_any_word (by decide) (by decide)).1
  · exact (extensions_of_any_word (by decide) (by decide)).1
  · exact (extensions_of_any_word (by decide) (by decide)).1
  · exact (extensions_of_any_word (by decide) (by decide)).1
  · exact hbyte.2.1 0x12340080 (by decide)
  · exact hbyte.2.2.2.2.2.1 16 (by decide) (by decide) 0x0080
  · exact hbyte.2.2.2.2.2.2 64 (by decide) 0x80 (by decide)

end Bytestream.Word
