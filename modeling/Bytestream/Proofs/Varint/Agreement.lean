import Mathlib
import Bytestream.Proofs.Varint.Fitting
import Bytestream.Proofs.Word.Extend

/-!
# Two ways to one integer

An integer of 32 or 64 bits can be read by a decoder of its own or by the one that takes the type as
a parameter.  Both make the same checks of the same varint, so that they agree in the value, in the
error and in the cursor.  What the typed reads yield is the plain unsigned or signed varint again,
cut down to the type: widened to a word, an unsigned integer is the whole number, and a signed one is
the low bits of it with their sign extended in place.
-/

namespace Bytestream.Varint

open Decoder

variable {α β : Type} {type : IntType} {c c' : Cursor}

/-! ### One decoder for each type -/

/-- What is made of the value that is made of a number can be made of the number. -/
theorem map_fitting (bits : Nat) (make : Nat → α) (f : α → β) :
    (do return f (← fitting bits make)) = fitting bits fun n => f (make n) := by
  funext c
  rw [map_apply, fitting_apply, fitting_apply]
  cases unsigned bits c with
  | error e c' => rfl
  | ok value c' =>
      by_cases hfits : value.toNat < 2 ^ bits
      · simp only [hfits, ↓reduceIte]
      · simp only [hfits, ↓reduceIte]

/-- A signed type keeps the low bits of the signed varint. -/
theorem integer_eq_map_signed (htype : type.isSigned = true) :
    integer type = do
      return TypedInt.mk type ((← signed type.bits).toBitVec.setWidth type.bits) := by
  funext c
  simp only [integer, atomically, offset_bind_apply, htype, ↓reduceIte, map_apply]
  cases hread : signed type.bits c with
  | ok value c' => rfl
  | error e c' => rw [reverts_signed type.bits hread]

theorem map_u32 : (do return TypedInt.mk .u32 (← u32).toBitVec) = integer .u32 := by
  rw [u32_eq_fitting, map_fitting, integer_eq_fitting rfl]
  rfl

theorem map_u64 : (do return TypedInt.mk .u64 (← u64).toBitVec) = integer .u64 := by
  rw [u64_eq_fitting, map_fitting, integer_eq_fitting rfl]
  rfl

theorem map_i32 : (do return TypedInt.mk .i32 (← i32).toBitVec) = integer .i32 := by
  have hword : ∀ value : Int64, value.toInt32.toBitVec = value.toBitVec.setWidth 32 :=
    fun value => BitVec.signExtend_eq_setWidth_of_le _ (by decide)
  rw [integer_eq_map_signed rfl]
  simp only [i32, bind_assoc, pure_bind, hword]
  rfl

theorem map_i64 : (do return TypedInt.mk .i64 (← i64).toBitVec) = integer .i64 := by
  have hword : ∀ value : Int64, value.toBitVec.setWidth IntType.i64.bits = value.toBitVec :=
    fun value => BitVec.setWidth_eq value.toBitVec
  rw [integer_eq_map_signed rfl]
  simp only [hword]
  rfl

/-! ### Widened integers -/

/-- The low `bits` bits of a word with their sign extended in place.  A number as wide as the word is
left alone. -/
def extendLow (bits : Nat) (x : BitVec 64) : BitVec 64 :=
  if bits < 64 then Word.extendSign bits ((x.setWidth bits).setWidth 64) else x

theorem bits64_setWidth (htype : type.isSigned = true) (x : BitVec 64) :
    (TypedInt.mk type (x.setWidth type.bits)).bits64 = extendLow type.bits x := by
  rw [TypedInt.bits64, if_pos htype, extendLow]
  split
  case isTrue hbits =>
    exact (Word.extendSign_setWidth type.bits_pos (Nat.le_of_lt hbits) (x.setWidth type.bits)).symm
  case isFalse hbits =>
    have hwide : 64 ≤ type.bits := Nat.le_of_not_lt hbits
    rw [BitVec.signExtend_eq_setWidth_of_le _ hwide, BitVec.setWidth_setWidth_of_le _ hwide,
      BitVec.setWidth_eq]

theorem bits64_ofNat (htype : type.isSigned = false) {value : UInt64}
    (hfits : value.toNat < 2 ^ type.bits) :
    (TypedInt.mk type (BitVec.ofNat type.bits value.toNat)).bits64 = value.toBitVec := by
  rw [TypedInt.bits64, if_neg (by simp [htype])]
  apply BitVec.eq_of_toNat_eq
  rw [BitVec.toNat_setWidth, BitVec.toNat_ofNat, Nat.mod_eq_of_lt hfits]
  exact Nat.mod_eq_of_lt value.toNat_lt

theorem exists_signed_of_integer_eq_ok (htype : type.isSigned = true) {n : TypedInt}
    (hread : integer type c = .ok n c') :
    n.type = type ∧ ∃ value, signed type.bits c = .ok value c' ∧
      n.bits64 = extendLow type.bits value.toBitVec := by
  rw [integer_eq_map_signed htype, map_apply] at hread
  split at hread
  case h_1 value c₁ hvalue =>
    cases hread
    exact ⟨rfl, value, hvalue, bits64_setWidth htype value.toBitVec⟩
  case h_2 => cases hread

theorem exists_unsigned_of_integer_eq_ok (htype : type.isSigned = false) {n : TypedInt}
    (hread : integer type c = .ok n c') :
    n.type = type ∧ ∃ value, unsigned type.bits c = .ok value c' ∧ n.bits64 = value.toBitVec := by
  rw [integer_eq_fitting htype, fitting_apply] at hread
  split at hread
  case h_1 value c₁ hvalue =>
    split at hread
    case isTrue hfits =>
      cases hread
      exact ⟨rfl, value, hvalue, bits64_ofNat htype hfits⟩
    case isFalse => cases hread
  case h_2 => cases hread

theorem integer_eq_error_iff_of_signed (htype : type.isSigned = true) {e : DecodeError} :
    integer type c = .error e c' ↔ signed type.bits c = .error e c' := by
  rw [integer_eq_map_signed htype, map_apply]
  cases signed type.bits c with
  | ok value c₁ => simp
  | error e₁ c₁ => simp

/-- The decoders of one type do what the typed read does at that type, and nothing sets them apart:
the value, the error and the cursor are the same.  An integer that the typed read yields has the type
that was asked for and ends where the plain varint of its width ends.  Widened to a word it is the
plain value itself if the type is unsigned, and the low bits of the plain value with their sign
extended if it is signed.  A signed type fails exactly when the plain signed varint does, and with
the same error. -/
theorem integer_paths_agree :
    ((do return TypedInt.mk .u32 (← u32).toBitVec) = integer .u32 ∧
      (do return TypedInt.mk .u64 (← u64).toBitVec) = integer .u64 ∧
      (do return TypedInt.mk .i32 (← i32).toBitVec) = integer .i32 ∧
      (do return TypedInt.mk .i64 (← i64).toBitVec) = integer .i64) ∧
    ∀ (type : IntType) (c : Cursor),
      (∀ n c', integer type c = .ok n c' →
        n.type = type ∧
          if type.isSigned then
            ∃ value, signed type.bits c = .ok value c' ∧
              n.bits64 = extendLow type.bits value.toBitVec
          else ∃ value, unsigned type.bits c = .ok value c' ∧ n.bits64 = value.toBitVec) ∧
      (type.isSigned = true →
        ∀ e c', integer type c = .error e c' ↔ signed type.bits c = .error e c') := by
  refine ⟨⟨map_u32, map_u64, map_i32, map_i64⟩, ?_⟩
  intro type c
  constructor
  · intro n c' hread
    cases htype : type.isSigned with
    | true => simpa using exists_signed_of_integer_eq_ok htype hread
    | false => simpa using exists_unsigned_of_integer_eq_ok htype hread
  · intro htype e c'
    exact integer_eq_error_iff_of_signed htype

end Bytestream.Varint
