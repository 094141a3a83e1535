import Mathlib
import Bytestream.Proofs.Varint.Sign
import Bytestream.Varint.Encode
import Bytestream.Varint.Typed

/-!
# Reading what was written

What the writers put out are varints: every byte but the last says that another one follows, and
they write the number that they were given.  A varint is as long as its number needs, so that a
number of a given width is written within the limit that its reader sets.
-/

namespace Bytestream.Varint

theorem Terminated.singleton {byte : UInt8} (hbyte : continues byte = false) :
    Terminated [byte] :=
  ⟨[], byte, rfl, by simp, hbyte⟩

theorem Terminated.cons {byte : UInt8} {rest : List UInt8} (hbyte : continues byte = true)
    (hrest : Terminated rest) : Terminated (byte :: rest) := by
  obtain ⟨init, last, rfl, hinit, hlast⟩ := hrest
  exact ⟨byte :: init, last, rfl, List.forall_mem_cons.mpr ⟨hbyte, hinit⟩, hlast⟩

theorem Terminated.ne_nil {bytes : List UInt8} (hbytes : Terminated bytes) : bytes ≠ [] := by
  obtain ⟨init, last, rfl, _, _⟩ := hbytes
  simp

/-! ### Single bytes -/

theorem toNat_continuationByte (n : Int) :
    ((continuationByte n).toNat : Int) = n % 128 + 128 := by
  rw [continuationByte, UInt8.toNat_ofNat']
  omega

theorem toNat_finalByte (n : Int) : ((finalByte n).toNat : Int) = n % 128 := by
  rw [finalByte, UInt8.toNat_ofNat']
  omega

theorem continues_continuationByte (n : Int) : continues (continuationByte n) = true := by
  have hbyte := toNat_continuationByte n
  rw [continues_iff]
  omega

theorem continues_finalByte (n : Int) : continues (finalByte n) = false := by
  have hbyte := toNat_finalByte n
  rw [← Bool.not_eq_true, continues_iff]
  omega

theorem payload_continuationByte (n : Int) :
    ((payload (continuationByte n)).toNat : Int) = n % 128 := by
  have hbyte := toNat_continuationByte n
  rw [payload_toNat]
  omega

theorem payload_finalByte (n : Int) : ((payload (finalByte n)).toNat : Int) = n % 128 := by
  have hbyte := toNat_finalByte n
  rw [payload_toNat]
  omega

/-! ### Unsigned numbers -/

theorem terminated_encodeUnsigned (n : Nat) : Terminated (encodeUnsigned n) := by
  fun_induction encodeUnsigned n with
  | case1 n _ => exact Terminated.singleton (continues_finalByte n)
  | case2 n _ ih => exact Terminated.cons (continues_continuationByte n) ih

theorem positionalSum_encodeUnsigned (n : Nat) : positionalSum (encodeUnsigned n) = n := by
  fun_induction encodeUnsigned n with
  | case1 n hn =>
      have hbyte := payload_finalByte n
      simp only [positionalSum]
      omega
  | case2 n _ ih =>
      have hbyte := payload_continuationByte n
      rw [positionalSum, ih]
      omega

theorem length_encodeUnsigned_le {n count : Nat} (hn : n < 128 ^ (count + 1)) :
    (encodeUnsigned n).length ≤ count + 1 := by
  induction count generalizing n with
  | zero =>
      rw [encodeUnsigned, if_pos (by simpa using hn)]
      simp
  | succ count ih =>
      rw [encodeUnsigned]
      split
      · simp
      · have hrest : n / 128 < 128 ^ (count + 1) := by
          rw [pow_succ] at hn
          exact Nat.div_lt_of_lt_mul (by rwa [Nat.mul_comm])
        rw [List.length_cons]
        exact Nat.succ_le_succ (ih hrest)

/-! ### Signed numbers -/

theorem hasSign_cons (byte : UInt8) {rest : List UInt8} (hrest : rest ≠ []) :
    hasSign (byte :: rest) = hasSign rest := by
  rw [hasSign, hasSign, List.getLast?_cons_of_ne_nil hrest]

/-- The sign of a number in several bytes is the sign of what stands above its lowest group. -/
theorem signedSum_cons (byte : UInt8) {rest : List UInt8} (hrest : rest ≠ []) :
    signedSum (byte :: rest) = (payload byte).toNat + 128 * signedSum rest := by
  simp only [signedSum, hasSign_cons byte hrest, positionalSum, List.length_cons, pow_succ]
  split <;> push_cast <;> ring

theorem signedSum_finalByte {n : Int} (hlow : -64 ≤ n) (hhigh : n < 64) :
    signedSum [finalByte n] = n := by
  have hbyte := toNat_finalByte n
  have hgroup := payload_finalByte n
  have hsign : hasSign [finalByte n] = decide ((finalByte n).toNat / 2 ^ 6 % 2 = 1) := by
    rw [← Nat.testBit_eq_decide_div_mod_eq]
    rfl
  simp only [signedSum, hsign, positionalSum, decide_eq_true_eq]
  split <;> simp <;> omega

theorem terminated_encodeSigned (n : Int) : Terminated (encodeSigned n) := by
  fun_induction encodeSigned n with
  | case1 n _ => exact Terminated.singleton (continues_finalByte n)
  | case2 n _ ih => exact Terminated.cons (continues_continuationByte n) ih

theorem signedSum_encodeSigned (n : Int) : signedSum (encodeSigned n) = n := by
  fun_induction encodeSigned n with
  | case1 n hn => exact signedSum_finalByte hn.1 hn.2
  | case2 n _ ih =>
      rw [signedSum_cons _ (terminated_encodeSigned _).ne_nil, ih, payload_continuationByte]
      omega

theorem length_encodeSigned_le {n : Int} {count : Nat} (hlow : -(64 * 128 ^ count) ≤ n)
    (hhigh : n < 64 * 128 ^ count) : (encodeSigned n).length ≤ count + 1 := by
  induction count generalizing n with
  | zero =>
      rw [encodeSigned, if_pos (by simpa using And.intro hlow hhigh)]
      simp
  | succ count ih =>
      rw [encodeSigned]
      split
      · simp
      · rw [pow_succ] at hlow hhigh
        rw [List.length_cons]
        exact Nat.succ_le_succ (ih (by omega) (by omega))

end Bytestream.Varint
