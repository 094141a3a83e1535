import Mathlib
import Bytestream.Proofs.Decoder.Consumption
import Bytestream.Varint.Value

/-!
# Gathering groups in a word

The word that is gathered from some bytes is the number that they write, cut down to 64 bits.  One
more group leaves this so: it lies above every bit gathered before, so that joining it in is the
same as adding it, and both are cut down in the same way.  From this step the three outcomes of
reading groups follow by induction on the continuation bytes.
-/

namespace Bytestream.Varint

theorem pow_128 (n : Nat) : 128 ^ n = 2 ^ (7 * n) := by
  rw [pow_mul]
  rfl

theorem intPow_128 (n : Nat) : (128 : Int) ^ n = 2 ^ (7 * n) := by
  exact_mod_cast pow_128 n

/-- Placing a group multiplies it by a power of two and keeps what fits in a word. -/
theorem place_eq (group : UInt8) (shift : Nat) :
    place group shift = UInt64.ofNat (group.toNat <<< shift) := by
  by_cases hshift : shift < 64
  · rw [UInt64.ofNat_shiftLeft _ _ hshift]
    simp [place, hshift]
  · have hdvd : 2 ^ 64 ∣ group.toNat <<< shift := by
      rw [Nat.shiftLeft_eq]
      exact Dvd.dvd.mul_left (pow_dvd_pow 2 (by omega)) _
    apply UInt64.toNat_inj.mp
    rw [UInt64.toNat_ofNat', Nat.mod_eq_zero_of_dvd hdvd]
    simp [place, hshift]

/-- One more byte adds its group to the word. -/
theorem ofNat_positionalSum_or_place (front : List UInt8) (byte : UInt8) :
    UInt64.ofNat (positionalSum front) ||| place (payload byte) (7 * front.length) =
      UInt64.ofNat (positionalSum (front ++ [byte])) := by
  have hlow : positionalSum front < 2 ^ (7 * front.length) :=
    pow_128 front.length ▸ positionalSum_lt front
  rw [place_eq, ← UInt64.ofNat_or, Nat.or_comm, ← Nat.shiftLeft_add_eq_or_of_lt hlow,
    positionalSum_append, pow_128, Nat.shiftLeft_eq, Nat.mul_comm, Nat.add_comm]
  simp [positionalSum]

/-- What the bytes of a varint amount to, if `last` ends it. -/
def gathered (init : List UInt8) (last : UInt8) : Groups where
  word := UInt64.ofNat (positionalSum (init ++ [last]))
  width := 7 * (init.length + 1)
  last := last

/-- A continuation byte within the allowance leaves one fewer to come. -/
theorem readGroups_of_continues {bits start allowance : Nat} {word : UInt64} {shift : Nat}
    {c : Cursor} {byte : UInt8} {rest : List UInt8} (hunread : c.unread = byte :: rest)
    (hbyte : continues byte = true) :
    readGroups bits start (allowance + 1) word shift c =
      readGroups bits start allowance (word ||| place (payload byte) shift) (shift + 7)
        (c.advance 1 (Cursor.one_le_remaining hunread)) := by
  rw [readGroups_apply, Decoder.u8_of_unread_cons hunread]
  simp only [hbyte, ↓reduceIte]

/-- Within the allowance, the rest of a varint is read to its end. -/
theorem readGroups_of_terminated {bits start : Nat} {init : List UInt8} {last : UInt8}
    (hinit : ∀ byte ∈ init, continues byte = true) (hlast : continues last = false)
    {allowance : Nat} (hallowance : init.length ≤ allowance) (front : List UInt8) :
    Decoder.Consumes
      (readGroups bits start allowance (UInt64.ofNat (positionalSum front)) (7 * front.length))
      (init ++ [last]) (gathered (front ++ init) last) := by
  induction init generalizing allowance front with
  | nil =>
      intro c hbytes
      have hbyte := Decoder.consumes_u8 last c hbytes
      rw [readGroups_apply, hbyte]
      simp only [hlast, Bool.false_eq_true, ↓reduceIte, ofNat_positionalSum_or_place,
        List.append_nil]
      rfl
  | cons byte init ih =>
      intro c hbytes
      obtain ⟨hbyte, hinit⟩ := List.forall_mem_cons.mp hinit
      obtain ⟨allowance, rfl⟩ := Nat.exists_eq_add_of_le' (Nat.one_le_of_lt hallowance)
      obtain ⟨rest, hrest⟩ := hbytes
      have hunread : c.unread = byte :: (init ++ [last] ++ rest) := hrest.symm
      have hnext : init ++ [last] <+:
          (c.advance 1 (Cursor.one_le_remaining hunread)).unread :=
        ⟨rest, (Cursor.unread_advance_one hunread).symm⟩
      -- What has been gathered with this byte is again the word of some bytes.
      have hgathered := ih hinit (Nat.le_of_succ_le_succ hallowance) (front ++ [byte]) _ hnext
      rw [List.length_append, List.length_singleton, Nat.mul_add, Nat.mul_one] at hgathered
      rw [readGroups_of_continues hunread hbyte, ofNat_positionalSum_or_place, hgathered]
      congr 1
      · rw [List.append_assoc, List.singleton_append]
      · refine Cursor.ext rfl ?_
        simp only [Cursor.offset_advance, List.length_append, List.length_cons]
        omega

/-- One continuation byte beyond the allowance is an overflow, whatever the word. -/
theorem readGroups_of_exceeded (bits start : Nat) {init : List UInt8}
    (hinit : ∀ byte ∈ init, continues byte = true) {allowance : Nat}
    (hallowance : init.length = allowance + 1) {c : Cursor} (hbytes : init <+: c.unread)
    (word : UInt64) (shift : Nat) :
    ∃ c', readGroups bits start allowance word shift c = .error (.overflow bits start) c' := by
  induction allowance generalizing init c word shift with
  | zero =>
      obtain ⟨byte, rfl⟩ := List.length_eq_one_iff.mp hallowance
      rw [readGroups_apply, Decoder.consumes_u8 byte c hbytes]
      simp [hinit byte List.mem_cons_self]
  | succ allowance ih =>
      obtain ⟨byte, init, rfl⟩ := List.exists_cons_of_length_eq_add_one hallowance
      obtain ⟨hbyte, hinit⟩ := List.forall_mem_cons.mp hinit
      obtain ⟨rest, hrest⟩ := hbytes
      have hunread : c.unread = byte :: (init ++ rest) := hrest.symm
      have hnext : init <+: (c.advance 1 (Cursor.one_le_remaining hunread)).unread :=
        ⟨rest, (Cursor.unread_advance_one hunread).symm⟩
      rw [readGroups_of_continues hunread hbyte]
      exact ih hinit (Nat.succ.inj hallowance) hnext _ _

/-- Nothing but continuation bytes to the end of the buffer, and no more of them than allowed, are
the start of a varint that is cut off. -/
theorem readGroups_of_cutOff (bits start : Nat) {c : Cursor}
    (hunread : ∀ byte ∈ c.unread, continues byte = true) {allowance : Nat}
    (hallowance : c.unread.length ≤ allowance) (word : UInt64) (shift : Nat) :
    ∃ c', readGroups bits start allowance word shift c =
      .error (.truncated c.data.size 1 0) c' := by
  induction hbytes : c.unread generalizing c allowance word shift with
  | nil =>
      rw [readGroups_apply, Decoder.u8_of_unread_nil hbytes, Cursor.truncated_of_unread_nil hbytes]
      exact ⟨c, rfl⟩
  | cons byte rest ih =>
      rw [hbytes] at hunread hallowance
      obtain ⟨hbyte, hrest⟩ := List.forall_mem_cons.mp hunread
      obtain ⟨allowance, rfl⟩ := Nat.exists_eq_add_of_le' (Nat.one_le_of_lt hallowance)
      have hnext := Cursor.unread_advance_one hbytes
      rw [readGroups_of_continues hbytes hbyte]
      apply ih _ _ _ _ hnext
      · rwa [hnext]
      · rw [hnext]
        exact Nat.le_of_succ_le_succ hallowance

end Bytestream.Varint
