import Mathlib
import Bytestream.Proofs.Decoder.Outcome
import Bytestream.Proofs.Varint.Gathering
import Bytestream.Proofs.Word.LittleEndian
import Bytestream.Varint.Decode

/-!
# The grammar of varints

Whether a varint can be read, and what it is, depends on one number: how many continuation bytes
come next.  If there are more of them than the width allows, the varint overflows.  If there are not,
but they reach the end of the buffer, it is cut off.  In every other case it is read up to the first
byte that is no continuation byte.  The three cases are complete, and they hold for every declared
width, those that are clamped included.
-/

namespace Bytestream.Varint

/-- How many continuation bytes come next, which are those with the high bit set. -/
def continuations (c : Cursor) : Nat :=
  (c.unread.takeWhile fun byte => decide (0x80 ≤ byte.toNat)).length

/-- The bytes that come next up to the first one that is no continuation byte. -/
def upcoming (c : Cursor) : List UInt8 :=
  c.unread.take (continuations c + 1)

/-- The reader tells a continuation byte by its high bit. -/
theorem length_takeWhile_continues (c : Cursor) :
    (c.unread.takeWhile continues).length = continuations c := by
  have hcontinues : continues = fun byte => decide (0x80 ≤ byte.toNat) := by
    funext byte
    rw [Bool.eq_iff_iff, continues_iff, decide_eq_true_iff]
  rw [hcontinues, continuations]

/-- The reader's limit is the number of groups that the bits fill, rounded up. -/
theorem groupLimit_eq_ceilDiv (bits : Nat) : groupLimit bits = bits ⌈/⌉ 7 := by
  rw [groupLimit, Nat.ceilDiv_eq_add_pred_div]
  rfl

theorem continues_of_mem_takeWhile {bytes : List UInt8} :
    ∀ byte ∈ bytes.takeWhile continues, continues byte = true :=
  fun _ hbyte => List.mem_takeWhile_imp hbyte

theorem offset_add_continuations_le (c : Cursor) : c.offset + continuations c ≤ c.data.size := by
  have hlength := (List.takeWhile_prefix (l := c.unread) continues).length_le
  have hsize := c.offset_add_length_unread
  rw [length_takeWhile_continues] at hlength
  omega

/-- If the continuation bytes stop before the end of the buffer, the byte behind them is there. -/
theorem succ_continuations_le {c : Cursor} (hend : ¬ c.offset + continuations c = c.data.size) :
    continuations c + 1 ≤ c.remaining := by
  have hle := offset_add_continuations_le c
  have hsize := c.offset_add_remaining
  omega

theorem length_upcoming {c : Cursor} (hend : ¬ c.offset + continuations c = c.data.size) :
    (upcoming c).length = continuations c + 1 := by
  rw [upcoming, List.length_take, Cursor.length_unread]
  exact Nat.min_eq_left (succ_continuations_le hend)

/-- The byte behind the continuation bytes ends the varint. -/
theorem exists_upcoming_eq {c : Cursor} (hend : ¬ c.offset + continuations c = c.data.size) :
    ∃ last, continues last = false ∧
      upcoming c = c.unread.takeWhile continues ++ [last] := by
  have hsplit := List.takeWhile_append_dropWhile (p := continues) (l := c.unread)
  have hdrop : c.unread.dropWhile continues ≠ [] := by
    intro hnil
    have hsize := c.offset_add_length_unread
    rw [hnil, List.append_nil] at hsplit
    rw [← hsplit, length_takeWhile_continues] at hsize
    exact hend hsize
  obtain ⟨last, rest, hrest⟩ := List.exists_cons_of_ne_nil hdrop
  refine ⟨last, ?_, ?_⟩
  · have hlast := List.head_dropWhile_not continues hdrop
    simpa [hrest] using hlast
  · rw [hrest] at hsplit
    rw [upcoming]
    conv_lhs => rw [← hsplit, ← length_takeWhile_continues]
    exact List.take_length_add_append 1

/-- The bytes up to there are a varint. -/
theorem terminated_upcoming {c : Cursor} (hend : ¬ c.offset + continuations c = c.data.size) :
    Terminated (upcoming c) := by
  obtain ⟨last, hlast, hbytes⟩ := exists_upcoming_eq hend
  exact ⟨_, last, hbytes, continues_of_mem_takeWhile, hlast⟩

theorem upTo_advance_continuations {c : Cursor}
    (hend : ¬ c.offset + continuations c = c.data.size) :
    c.upTo (c.advance (continuations c + 1) (succ_continuations_le hend)) = upcoming c :=
  Cursor.upTo_advance c _ _

/-! ### The three outcomes of reading groups -/

theorem groups_of_exceeded {bits : Nat} {c : Cursor} (hrun : groupLimit bits < continuations c) :
    groups bits c = .error (.overflow bits c.offset) c := by
  have hinit : (c.unread.takeWhile continues).take (groupLimit bits + 1) <+: c.unread :=
    (List.take_prefix _ _).trans (List.takeWhile_prefix continues)
  have hlength : ((c.unread.takeWhile continues).take (groupLimit bits + 1)).length =
      groupLimit bits + 1 := by
    rw [List.length_take, length_takeWhile_continues]
    exact Nat.min_eq_left hrun
  obtain ⟨c', hread⟩ := readGroups_of_exceeded bits c.offset
    (fun byte hbyte => continues_of_mem_takeWhile byte (List.mem_of_mem_take hbyte))
    hlength hinit 0 0
  exact Decoder.atomically_eq_error_iff.mpr ⟨rfl, c', hread⟩

theorem groups_of_cutOff {bits : Nat} {c : Cursor} (hrun : continuations c ≤ groupLimit bits)
    (hend : c.offset + continuations c = c.data.size) :
    groups bits c = .error (.truncated c.data.size 1 0) c := by
  have hall : c.unread.takeWhile continues = c.unread := by
    apply (List.takeWhile_prefix continues).eq_of_length
    have hsize := c.offset_add_length_unread
    rw [← length_takeWhile_continues] at hend
    omega
  have hlength : c.unread.length ≤ groupLimit bits := by
    rwa [← length_takeWhile_continues, hall] at hrun
  obtain ⟨c', hread⟩ := readGroups_of_cutOff bits c.offset
    (fun byte hbyte => continues_of_mem_takeWhile byte (hall.symm ▸ hbyte)) hlength 0 0
  exact Decoder.atomically_eq_error_iff.mpr ⟨rfl, c', hread⟩

/-- A terminated varint within the limit is consumed, wherever it stands. -/
theorem consumes_groups {bits : Nat} {init : List UInt8} {last : UInt8}
    (hinit : ∀ byte ∈ init, continues byte = true) (hlast : continues last = false)
    (hlimit : init.length ≤ groupLimit bits) :
    Decoder.Consumes (groups bits) (init ++ [last]) (gathered init last) := by
  apply Decoder.Consumes.atomically
  apply Decoder.Consumes.offset
  intro start
  exact readGroups_of_terminated hinit hlast hlimit []

theorem groups_of_terminated {bits : Nat} {c : Cursor} (hrun : continuations c ≤ groupLimit bits)
    (hend : ¬ c.offset + continuations c = c.data.size) :
    ∃ last, continues last = false ∧ upcoming c = c.unread.takeWhile continues ++ [last] ∧
      groups bits c = .ok (gathered (c.unread.takeWhile continues) last)
        (c.advance (continuations c + 1) (succ_continuations_le hend)) := by
  obtain ⟨last, hlast, hbytes⟩ := exists_upcoming_eq hend
  have hprefix : c.unread.takeWhile continues ++ [last] <+: c.unread :=
    hbytes ▸ List.take_prefix _ _
  refine ⟨last, hlast, hbytes, ?_⟩
  have hlimit : (c.unread.takeWhile continues).length ≤ groupLimit bits := by
    rwa [length_takeWhile_continues]
  rw [consumes_groups continues_of_mem_takeWhile hlast hlimit c hprefix]
  congr 1
  exact Cursor.ext rfl (by simp [length_takeWhile_continues])

/-- Every cursor is in one of the three cases. -/
theorem groups_cases (bits : Nat) (c : Cursor) :
    (groupLimit bits < continuations c ∧ groups bits c = .error (.overflow bits c.offset) c) ∨
      (continuations c ≤ groupLimit bits ∧ c.offset + continuations c = c.data.size ∧
        groups bits c = .error (.truncated c.data.size 1 0) c) ∨
      ∃ (hend : ¬ c.offset + continuations c = c.data.size) (last : UInt8),
        continuations c ≤ groupLimit bits ∧ continues last = false ∧
          upcoming c = c.unread.takeWhile continues ++ [last] ∧
          groups bits c = .ok (gathered (c.unread.takeWhile continues) last)
            (c.advance (continuations c + 1) (succ_continuations_le hend)) := by
  by_cases hrun : groupLimit bits < continuations c
  · exact Or.inl ⟨hrun, groups_of_exceeded hrun⟩
  · have hle : continuations c ≤ groupLimit bits := Nat.le_of_not_lt hrun
    by_cases hend : c.offset + continuations c = c.data.size
    · exact Or.inr (Or.inl ⟨hle, hend, groups_of_cutOff hle hend⟩)
    · obtain ⟨last, hlast, hbytes, hgroups⟩ := groups_of_terminated hle hend
      exact Or.inr (Or.inr ⟨hend, last, hle, hlast, hbytes, hgroups⟩)

/-! ### Unsigned varints -/

theorem unsigned_apply (maxBits : Nat) (c : Cursor) :
    unsigned maxBits c =
      match groups (clampWidth maxBits) c with
      | .ok g c' => .ok g.word c'
      | .error e c' => .error e c' := by
  simp only [unsigned, bind, EStateM.bind]
  rcases groups (clampWidth maxBits) c with ⟨g, c'⟩ | ⟨e, c'⟩
  · rfl
  · rfl

/-- The number that some bytes write is the sum of their groups, each at its power of 128. -/
theorem positionalSum_eq_sum (bytes : List UInt8) :
    positionalSum bytes =
      ∑ i ∈ Finset.range bytes.length, (bytes[i]! &&& 0x7F).toNat * 128 ^ i := by
  induction bytes with
  | nil => rfl
  | cons byte rest ih =>
      rw [positionalSum, ih]
      exact (sum_range_length_cons (fun byte => (payload byte).toNat) 128 byte rest).symm

theorem getElem!_upcoming {c : Cursor} (hend : ¬ c.offset + continuations c = c.data.size) {i : Nat}
    (hi : i < continuations c + 1) : (upcoming c)[i]! = c.data[c.offset + i]! := by
  have hsize := succ_continuations_le hend
  have hdata := c.offset_add_remaining
  rw [getElem!_pos (upcoming c) i (by rw [length_upcoming hend]; exact hi),
    getElem!_pos c.data (c.offset + i) (by omega)]
  simp [upcoming, Cursor.unread, ByteArray.getElem_eq_getElem_data]

/-- Which of the three outcomes an unsigned varint has, and its value.  The declared width is clamped
to one bit at least and a word at most, and a varint has no more continuation bytes than groups fill
that width.  The value is the sum of the groups modulo the size of a word. -/
theorem unsigned_outcome (maxBits : Nat) (c : Cursor) :
    unsigned maxBits c =
      if max 1 (min maxBits 64) ⌈/⌉ 7 < continuations c then
        .error (.overflow (max 1 (min maxBits 64)) c.offset) c
      else if hend : c.offset + continuations c = c.data.size then
        .error (.truncated c.data.size 1 0) c
      else
        .ok (UInt64.ofNat (∑ i ∈ Finset.range (continuations c + 1),
            (c.data[c.offset + i]! &&& 0x7F).toNat * 128 ^ i))
          (c.advance (continuations c + 1) (succ_continuations_le hend)) := by
  have hlimit : groupLimit (clampWidth maxBits) = max 1 (min maxBits 64) ⌈/⌉ 7 :=
    groupLimit_eq_ceilDiv (clampWidth maxBits)
  rw [unsigned_apply, ← hlimit]
  rcases groups_cases (clampWidth maxBits) c with
    ⟨hrun, hgroups⟩ | ⟨hrun, hend, hgroups⟩ | ⟨hend, last, hrun, _, hbytes, hgroups⟩
  · rw [hgroups, if_pos hrun]
    rfl
  · rw [hgroups, if_neg (Nat.not_lt_of_le hrun), dif_pos hend]
  · have hsum : positionalSum (upcoming c) = ∑ i ∈ Finset.range (continuations c + 1),
        (c.data[c.offset + i]! &&& 0x7F).toNat * 128 ^ i := by
      rw [positionalSum_eq_sum, length_upcoming hend]
      apply Finset.sum_congr rfl
      intro i hi
      rw [getElem!_upcoming hend (Finset.mem_range.mp hi)]
    rw [hgroups, if_neg (Nat.not_lt_of_le hrun), dif_neg hend, ← hsum, hbytes]
    rfl

end Bytestream.Varint
