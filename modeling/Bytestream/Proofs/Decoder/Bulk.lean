import Mathlib
import Bytestream.Proofs.Decoder.Fixed
import Bytestream.Proofs.Decoder.Vector
import Bytestream.Proofs.Word.LittleEndian

/-!
# Many bytes at once

A read of a fixed number of bytes looks once whether enough of them remain and then cuts them out of
the buffer.  It does the same as reading the bytes one by one: it succeeds exactly if each of them
can be read, makes its value of these bytes, and stops where the last of them has ended.  If they
break off before, it tells how many of them there were.

So two runs of bytes that follow each other make up one run, and two words of 32 bits one of 64.
-/

namespace Bytestream.Decoder

variable {α β : Type} {c c' : Cursor} {taken : List UInt8} {e : DecodeError}

/-! ### Byte by byte -/

theorem u8_eq_ok_iff {byte : UInt8} :
    u8 c = .ok byte c' ↔ c'.data = c.data ∧ c.unread = byte :: c'.unread := by
  cases hunread : c.unread with
  | nil => simp [u8_of_unread_nil hunread]
  | cons first rest =>
      rw [u8_of_unread_cons hunread]
      constructor
      · intro hok
        cases hok
        exact ⟨rfl, by rw [Cursor.unread_advance_one hunread]⟩
      · rintro ⟨hdata, hrest⟩
        cases hrest
        congr 1
        exact Cursor.eq_of_unread_eq hdata.symm (Cursor.unread_advance_one hunread)

/-- The bytes that are read one by one are those that come next. -/
theorem repeats_u8_iff :
    Repeats u8 c taken c' ↔ c'.data = c.data ∧ c.unread = taken ++ c'.unread := by
  induction taken generalizing c with
  | nil =>
      constructor
      · intro hvalues
        cases hvalues
        exact ⟨rfl, rfl⟩
      · rintro ⟨hdata, hunread⟩
        rw [Cursor.eq_of_unread_eq hdata.symm hunread]
        exact .nil c'
  | cons byte rest ih =>
      constructor
      · intro hvalues
        cases hvalues with
        | cons hbyte hrest =>
            obtain ⟨hdata₁, hunread₁⟩ := u8_eq_ok_iff.mp hbyte
            obtain ⟨hdata₂, hunread₂⟩ := ih.mp hrest
            exact ⟨hdata₂.trans hdata₁, by rw [hunread₁, hunread₂, List.cons_append]⟩
      · rintro ⟨hdata, hunread⟩
        have hnext := Cursor.unread_advance_one hunread
        exact .cons (u8_of_unread_cons hunread) (ih.mpr ⟨hdata, hnext⟩)

/-- Byte by byte, everything up to the end of the buffer is read, and nothing behind it. -/
theorem breaksOff_u8_iff :
    BreaksOff u8 c taken e ↔ taken = c.unread ∧ e = .truncated c.data.size 1 0 := by
  constructor
  · rintro ⟨c₁, c₂, hvalues, hnext⟩
    obtain ⟨hdata, hunread⟩ := repeats_u8_iff.mp hvalues
    obtain ⟨hend, rfl, _⟩ := takes_u8.eq_error_iff.mp hnext
    have hnil : c₁.unread = [] := by
      apply List.eq_nil_of_length_eq_zero
      rw [Cursor.length_unread]
      exact Nat.lt_one_iff.mp hend
    rw [hnil, List.append_nil] at hunread
    exact ⟨hunread.symm, by rw [Cursor.truncated_of_unread_nil hnil, hdata]⟩
  · rintro ⟨rfl, rfl⟩
    let last := c.advance c.remaining (Nat.le_refl _)
    have hnil : last.unread = [] := by
      rw [Cursor.unread_advance, ← Cursor.length_unread, List.drop_length]
    have hvalues : Repeats u8 c c.unread last :=
      repeats_u8_iff.mpr ⟨rfl, by rw [hnil, List.append_nil]⟩
    refine ⟨last, last, hvalues, ?_⟩
    rw [u8_of_unread_nil hnil, Cursor.truncated_of_unread_nil hnil]
    rfl

/-! ### All at once -/

namespace Takes

variable {d : Decoder α} {count : Nat} {value : List UInt8 → α}

theorem map (hd : Takes d count value) (f : α → β) :
    Takes (do return f (← d)) count fun bytes => f (value bytes) := by
  intro c
  rw [map_apply, hd c]
  by_cases hcount : count ≤ c.remaining
  · simp only [hcount, ↓reduceDIte]
  · simp only [hcount, ↓reduceDIte]

/-- A read of some bytes succeeds exactly if each of them can be read. -/
theorem eq_ok_iff_repeats (hd : Takes d count value) {result : α} :
    d c = .ok result c' ↔
      ∃ taken, taken.length = count ∧ Repeats u8 c taken c' ∧ result = value taken := by
  rw [hd.eq_ok_iff]
  constructor
  · rintro ⟨hcount, rfl, rfl⟩
    refine ⟨c.unread.take count, ?_, repeats_u8_iff.mpr ⟨rfl, ?_⟩, rfl⟩
    · rw [List.length_take, Cursor.length_unread, Nat.min_eq_left hcount]
    · rw [Cursor.unread_advance, List.take_append_drop]
  · rintro ⟨taken, rfl, hvalues, rfl⟩
    obtain ⟨hdata, hunread⟩ := repeats_u8_iff.mp hvalues
    have hbytes : taken <+: c.unread := ⟨c'.unread, hunread.symm⟩
    refine ⟨Cursor.length_le_remaining hbytes, ?_, Cursor.eq_of_unread_eq hdata ?_⟩
    · rw [hunread, List.take_left]
    · rw [Cursor.unread_advance, hunread, List.drop_left]

/-- A read of some bytes fails exactly if they break off, and tells how many there were. -/
theorem eq_error_iff_breaksOff (hd : Takes d count value) :
    d c = .error e c' ↔
      c' = c ∧ ∃ taken e₁, taken.length < count ∧ BreaksOff u8 c taken e₁ ∧
        e = .truncated c.offset count taken.length := by
  rw [hd.eq_error_iff]
  constructor
  · rintro ⟨hcount, rfl, rfl⟩
    refine ⟨rfl, c'.unread, _, ?_, breaksOff_u8_iff.mpr ⟨rfl, rfl⟩, ?_⟩
    · rwa [Cursor.length_unread]
    · rw [Cursor.length_unread]
      rfl
  · rintro ⟨rfl, taken, e₁, hlength, hbreaks, rfl⟩
    obtain ⟨rfl, _⟩ := breaksOff_u8_iff.mp hbreaks
    rw [Cursor.length_unread] at hlength ⊢
    exact ⟨hlength, rfl, rfl⟩

/-- Two reads that follow each other take what one read takes at once. -/
theorem eq_ok_iff_parts {γ : Type} {d₁ : Decoder β} {d₂ : Decoder γ} {a b : Nat}
    {value₁ : List UInt8 → β} {value₂ : List UInt8 → γ} {join : β → γ → α}
    (hd : Takes d (a + b) value) (hd₁ : Takes d₁ a value₁) (hd₂ : Takes d₂ b value₂)
    (hvalue : ∀ front back, front.length = a → back.length = b →
      value (front ++ back) = join (value₁ front) (value₂ back)) {result : α} :
    d c = .ok result c' ↔
      ∃ first c₁ second, d₁ c = .ok first c₁ ∧ d₂ c₁ = .ok second c' ∧
        result = join first second := by
  rw [hd.eq_ok_iff_repeats, exists_repeats_add_iff]
  constructor
  · rintro ⟨front, c₁, back, hfront, hfrontRead, hback, hbackRead, rfl⟩
    exact ⟨value₁ front, c₁, value₂ back,
      hd₁.eq_ok_iff_repeats.mpr ⟨front, hfront, hfrontRead, rfl⟩,
      hd₂.eq_ok_iff_repeats.mpr ⟨back, hback, hbackRead, rfl⟩, hvalue front back hfront hback⟩
  · rintro ⟨first, c₁, second, hfirst, hsecond, rfl⟩
    obtain ⟨front, hfront, hfrontRead, rfl⟩ := hd₁.eq_ok_iff_repeats.mp hfirst
    obtain ⟨back, hback, hbackRead, rfl⟩ := hd₂.eq_ok_iff_repeats.mp hsecond
    exact ⟨front, c₁, back, hfront, hfrontRead, hback, hbackRead,
      (hvalue front back hfront hback).symm⟩

section Words

variable {toNat : α → Nat} (hd : Takes d count value) (hinjective : Function.Injective toNat)
  (hvalue : ∀ taken, taken.length = count → toNat (value taken) = littleEndian taken)

include hd hinjective hvalue in
/-- A word is the sum of its bytes, each at the power of 256 that belongs to its place. -/
theorem eq_ok_iff_sum {word : α} :
    d c = .ok word c' ↔
      ∃ taken, taken.length = count ∧ Repeats u8 c taken c' ∧
        toNat word = ∑ i ∈ Finset.range count, taken[i]!.toNat * 256 ^ i := by
  rw [hd.eq_ok_iff_repeats]
  refine exists_congr fun taken => and_congr_right fun hlength => and_congr_right fun _ => ?_
  rw [← hlength, ← littleEndian_eq_sum, ← hvalue taken hlength]
  exact hinjective.eq_iff.symm

include hd hvalue in
/-- Writing a word gives the bytes that have been read. -/
theorem toLittleEndian_eq_upTo {word : α} (hread : d c = .ok word c') :
    toLittleEndian count (toNat word) = c.upTo c' := by
  obtain ⟨hcount, rfl, rfl⟩ := hd.eq_ok_iff.mp hread
  have hlength : (c.unread.take count).length = count := by
    rw [List.length_take, Cursor.length_unread, Nat.min_eq_left hcount]
  have hbytes := toLittleEndian_littleEndian (c.unread.take count)
  rw [hlength] at hbytes
  rw [hvalue _ hlength, hbytes, Cursor.upTo_advance]

end Words

end Takes

theorem takes_skip (count : Nat) : Takes (skip count) count fun _ => () :=
  (takes_bytes count).map fun _ => ()

theorem takes_word (count : Nat) : Takes (word count) count littleEndian := by
  have hword := (takes_bytes count).map fun bytes => littleEndian bytes.data.toList
  simpa [word] using hword

theorem takes_u32LE : Takes u32LE 4 fun bytes => UInt32.ofNat (littleEndian bytes) :=
  (takes_word 4).map UInt32.ofNat

theorem takes_u64LE : Takes u64LE 8 fun bytes => UInt64.ofNat (littleEndian bytes) :=
  (takes_word 8).map UInt64.ofNat

theorem toNat_u32LE {taken : List UInt8} (hlength : taken.length = 4) :
    (UInt32.ofNat (littleEndian taken)).toNat = littleEndian taken := by
  have hlt := littleEndian_lt taken
  rw [hlength] at hlt
  exact UInt32.toNat_ofNat_of_lt' hlt

theorem toNat_u64LE {taken : List UInt8} (hlength : taken.length = 8) :
    (UInt64.ofNat (littleEndian taken)).toNat = littleEndian taken := by
  have hlt := littleEndian_lt taken
  rw [hlength] at hlt
  exact UInt64.toNat_ofNat_of_lt' hlt

theorem bytes_eq_ok_iff_repeats {count : Nat} {result : ByteArray} :
    bytes count c = .ok result c' ↔
      result.size = count ∧ Repeats u8 c result.data.toList c' := by
  rw [(takes_bytes count).eq_ok_iff_repeats]
  constructor
  · rintro ⟨taken, hlength, hvalues, rfl⟩
    exact ⟨by rwa [List.size_toByteArray], by rwa [List.data_toByteArray]⟩
  · rintro ⟨hsize, hvalues⟩
    exact ⟨result.data.toList, hsize, hvalues, ByteArray.ext (by simp)⟩

/-- A word of 64 bits is two words of 32 bits, the lower one first. -/
theorem u64LE_eq_ok_iff_parts {word : UInt64} :
    u64LE c = .ok word c' ↔
      ∃ low c₁ high, u32LE c = .ok low c₁ ∧ u32LE c₁ = .ok high c' ∧
        word.toNat = low.toNat + 2 ^ 32 * high.toNat := by
  let join (low high : UInt32) : UInt64 := UInt64.ofNat (low.toNat + 2 ^ 32 * high.toNat)
  have hpower : 256 ^ 4 = 2 ^ 32 := by norm_num
  have hjoin : ∀ front back, front.length = 4 → back.length = 4 →
      UInt64.ofNat (littleEndian (front ++ back)) =
        join (UInt32.ofNat (littleEndian front)) (UInt32.ofNat (littleEndian back)) := by
    intro front back hfront hback
    simp only [join, littleEndian_append, hfront, hpower, toNat_u32LE hfront, toNat_u32LE hback]
  have hparts : u64LE c = .ok word c' ↔
      ∃ low c₁ high, u32LE c = .ok low c₁ ∧ u32LE c₁ = .ok high c' ∧ word = join low high :=
    takes_u64LE.eq_ok_iff_parts (a := 4) (b := 4) takes_u32LE takes_u32LE hjoin
  rw [hparts]
  refine exists_congr fun low => exists_congr fun c₁ => exists_congr fun high =>
    and_congr_right fun _ => and_congr_right fun _ => ?_
  have hlow := low.toNat_lt
  have hhigh := high.toNat_lt
  have hsum : low.toNat + 2 ^ 32 * high.toNat < 2 ^ 64 := by omega
  rw [← UInt64.toNat_inj, UInt64.toNat_ofNat_of_lt' hsum]

/-- Bytes that are read at once are read as they are one by one.  So many bytes are read exactly if
each of them can be, they are these bytes in their order, and the cursor stops behind the last; they
are passed over in the same cases.  If there are too few, the error stands at the start and tells
how many can be read one by one before they break off.  Two runs of bytes that follow each other are
read exactly if they are read as one.

A word is the sum of its bytes, each at the power of 256 that belongs to its place, and writing it
gives the bytes that have been read.  A word of 64 bits is made up of two words of 32 bits. -/
theorem bulk_reads_byte_by_byte (c c' : Cursor) :
    (∀ count result, bytes count c = .ok result c' ↔
      result.size = count ∧ Repeats u8 c result.data.toList c') ∧
    (∀ count e, bytes count c = .error e c' ↔
      c' = c ∧ ∃ taken e₁, taken.length < count ∧ BreaksOff u8 c taken e₁ ∧
        e = .truncated c.offset count taken.length) ∧
    (∀ count, skip count c = .ok () c' ↔
      ∃ taken, taken.length = count ∧ Repeats u8 c taken c') ∧
    (∀ a b result, bytes (a + b) c = .ok result c' ↔
      ∃ front c₁ back, bytes a c = .ok front c₁ ∧ bytes b c₁ = .ok back c' ∧
        result = front ++ back) ∧
    (∀ word, u32LE c = .ok word c' ↔
      ∃ taken, taken.length = 4 ∧ Repeats u8 c taken c' ∧
        word.toNat = ∑ i ∈ Finset.range 4, taken[i]!.toNat * 256 ^ i) ∧
    (∀ word, u64LE c = .ok word c' ↔
      ∃ taken, taken.length = 8 ∧ Repeats u8 c taken c' ∧
        word.toNat = ∑ i ∈ Finset.range 8, taken[i]!.toNat * 256 ^ i) ∧
    (∀ word, u64LE c = .ok word c' ↔
      ∃ low c₁ high, u32LE c = .ok low c₁ ∧ u32LE c₁ = .ok high c' ∧
        word.toNat = low.toNat + 2 ^ 32 * high.toNat) ∧
    (∀ word, u32LE c = .ok word c' → toLittleEndian 4 word.toNat = c.upTo c') ∧
    ∀ word, u64LE c = .ok word c' → toLittleEndian 8 word.toNat = c.upTo c' := by
  have hjoin : ∀ front back : List UInt8, (front ++ back).toByteArray =
      front.toByteArray ++ back.toByteArray := fun front back => List.toByteArray_append
  refine ⟨fun count result => bytes_eq_ok_iff_repeats,
    fun count e => (takes_bytes count).eq_error_iff_breaksOff, ?_, ?_, ?_, ?_,
    fun word => u64LE_eq_ok_iff_parts, ?_, ?_⟩
  · intro count
    have hskip : skip count c = .ok () c' ↔
        ∃ taken, taken.length = count ∧ Repeats u8 c taken c' ∧ () = () :=
      (takes_skip count).eq_ok_iff_repeats
    simpa using hskip
  · intro a b result
    exact (takes_bytes (a + b)).eq_ok_iff_parts (takes_bytes a) (takes_bytes b)
      fun front back _ _ => hjoin front back
  · intro word
    exact takes_u32LE.eq_ok_iff_sum (fun _ _ => UInt32.toNat_inj.mp) fun _ => toNat_u32LE
  · intro word
    exact takes_u64LE.eq_ok_iff_sum (fun _ _ => UInt64.toNat_inj.mp) fun _ => toNat_u64LE
  · intro word hread
    exact takes_u32LE.toLittleEndian_eq_upTo (fun _ => toNat_u32LE) hread
  · intro word hread
    exact takes_u64LE.toLittleEndian_eq_upTo (fun _ => toNat_u64LE) hread

end Bytestream.Decoder
