import Mathlib
import Bytestream.Decoder.Prefixed
import Bytestream.Proofs.Decoder.Outcome

/-!
# Elements one behind the other

The elements of a vector are read by one decoder, each where the last one has ended.  A vector is
read if its count is read and then as many elements.  If it is not, then either the count has failed,
or the first elements have been read and the next one has failed, and nothing is read behind it.
-/

namespace Bytestream.Decoder

variable {α : Type}

/-- Reads of an element, each where the last one has ended, yield the values. -/
inductive Repeats (element : Decoder α) : Cursor → List α → Cursor → Prop
  | nil (c : Cursor) : Repeats element c [] c
  | cons {c c₁ c₂ : Cursor} {value : α} {values : List α} (hvalue : element c = .ok value c₁)
      (hvalues : Repeats element c₁ values c₂) : Repeats element c (value :: values) c₂

/-- Decoders with the same successes repeat alike. -/
theorem Repeats.imp {element element' : Decoder α}
    (helement : ∀ c value c', element c = .ok value c' → element' c = .ok value c') {c c' : Cursor}
    {values : List α} (hvalues : Repeats element c values c') : Repeats element' c values c' := by
  induction hvalues with
  | nil c => exact .nil c
  | cons hvalue _ ih => exact .cons (helement _ _ _ hvalue) ih

variable {element : Decoder α} {count left : Nat} {done : Array α} {c c' : Cursor} {e : DecodeError}

/-- Values that are read one after the other are read in two runs, wherever they are parted. -/
theorem repeats_append_iff {front back : List α} :
    Repeats element c (front ++ back) c' ↔
      ∃ c₁, Repeats element c front c₁ ∧ Repeats element c₁ back c' := by
  induction front generalizing c with
  | nil =>
      constructor
      · intro hvalues
        exact ⟨c, .nil c, hvalues⟩
      · rintro ⟨c₁, hfront, hback⟩
        cases hfront
        exact hback
  | cons value front ih =>
      constructor
      · intro hvalues
        cases hvalues with
        | cons hvalue hrest =>
            obtain ⟨c₁, hfront, hback⟩ := ih.mp hrest
            exact ⟨c₁, .cons hvalue hfront, hback⟩
      · rintro ⟨c₁, hfront, hback⟩
        cases hfront with
        | cons hvalue hfront => exact .cons hvalue (ih.mpr ⟨c₁, hfront, hback⟩)

/-- So many values and then so many more are read exactly if as many as both together are read. -/
theorem exists_repeats_add_iff {a b : Nat} {p : List α → Prop} :
    (∃ values, values.length = a + b ∧ Repeats element c values c' ∧ p values) ↔
      ∃ front c₁ back, front.length = a ∧ Repeats element c front c₁ ∧
        back.length = b ∧ Repeats element c₁ back c' ∧ p (front ++ back) := by
  constructor
  · rintro ⟨values, hlength, hvalues, hp⟩
    have hparts := List.take_append_drop a values
    rw [← hparts] at hvalues hp
    obtain ⟨c₁, hfront, hback⟩ := repeats_append_iff.mp hvalues
    refine ⟨_, c₁, _, ?_, hfront, ?_, hback, hp⟩
    · rw [List.length_take, hlength, Nat.min_eq_left (Nat.le_add_right a b)]
    · rw [List.length_drop, hlength, Nat.add_sub_cancel_left]
  · rintro ⟨front, c₁, back, rfl, hfront, rfl, hback, hp⟩
    exact ⟨front ++ back, List.length_append, repeats_append_iff.mpr ⟨c₁, hfront, hback⟩, hp⟩

theorem elements_succ_eq_ok_iff {result : Array α} :
    elements element count (left + 1) done c = .ok result c' ↔
      ∃ value c₁, element c = .ok value c₁ ∧
        elements element count left (done.push value) c₁ = .ok result c' := by
  simp only [elements_succ, context, bind_eq_ok_iff, mapError_eq_ok_iff]

theorem elements_succ_eq_error_iff :
    elements element count (left + 1) done c = .error e c' ↔
      (∃ e₁, element c = .error e₁ c' ∧
        e = .nested (elementContext (count - (left + 1)) count) e₁) ∨
      ∃ value c₁, element c = .ok value c₁ ∧
        elements element count left (done.push value) c₁ = .error e c' := by
  simp only [elements_succ, context, bind_eq_error_iff, mapError_eq_ok_iff, mapError_eq_error_iff,
    DecodeError.nest]

theorem elements_eq_ok_iff {result : Array α} :
    elements element count left done c = .ok result c' ↔
      ∃ values, Repeats element c values c' ∧ values.length = left ∧
        result = done ++ values.toArray := by
  induction left generalizing done c with
  | zero =>
      constructor
      · intro hok
        cases hok
        exact ⟨[], .nil _, rfl, Array.append_empty.symm⟩
      · rintro ⟨values, hvalues, hlength, rfl⟩
        cases hvalues with
        | nil =>
            rw [Array.append_empty]
            rfl
        | cons => cases hlength
  | succ left ih =>
      rw [elements_succ_eq_ok_iff]
      constructor
      · rintro ⟨value, c₁, hvalue, hrest⟩
        obtain ⟨values, hvalues, rfl, rfl⟩ := ih.mp hrest
        exact ⟨value :: values, .cons hvalue hvalues, rfl, by simp⟩
      · rintro ⟨values, hvalues, hlength, rfl⟩
        cases hvalues with
        | nil => cases hlength
        | cons hvalue hvalues =>
            exact ⟨_, _, hvalue, ih.mpr ⟨_, hvalues, Nat.succ.inj hlength, by simp⟩⟩

/-- The element that fails is the one behind those that have been read. -/
theorem elements_eq_error_iff :
    elements element count left done c = .error e c' ↔
      ∃ values c₁ e₁, Repeats element c values c₁ ∧ values.length < left ∧
        element c₁ = .error e₁ c' ∧
        e = .nested (elementContext (count - (left - values.length)) count) e₁ := by
  induction left generalizing done c with
  | zero =>
      constructor
      · intro herror
        cases herror
      · rintro ⟨values, _, _, _, hlength, _⟩
        cases hlength
  | succ left ih =>
      rw [elements_succ_eq_error_iff]
      constructor
      · rintro (⟨e₁, hnext, rfl⟩ | ⟨value, c₁, hvalue, hrest⟩)
        · exact ⟨[], c, e₁, .nil c, Nat.succ_pos left, hnext, rfl⟩
        · obtain ⟨values, c₂, e₁, hvalues, hlength, hnext, rfl⟩ := ih.mp hrest
          exact ⟨value :: values, c₂, e₁, .cons hvalue hvalues, Nat.succ_lt_succ hlength, hnext,
            by rw [List.length_cons, Nat.add_sub_add_right]⟩
      · rintro ⟨values, c₂, e₁, hvalues, hlength, hnext, rfl⟩
        cases hvalues with
        | nil => exact Or.inl ⟨e₁, hnext, rfl⟩
        | cons hvalue hvalues =>
            refine Or.inr ⟨_, _, hvalue, ih.mpr ⟨_, c₂, e₁, hvalues,
              Nat.lt_of_succ_lt_succ hlength, hnext, ?_⟩⟩
            rw [List.length_cons, Nat.add_sub_add_right]

/-- A vector is its count and as many elements. -/
theorem vector_eq_ok_iff {result : Array α} :
    vector element c = .ok result c' ↔
      ∃ count c₁, Varint.u32 c = .ok count c₁ ∧ result.size = count.toNat ∧
        Repeats element c₁ result.toList c' := by
  rw [vector_eq, atomically_eq_ok_iff, bind_eq_ok_iff]
  constructor
  · rintro ⟨count, c₁, hcount, hread⟩
    obtain ⟨values, hvalues, hlength, rfl⟩ := elements_eq_ok_iff.mp hread
    exact ⟨count, c₁, hcount, by simpa using hlength, by simpa using hvalues⟩
  · rintro ⟨count, c₁, hcount, hsize, hvalues⟩
    exact ⟨count, c₁, hcount, elements_eq_ok_iff.mpr ⟨_, hvalues, hsize, by simp⟩⟩

/-- If a vector fails, its count has failed, or the first element that cannot be read. -/
theorem vector_eq_error_iff :
    vector element c = .error e c' ↔
      c' = c ∧ ((∃ c₁, Varint.u32 c = .error e c₁) ∨
        ∃ count c₁ values c₂ e₁ c₃, Varint.u32 c = .ok count c₁ ∧
          Repeats element c₁ values c₂ ∧ values.length < count.toNat ∧
          element c₂ = .error e₁ c₃ ∧
          e = .nested (elementContext values.length count.toNat) e₁) := by
  rw [vector_eq, atomically_eq_error_iff]
  refine and_congr_right fun _ => ?_
  constructor
  · rintro ⟨c₃, herror⟩
    rcases bind_eq_error_iff.mp herror with hcount | ⟨count, c₁, hcount, hread⟩
    · exact Or.inl ⟨c₃, hcount⟩
    · obtain ⟨values, c₂, e₁, hvalues, hlength, hnext, rfl⟩ := elements_eq_error_iff.mp hread
      rw [Nat.sub_sub_self (Nat.le_of_lt hlength)]
      exact Or.inr ⟨count, c₁, values, c₂, e₁, c₃, hcount, hvalues, hlength, hnext, rfl⟩
  · rintro (⟨c₁, hcount⟩ | ⟨count, c₁, values, c₂, e₁, c₃, hcount, hvalues, hlength, hnext, rfl⟩)
    · exact ⟨c₁, bind_eq_error_iff.mpr (Or.inl hcount)⟩
    · refine ⟨c₃, bind_eq_error_iff.mpr (Or.inr ⟨count, c₁, hcount, ?_⟩)⟩
      refine elements_eq_error_iff.mpr ⟨values, c₂, e₁, hvalues, hlength, hnext, ?_⟩
      rw [Nat.sub_sub_self (Nat.le_of_lt hlength)]

end Bytestream.Decoder
