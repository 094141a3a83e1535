import Mathlib
import Bytestream.Proofs.Decoder.Repetition
import Bytestream.Proofs.Decoder.Transaction

/-!
# Vectors, element by element

Once its count has been read, a vector is settled by what its elements do from there on: either as
many of them are read as the count says, or they break off before.  Only the elements up to the
first failure matter, since none is read behind it: an element that counts how often it is called is
called once for each value and once more for the failure.

A count may be as large as `2 ^ 32 - 1` in a buffer of a few bytes.  It costs nothing if the elements
make progress: no more elements can be read than there are bytes, so that the first failure comes
after as many elements at most.
-/

namespace Bytestream.Decoder

variable {α : Type} {element : Decoder α} {c c' : Cursor}

/-- Of the reads of an element from `c` on, each that succeeds takes a byte at least. -/
def Progresses (element : Decoder α) (c : Cursor) : Prop :=
  ∀ ⦃values : List α⦄ ⦃c₁ c₂ : Cursor⦄ ⦃value : α⦄, Repeats element c values c₁ →
    element c₁ = .ok value c₂ → c₂.data = c₁.data ∧ c₁.offset + 1 ≤ c₂.offset

/-- From `c` on, the element is read with these values and then fails. -/
def BreaksOff (element : Decoder α) (c : Cursor) (values : List α) (e : DecodeError) : Prop :=
  ∃ c₁ c₂, Repeats element c values c₁ ∧ element c₁ = .error e c₂

/-! ### Progress -/

/-- An element that takes a byte wherever it is read makes progress. -/
theorem Advances.progresses (hadvances : Advances element 1) (c : Cursor) :
    Progresses element c :=
  fun _ _ _ _ _ hvalue => hadvances hvalue

/-- The reads behind the first are among the reads from the start on. -/
theorem Progresses.after_first {value : α} (hprogress : Progresses element c)
    (hvalue : element c = .ok value c') : Progresses element c' :=
  fun _ _ _ _ hvalues hnext => hprogress (.cons hvalue hvalues) hnext

/-- Elements that make progress take as many bytes at least as they are. -/
theorem Repeats.offset_add_length_le {values : List α} (hvalues : Repeats element c values c')
    (hprogress : Progresses element c) :
    c'.data = c.data ∧ c.offset + values.length ≤ c'.offset := by
  induction hvalues with
  | nil c => exact ⟨rfl, Nat.le_refl _⟩
  | @cons c c₁ c₂ value values hvalue _ ih =>
      obtain ⟨hdata₁, hoffset₁⟩ := hprogress (.nil c) hvalue
      obtain ⟨hdata₂, hoffset₂⟩ := ih (hprogress.after_first hvalue)
      refine ⟨hdata₂.trans hdata₁, ?_⟩
      rw [List.length_cons]
      omega

theorem Repeats.length_le_remaining {values : List α} (hvalues : Repeats element c values c')
    (hprogress : Progresses element c) : values.length ≤ c.remaining := by
  obtain ⟨hdata, hoffset⟩ := hvalues.offset_add_length_le hprogress
  have hend := c'.offset_le
  have hsize := c.offset_add_remaining
  rw [hdata] at hend
  omega

/-! ### Calls -/

/-- An element that counts how often it is called. -/
def counted (element : Decoder α) (c : Cursor) :
    StateM Nat (EStateM.Result DecodeError Cursor α) := do
  modify (· + 1)
  return element c

/-- One more element is one more call, and a failure is the last one. -/
theorem elementsM_counted_succ (element : Decoder α) (count left : Nat) (done : Array α)
    (c : Cursor) (calls : Nat) :
    (elementsM (counted element) count (left + 1) done c).run calls =
      match element c with
      | .ok value c' =>
          (elementsM (counted element) count left (done.push value) c').run (calls + 1)
      | .error e c' =>
          (.error (.nested (elementContext (count - (left + 1)) count) e) c', calls + 1) := by
  simp only [elementsM, counted, bind_assoc, pure_bind, StateT.run_bind, StateT.run_modify]
  cases element c <;> rfl

/-- Elements that are read are called once each, before any other one is. -/
theorem Repeats.elementsM_counted {values : List α} (hvalues : Repeats element c values c')
    (count more calls : Nat) (done : Array α) :
    (elementsM (counted element) count (values.length + more) done c).run calls =
      (elementsM (counted element) count more (done ++ values.toArray) c').run
        (calls + values.length) := by
  induction hvalues generalizing calls done with
  | nil c => simp
  | @cons c c₁ c₂ value values hvalue _ ih =>
      have hdone : done.push value ++ values.toArray = done ++ (value :: values).toArray := by simp
      rw [List.length_cons, Nat.add_right_comm, elementsM_counted_succ, hvalue]
      simp only [ih, hdone]
      rw [Nat.add_assoc, Nat.add_comm 1]

/-! ### The elements behind a count -/

section Counted

variable {count : UInt32} {c₁ : Cursor}

theorem vector_eq_ok_iff_of_count (hcount : Varint.u32 c = .ok count c₁) {result : Array α} :
    vector element c = .ok result c' ↔
      result.size = count.toNat ∧ Repeats element c₁ result.toList c' := by
  rw [vector_eq_ok_iff]
  constructor
  · rintro ⟨count', c₂, hcount', hsize, hvalues⟩
    rw [hcount] at hcount'
    cases hcount'
    exact ⟨hsize, hvalues⟩
  · rintro ⟨hsize, hvalues⟩
    exact ⟨count, c₁, hcount, hsize, hvalues⟩

/-- Elements that break off before the count is reached are all that a vector depends on. -/
theorem vector_of_breaksOff (hcount : Varint.u32 c = .ok count c₁) {values : List α}
    {e : DecodeError} (hlength : values.length < count.toNat)
    (hbreaks : BreaksOff element c₁ values e) :
    vector element c =
      .error (.nested s!"vector element {values.length} of {count.toNat}" e) c := by
  obtain ⟨c₂, c₃, hvalues, hnext⟩ := hbreaks
  exact vector_eq_error_iff.mpr
    ⟨rfl, Or.inr ⟨count, c₁, values, c₂, e, c₃, hcount, hvalues, hlength, hnext, rfl⟩⟩

theorem vector_eq_error_iff_of_count (hcount : Varint.u32 c = .ok count c₁) {e : DecodeError} :
    vector element c = .error e c' ↔
      c' = c ∧ ∃ values e₁, values.length < count.toNat ∧ BreaksOff element c₁ values e₁ ∧
        e = .nested s!"vector element {values.length} of {count.toNat}" e₁ := by
  constructor
  · intro herror
    obtain ⟨rfl, ⟨c₂, hfailed⟩ |
      ⟨count', c₂, values, c₃, e₁, c₄, hcount', hvalues, hlength, hnext, rfl⟩⟩ :=
        vector_eq_error_iff.mp herror
    · rw [hcount] at hfailed
      cases hfailed
    · rw [hcount] at hcount'
      cases hcount'
      exact ⟨rfl, values, e₁, hlength, ⟨c₃, c₄, hvalues, hnext⟩, rfl⟩
  · rintro ⟨rfl, values, e₁, hlength, hbreaks, rfl⟩
    exact vector_of_breaksOff hcount hlength hbreaks

/-- Behind its count a vector calls what its elements call. -/
theorem vectorM_counted (hcount : Varint.u32 c = .ok count c₁) {values : List α} {left : Nat}
    (hvalues : Repeats element c₁ values c') (hlength : values.length + left = count.toNat) :
    (vectorM (counted element) c).run 0 =
      match (elementsM (counted element) count.toNat left values.toArray c').run values.length with
      | (.ok result c₂, calls) => (.ok result c₂, calls)
      | (.error e _, calls) => (.error e c, calls) := by
  have hread := hvalues.elementsM_counted count.toNat left 0 #[]
  rw [hlength, Array.empty_append, Nat.zero_add] at hread
  rw [← hread]
  simp only [vectorM, hcount, StateT.run_bind]
  rcases (elementsM (counted element) count.toNat count.toNat #[] c₁).run 0 with ⟨ended, calls⟩
  cases ended <;> rfl

theorem vectorM_counted_of_ok (hcount : Varint.u32 c = .ok count c₁) {result : Array α}
    (hresult : vector element c = .ok result c') :
    (vectorM (counted element) c).run 0 = (.ok result c', count.toNat) := by
  obtain ⟨hsize, hvalues⟩ := (vector_eq_ok_iff_of_count hcount).mp hresult
  have hlength : result.toList.length + 0 = count.toNat := hsize
  rw [vectorM_counted hcount hvalues hlength, ← hsize]
  rfl

theorem vectorM_counted_of_breaksOff (hcount : Varint.u32 c = .ok count c₁) {values : List α}
    {e : DecodeError} (hlength : values.length < count.toNat)
    (hbreaks : BreaksOff element c₁ values e) :
    (vectorM (counted element) c).run 0 =
      (.error (.nested s!"vector element {values.length} of {count.toNat}" e) c,
        values.length + 1) := by
  obtain ⟨c₂, c₃, hvalues, hnext⟩ := hbreaks
  obtain ⟨left, hleft⟩ := Nat.exists_eq_add_of_lt hlength
  have hcalls : values.length + (left + 1) = count.toNat := hleft.symm
  have hindex : count.toNat - (left + 1) = values.length := Nat.sub_eq_of_eq_add hleft
  rw [vectorM_counted hcount hvalues hcalls, elementsM_counted_succ, hnext, hindex]
  rfl

end Counted

/-- A vector fails with its count, calls no element then and adds nothing to the error.  Behind a
count it yields exactly the values that so many reads of the element yield one after the other, and
stops where the last of them has ended; or it fails at the first element that fails, says which one
that was, and goes back to the start.  The element is called once for each value and once for the
failure, and never behind it, so that what it would do there does not matter.  If the elements make
progress, the values are no more than the bytes behind the count, and neither is the number of the
element that fails, whatever the count. -/
theorem vector_in_sequence (element : Decoder α) (c : Cursor) :
    match Varint.u32 c with
    | .error e _ =>
        vector element c = .error e c ∧ (vectorM (counted element) c).run 0 = (.error e c, 0)
    | .ok count c₁ =>
        (∀ values c', vector element c = .ok values c' ↔
          values.size = count.toNat ∧ Repeats element c₁ values.toList c') ∧
        (∀ e c', vector element c = .error e c' ↔
          c' = c ∧ ∃ values e₁, values.length < count.toNat ∧ BreaksOff element c₁ values e₁ ∧
            e = .nested s!"vector element {values.length} of {count.toNat}" e₁) ∧
        (∀ values c', vector element c = .ok values c' →
          (vectorM (counted element) c).run 0 = (.ok values c', count.toNat)) ∧
        (∀ values e, values.length < count.toNat → BreaksOff element c₁ values e →
          (vectorM (counted element) c).run 0 =
            (.error (.nested s!"vector element {values.length} of {count.toNat}" e) c,
              values.length + 1) ∧
          ∀ element' : Decoder α, BreaksOff element' c₁ values e →
            vector element' c = vector element c) ∧
        (Progresses element c₁ →
          (∀ values c', vector element c = .ok values c' → count.toNat ≤ c₁.remaining) ∧
          ∀ values e, values.length < count.toNat → BreaksOff element c₁ values e →
            values.length ≤ min c₁.remaining (count.toNat - 1)) := by
  cases hcount : Varint.u32 c with
  | error e c₁ =>
      refine ⟨vector_eq_error_iff.mpr ⟨rfl, Or.inl ⟨c₁, hcount⟩⟩, ?_⟩
      rw [vectorM, hcount]
      rfl
  | ok count c₁ =>
      refine ⟨fun values c' => vector_eq_ok_iff_of_count hcount,
        fun e c' => vector_eq_error_iff_of_count hcount,
        fun values c' => vectorM_counted_of_ok hcount, ?_, ?_⟩
      · intro values e hlength hbreaks
        refine ⟨vectorM_counted_of_breaksOff hcount hlength hbreaks, ?_⟩
        intro element' hbreaks'
        rw [vector_of_breaksOff hcount hlength hbreaks,
          vector_of_breaksOff hcount hlength hbreaks']
      · intro hprogress
        constructor
        · intro values c' hread
          obtain ⟨hsize, hvalues⟩ := (vector_eq_ok_iff_of_count hcount).mp hread
          rw [← hsize, ← Array.length_toList]
          exact hvalues.length_le_remaining hprogress
        · rintro values e hlength ⟨c₂, c₃, hvalues, _⟩
          exact le_min (hvalues.length_le_remaining hprogress) (Nat.le_pred_of_lt hlength)

/-- The count `2 ^ 32 - 1` with two bytes behind it. -/
def hugeCount : ByteArray :=
  ⟨#[0xFF, 0xFF, 0xFF, 0xFF, 0x0F, 0x01, 0x02]⟩

/-- Two elements are read, as many as there are bytes, and the vector fails at the third call. -/
theorem vector_hugeCount :
    vector u8 (.ofBytes hugeCount) =
        .error (.nested "vector element 2 of 4294967295" (.truncated 7 1 0)) (.ofBytes hugeCount) ∧
      (vectorM (counted u8) (.ofBytes hugeCount)).run 0 =
        (.error (.nested "vector element 2 of 4294967295" (.truncated 7 1 0)) (.ofBytes hugeCount),
          3) ∧
      2 ≤ min 2 (4294967295 - 1) := by
  obtain ⟨_, herror, _, hcalls, hbound⟩ := vector_in_sequence u8 (.ofBytes hugeCount)
  have hlength : [1, 2].length < (4294967295 : UInt32).toNat := by decide
  have hbreaks : BreaksOff u8 ⟨hugeCount, 5, by decide⟩ [1, 2] (.truncated 7 1 0) :=
    ⟨_, _, .cons rfl (.cons rfl (.nil _)), rfl⟩
  refine ⟨?_, ?_, ?_⟩
  · exact (herror _ _).mpr ⟨rfl, [1, 2], .truncated 7 1 0, hlength, hbreaks, rfl⟩
  · exact (hcalls [1, 2] (.truncated 7 1 0) hlength hbreaks).1
  · exact (hbound (advances_u8.progresses _)).2 [1, 2] (.truncated 7 1 0) hlength hbreaks

end Bytestream.Decoder
