import Mathlib

/-!
# Numbers inside a text

A number in a text ends at the first character that is no digit.  A text that is put together from
numbers and fixed pieces between them can therefore be read in one way only, as long as no piece
that follows a number starts with a digit.
-/

namespace Bytestream.Text

/-- Whether a number right in front of the text ends there. -/
def EndsNumber (rest : String) : Prop :=
  ∀ c ∈ rest.toList.head?, c.isDigit = false

theorem endsNumber_of_head? {c : Char} {rest : String} (hrest : rest.toList.head? = some c)
    (hdigit : c.isDigit = false) : EndsNumber rest := by
  intro c' hc'
  rw [hrest] at hc'
  cases hc'
  exact hdigit

/-- A text starts with the first character of its first piece. -/
theorem head?_append {c : Char} {front : String} (hfront : front.toList.head? = some c)
    (back : String) : (front ++ back).toList.head? = some c := by
  rw [String.toList_append, List.head?_append, hfront]
  rfl

/-- The digits of a number are what stands in front of a text that ends it. -/
theorem takeWhile_isDigit_repr_append (n : Nat) {rest : String} (hrest : EndsNumber rest) :
    (n.repr ++ rest).toList.takeWhile Char.isDigit = n.repr.toList := by
  have hdigits : ∀ c ∈ n.repr.toList, c.isDigit = true := by
    intro c hc
    rw [Nat.toList_repr] at hc
    exact Nat.isDigit_of_mem_toDigits (by decide) (by decide) hc
  have hstop : rest.toList.takeWhile Char.isDigit = [] := by
    cases hrest' : rest.toList with
    | nil => rfl
    | cons c tail =>
        have hdigit : c.isDigit = false := hrest c (by rw [hrest']; rfl)
        rw [List.takeWhile_cons_of_neg (by simp [hdigit])]
  rw [String.toList_append, List.takeWhile_append_of_pos hdigits, hstop, List.append_nil]

/-- A number and the text that ends it can be told apart. -/
theorem repr_append_inj {m n : Nat} {s t : String} (hs : EndsNumber s) (ht : EndsNumber t)
    (heq : m.repr ++ s = n.repr ++ t) : m = n ∧ s = t := by
  have hdigits : m.repr = n.repr := by
    apply String.toList_inj.mp
    rw [← takeWhile_isDigit_repr_append m hs, heq, takeWhile_isDigit_repr_append n ht]
  refine ⟨Nat.repr_inj.mp hdigits, ?_⟩
  rw [hdigits] at heq
  exact (String.append_right_inj n.repr).mp heq

end Bytestream.Text
