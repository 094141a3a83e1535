import Mathlib
import Bytestream.DecodeError.Text
import Bytestream.Proofs.Text.Decimal

/-!
# Messages of decode errors

The message of a cause names its kind and all of its figures, so no two causes have the same
message: the three kinds differ in their first letter, and the figures stand between pieces that no
number can run into.  The messages of an error with contexts are met one after the other on the way
from each error to its source.
-/

namespace Bytestream.DecodeError

open Text

/-! ### From each error to its source -/

theorem sizeOf_lt_of_source? {e inner : DecodeError} (hsource : e.source? = some inner) :
    sizeOf inner < sizeOf e := by
  cases e with
  | nested context source =>
      cases hsource
      simp
  | _ => cases hsource

/-- The error and what lies inside it, from each error to its source. -/
def sources (e : DecodeError) : List DecodeError :=
  match hsource : e.source? with
  | some inner =>
      have := sizeOf_lt_of_source? hsource
      e :: sources inner
  | none => [e]
termination_by e

theorem sources_nested (context : String) (e : DecodeError) :
    (nested context e).sources = nested context e :: e.sources := by
  rw [sources]
  rfl

theorem sources_of_source?_eq_none {e : DecodeError} (hsource : e.source? = none) :
    e.sources = [e] := by
  rw [sources]
  split
  case h_1 inner hinner => rw [hsource] at hinner; cases hinner
  case h_2 => rfl

/-- Whoever goes from source to source reads the contexts and at last the message of the cause. -/
theorem map_message_sources (e : DecodeError) :
    e.sources.map message = e.contexts ++ [e.root.message] := by
  induction e with
  | nested context e ih =>
      rw [sources_nested, List.map_cons, ih, contexts_nested, root_nested]
      rfl
  | _ =>
      rw [sources_of_source?_eq_none rfl]
      rfl

/-! ### One message for each cause -/

theorem message_overflow (bits offset : Nat) :
    (overflow bits offset).message =
      "LEB128 overflow (max bits=" ++ (bits.repr ++ (") at offset " ++ offset.repr)) := by
  change "LEB128 overflow (max bits=" ++ bits.repr ++ ") at offset " ++ offset.repr = _
  rw [@String.append_assoc (_ ++ _), @String.append_assoc _ bits.repr]

theorem message_truncated (offset needed available : Nat) :
    (truncated offset needed available).message =
      "unexpected end of input at offset " ++ (offset.repr ++ (": needed " ++ (needed.repr ++
        (" byte(s), " ++ (available.repr ++ " available"))))) := by
  change "unexpected end of input at offset " ++ offset.repr ++ ": needed " ++ needed.repr ++
    " byte(s), " ++ available.repr ++ " available" = _
  rw [@String.append_assoc (_ ++ _ ++ _ ++ _ ++ _), @String.append_assoc (_ ++ _ ++ _ ++ _),
    @String.append_assoc (_ ++ _ ++ _), @String.append_assoc (_ ++ _),
    @String.append_assoc _ offset.repr]

theorem message_invalidUtf8 (offset : Nat) :
    (invalidUtf8 offset).message = "invalid UTF-8 string at offset " ++ offset.repr :=
  rfl

/-- The first letter of a message tells the kind of the cause. -/
@[simp] theorem head?_message_overflow (bits offset : Nat) :
    (overflow bits offset).message.toList.head? = some 'L' := by
  rw [message_overflow]
  exact head?_append rfl _

@[simp] theorem head?_message_truncated (offset needed available : Nat) :
    (truncated offset needed available).message.toList.head? = some 'u' := by
  rw [message_truncated]
  exact head?_append rfl _

@[simp] theorem head?_message_invalidUtf8 (offset : Nat) :
    (invalidUtf8 offset).message.toList.head? = some 'i' := by
  rw [message_invalidUtf8]
  exact head?_append rfl _

theorem message_overflow_inj {bits offset bits' offset' : Nat}
    (hmessage : (overflow bits offset).message = (overflow bits' offset').message) :
    bits = bits' ∧ offset = offset' := by
  have hpiece : ∀ back, EndsNumber (") at offset " ++ back) :=
    fun back => endsNumber_of_head? (head?_append rfl back) rfl
  rw [message_overflow, message_overflow, String.append_right_inj] at hmessage
  obtain ⟨hbits, hrest⟩ := repr_append_inj (hpiece _) (hpiece _) hmessage
  rw [String.append_right_inj] at hrest
  exact ⟨hbits, Nat.repr_inj.mp hrest⟩

theorem message_truncated_inj {offset needed available offset' needed' available' : Nat}
    (hmessage : (truncated offset needed available).message =
      (truncated offset' needed' available').message) :
    offset = offset' ∧ needed = needed' ∧ available = available' := by
  have hfirst : ∀ back, EndsNumber (": needed " ++ back) :=
    fun back => endsNumber_of_head? (head?_append rfl back) rfl
  have hsecond : ∀ back, EndsNumber (" byte(s), " ++ back) :=
    fun back => endsNumber_of_head? (head?_append rfl back) rfl
  have hlast : EndsNumber " available" := endsNumber_of_head? rfl rfl
  rw [message_truncated, message_truncated, String.append_right_inj] at hmessage
  obtain ⟨hoffset, hrest⟩ := repr_append_inj (hfirst _) (hfirst _) hmessage
  rw [String.append_right_inj] at hrest
  obtain ⟨hneeded, hrest⟩ := repr_append_inj (hsecond _) (hsecond _) hrest
  rw [String.append_right_inj] at hrest
  obtain ⟨havailable, _⟩ := repr_append_inj hlast hlast hrest
  exact ⟨hoffset, hneeded, havailable⟩

/-- A cause can be told from its message. -/
theorem eq_of_message_eq {e e' : DecodeError} (he : e.kind ≠ .nested) (he' : e'.kind ≠ .nested)
    (hmessage : e.message = e'.message) : e = e' := by
  have hhead : e.message.toList.head? = e'.message.toList.head? := by rw [hmessage]
  cases e with
  | nested context source => exact absurd rfl he
  | overflow bits offset =>
      cases e' with
      | overflow bits' offset' =>
          obtain ⟨rfl, rfl⟩ := message_overflow_inj hmessage
          rfl
      | nested context source => exact absurd rfl he'
      | _ => simp at hhead
  | truncated offset needed available =>
      cases e' with
      | truncated offset' needed' available' =>
          obtain ⟨rfl, rfl, rfl⟩ := message_truncated_inj hmessage
          rfl
      | nested context source => exact absurd rfl he'
      | _ => simp at hhead
  | invalidUtf8 offset =>
      cases e' with
      | invalidUtf8 offset' =>
          rw [message_invalidUtf8, message_invalidUtf8, String.append_right_inj] at hmessage
          rw [Nat.repr_inj.mp hmessage]
      | nested context source => exact absurd rfl he'
      | _ => simp at hhead

end Bytestream.DecodeError
