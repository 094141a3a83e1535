import Bytestream.Status.Basic

/-!
# Walks along a status

A walk goes through the nodes of a status from the top to the root, one at a time.  Once it has
passed the root it stays at its end, however often it is asked for more.
-/

namespace Bytestream.Status

/-- A place on the way from the top of a chain to its root. -/
structure Walk where
  /-- The node that comes next, if the walk is not at its end. -/
  upcoming : Option Status
deriving DecidableEq

/-- The walk that starts at the top. -/
def walk (s : Status) : Walk :=
  ⟨some s⟩

namespace Walk

/-- The next node, and the walk behind it. -/
def next (w : Walk) : Option Status × Walk :=
  match w.upcoming with
  | some s => (some s, ⟨s.cause?⟩)
  | none => (none, w)

/-- Passes over `count` nodes and takes the one after them.  The walk stops for good at its end, so
a count beyond the chain is no more work than the chain is long. -/
def nth : (count : Nat) → Walk → Option Status × Walk
  | 0, w => w.next
  | count + 1, w =>
      match w.upcoming with
      | some s => nth count ⟨s.cause?⟩
      | none => (none, w)

/-- The nodes that are still to come. -/
def toList (w : Walk) : List Status :=
  match w.upcoming with
  | some s => s.nodes
  | none => []

@[simp] theorem toList_walk (s : Status) : s.walk.toList = s.nodes := rfl

/-- Taking the next node takes the head of the nodes to come. -/
theorem next_eq (w : Walk) : w.next.1 = w.toList.head? ∧ w.next.2.toList = w.toList.tail := by
  rcases w with ⟨_ | s⟩
  · exact ⟨rfl, rfl⟩
  · cases s <;> simp [next, toList, cause?]

/-- Counting on takes the node at that place, and leaves those after it. -/
theorem nth_eq (count : Nat) (w : Walk) :
    (nth count w).1 = w.toList[count]? ∧ (nth count w).2.toList = w.toList.drop (count + 1) := by
  induction count generalizing w with
  | zero =>
      rw [nth, ← List.head?_eq_getElem?, List.drop_one]
      exact next_eq w
  | succ count ih =>
      rcases w with ⟨_ | s⟩
      · simp [nth, toList]
      · have hcause := ih ⟨s.cause?⟩
        cases s <;> simpa [nth, toList, cause?] using hcause

end Walk

end Bytestream.Status
