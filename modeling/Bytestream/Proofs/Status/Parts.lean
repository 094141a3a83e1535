import Mathlib
import Bytestream.Status.Walk

/-!
# The parts of a status

A status is a list of messages over a root: the messages of its nested failures, outermost first, and
the success or failure in which the chain ends.  Every status is put together from such parts in
exactly one way, and what is done along the chain can be read off them.  Two statuses are the same if
their parts are.  The nodes of the chain are the suffixes of the list over the root, and a walk
yields these one after the other and nothing after them.
-/

namespace Bytestream.Status

/-- What a chain ends in. -/
inductive Root where
  | ok
  | failed (message : String)
deriving DecidableEq, Repr

def Root.status : Root → Status
  | ok => .ok
  | failed message => .failed message

theorem Root.status_injective : Function.Injective Root.status := by
  intro root root' hstatus
  cases root with
  | ok =>
      cases root' with
      | ok => rfl
      | failed message => cases hstatus
  | failed message =>
      cases root' with
      | ok => cases hstatus
      | failed message' => rw [Status.failed.inj hstatus]

/-- What a chain is made of. -/
structure Parts where
  /-- The messages of the nested failures, outermost first. -/
  messages : List String
  root : Root
deriving DecidableEq, Repr

namespace Parts

/-- The chain with these parts. -/
def status (p : Parts) : Status :=
  p.messages.foldr nested p.root.status

/-- The chains over the suffixes of the list of messages, the longest first. -/
def suffixes (p : Parts) : List Status :=
  p.messages.tails.map fun rest => status ⟨rest, p.root⟩

@[simp] theorem status_cons (message : String) (messages : List String) (root : Root) :
    status ⟨message :: messages, root⟩ = nested message (status ⟨messages, root⟩) := rfl

@[simp] theorem contexts_status (p : Parts) : p.status.contexts = p.messages := by
  obtain ⟨messages, root⟩ := p
  induction messages with
  | nil => cases root <;> rfl
  | cons message messages ih => rw [status_cons, contexts_nested, ih]

@[simp] theorem rootCause_status (p : Parts) : p.status.rootCause = p.root.status := by
  obtain ⟨messages, root⟩ := p
  induction messages with
  | nil => cases root <;> rfl
  | cons message messages ih => rw [status_cons, rootCause, ih]

theorem status_injective : Function.Injective status := by
  intro p q hstatus
  have hmessages : p.messages = q.messages := by
    rw [← contexts_status, hstatus, contexts_status]
  have hroot : p.root.status = q.root.status := by
    rw [← rootCause_status, hstatus, rootCause_status]
  cases p
  cases q
  rw [Parts.mk.injEq]
  exact ⟨hmessages, Root.status_injective hroot⟩

/-- Each status has its parts, and no two have the same. -/
theorem status_bijective : Function.Bijective status := by
  refine ⟨status_injective, ?_⟩
  intro s
  induction s with
  | ok => exact ⟨⟨[], .ok⟩, rfl⟩
  | failed message => exact ⟨⟨[], .failed message⟩, rfl⟩
  | nested message cause ih =>
      obtain ⟨p, rfl⟩ := ih
      exact ⟨⟨message :: p.messages, p.root⟩, rfl⟩

theorem nodes_status (p : Parts) : p.status.nodes = p.suffixes := by
  obtain ⟨messages, root⟩ := p
  induction messages with
  | nil => cases root <;> rfl
  | cons message messages ih =>
      rw [status_cons, nodes_nested, ih]
      rfl

theorem length_suffixes (p : Parts) : p.suffixes.length = p.status.depth := by
  rw [← nodes_status]
  rfl

end Parts

/-! ### Down the chain -/

/-- The status that is reached by going on to the cause so many times. -/
def causeAfter : (count : Nat) → Status → Option Status
  | 0, s => some s
  | count + 1, s => s.cause?.bind (causeAfter count)

theorem getElem?_nodes (s : Status) (count : Nat) : s.nodes[count]? = s.causeAfter count := by
  induction count generalizing s with
  | zero => cases s <;> simp [causeAfter]
  | succ count ih => cases s <;> simp [causeAfter, cause?, ih]

theorem depth_of_getElem?_nodes {s node : Status} {count : Nat}
    (hnode : s.nodes[count]? = some node) : node.depth = s.depth - count := by
  induction count generalizing s with
  | zero =>
      rw [getElem?_nodes] at hnode
      cases hnode
      rfl
  | succ count ih =>
      cases s with
      | nested message cause =>
          rw [nodes_nested, List.getElem?_cons_succ] at hnode
          rw [ih hnode, depth_nested, Nat.add_sub_add_right]
      | _ => simp at hnode

theorem getLast?_nodes (s : Status) : s.nodes.getLast? = some s.rootCause := by
  induction s with
  | nested message cause ih => rw [nodes_nested, List.getLast?_cons, ih, rootCause, Option.getD_some]
  | _ => rfl

theorem cause?_rootCause (s : Status) : s.rootCause.cause? = none := by
  induction s with
  | nested message cause ih => exact ih
  | _ => rfl

namespace Walk

/-- Asked for the next node again and again, the walk yields these nodes, and from then on it has
none and does not move. -/
inductive Drains : Walk → List Status → Prop
  | ended {w : Walk} (hnext : w.next = (none, w)) : Drains w []
  | more {w w' : Walk} {s : Status} {nodes : List Status} (hnext : w.next = (some s, w'))
      (hrest : Drains w' nodes) : Drains w (s :: nodes)

theorem drains_toList (w : Walk) : w.Drains w.toList := by
  rcases w with ⟨_ | s⟩
  · exact .ended rfl
  · induction s with
    | nested message cause ih =>
        have hnodes : (walk (nested message cause)).toList =
            nested message cause :: (walk cause).toList := nodes_nested message cause
        exact hnodes ▸ .more rfl ih
    | _ => exact .more rfl (.ended rfl)

theorem drains_nth (count : Nat) (w : Walk) :
    (w.nth count).2.Drains (w.toList.drop (count + 1)) := by
  rw [← (nth_eq count w).2]
  exact drains_toList _

/-- A walk that has come to its end stays there, however far on it is asked to go. -/
theorem nth_of_drains_nil {w : Walk} (hend : w.Drains []) (count : Nat) :
    w.nth count = (none, w) := by
  rcases w with ⟨_ | s⟩
  · cases count <;> rfl
  · cases hend with
    | ended hnext => cases hnext

end Walk

/-- What is done along a chain is what its parts say.  A chain has one list of messages and one
root.  Two chains are found the same exactly if their parts are, and a copy has the parts of what
was copied.  A walk yields the suffixes of the list over the root, the longest first, as many as the
chain is deep, and then ends for good.  The node at each place is reached by going on to the cause so
many times, and is less deep by as much; counting on to it leaves the walk with those behind it, or
at its end if there are none.  The root cause is the last node, and has no cause.  Nesting puts a
message in front of the list and makes a failure of anything. -/
theorem operations_follow_parts :
    Function.Bijective Parts.status ∧
    (∀ p q : Parts, same p.status q.status = true ↔ p = q) ∧
    (∀ p : Parts, p.status.copy = p.status) ∧
    (∀ p : Parts,
      p.status.walk.Drains p.suffixes ∧ p.suffixes.length = p.status.depth ∧
        ∀ count, p.suffixes[count]? = p.status.causeAfter count ∧
          (∀ node, p.suffixes[count]? = some node → node.depth = p.status.depth - count) ∧
          (p.status.walk.nth count).1 = p.suffixes[count]? ∧
          (p.status.walk.nth count).2.Drains (p.suffixes.drop (count + 1)) ∧
          (p.suffixes.drop (count + 1)).length = p.status.depth - count - 1) ∧
    (∀ w : Walk, w.Drains [] → ∀ count, w.nth count = (none, w)) ∧
    (∀ p : Parts,
      p.suffixes.getLast? = some p.status.rootCause ∧ p.status.rootCause = p.root.status ∧
        p.status.rootCause.cause? = none) ∧
    ∀ (p : Parts) (message : String),
      p.status.nest message = Parts.status ⟨message :: p.messages, p.root⟩ ∧
        (p.status.nest message).message? = some message ∧
        (p.status.nest message).cause? = some p.status ∧
        (p.status.nest message).depth = p.status.depth + 1 ∧
        (p.status.nest message).rootCause = p.status.rootCause ∧
        (p.status.nest message).isFailure = true := by
  refine ⟨Parts.status_bijective, ?_, fun p => p.status.copy_eq, ?_,
    fun w hend count => Walk.nth_of_drains_nil hend count, ?_, ?_⟩
  · intro p q
    rw [same_iff, Parts.status_injective.eq_iff]
  · intro p
    have hnodes := p.nodes_status
    refine ⟨hnodes ▸ Walk.drains_toList p.status.walk, p.length_suffixes, ?_⟩
    intro count
    rw [← hnodes]
    refine ⟨getElem?_nodes p.status count, fun node hnode => depth_of_getElem?_nodes hnode,
      (Walk.nth_eq count p.status.walk).1, Walk.drains_nth count p.status.walk, ?_⟩
    rw [List.length_drop, Nat.sub_sub]
    rfl
  · intro p
    rw [← p.nodes_status]
    exact ⟨getLast?_nodes p.status, p.rootCause_status, cause?_rootCause p.status⟩
  · intro p message
    rw [nest_eq]
    exact ⟨rfl, rfl, rfl, depth_nested message p.status, rfl, rfl⟩

end Bytestream.Status
