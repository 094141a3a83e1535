import Bytestream.Status.Basic

/-!
# Releasing a chain of statuses

A long chain of statuses is taken apart from the top down, one node at a time, so that no node is
ever released with a long chain still below it.  A node that has lost its cause has a success in its
place.
-/

namespace Bytestream.Status

/-- Takes out the cause of the node on top.  The result is the cause, if there is one, and what is
left of the node. -/
def detach : Status → Option Status × Status
  | nested message cause => (some cause, nested message ok)
  | s => (none, s)

theorem depth_lt_of_detach {s inner : Status} (hinner : s.detach.1 = some inner) :
    inner.depth < s.depth := by
  cases s with
  | nested message cause =>
      cases hinner
      simp
  | _ => cases hinner

theorem depth_pos (s : Status) : 0 < s.depth := by
  cases s <;> simp [depth]

/-- Releases a node that has been taken out of the chain, after its own cause has been taken out of
it, and goes on with the cause.  The list shows what was left of each node when it was released. -/
def releaseFrom (next? : Option Status) : List Status :=
  match next? with
  | some s => s.detach.2 :: releaseFrom s.detach.1
  | none => []
termination_by next?.elim 0 depth
decreasing_by
  rcases hinner : s.detach.1 with _ | inner
  · simpa using depth_pos s
  · simpa using depth_lt_of_detach hinner

/-- The nodes that are released before `s` itself is, in their order. -/
def released (s : Status) : List Status :=
  releaseFrom s.detach.1

/-- The statuses whose own release is part of the release of `s`: the nodes below it, one after the
other, and in the end what then stands in place of its cause. -/
def handedOn (s : Status) : List Status :=
  s.released ++ s.detach.2.cause?.toList

end Bytestream.Status
