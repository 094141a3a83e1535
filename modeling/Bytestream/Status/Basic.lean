/-!
# Statuses

A status tells how an operation went: well, badly for a reason, or badly with an earlier status as
the cause.  A status with causes is a chain of nodes from the latest failure down to the first one,
and each node below it is itself a status.  A failure may even be nested over a success.

Chains can be very long, so the walks along them take constant stack space.
-/

namespace Bytestream

/-- How an operation went. -/
inductive Status where
  | ok
  /-- The operation failed for the given reason. -/
  | failed (message : String)
  /-- The operation failed because of an earlier status. -/
  | nested (message : String) (cause : Status)
deriving Repr, Inhabited

namespace Status

/-- A copy of the chain.  The messages are gathered on the way down to the root, and the copy grows
around the root from the innermost message outwards. -/
def copy (s : Status) : Status :=
  go #[] s
where
  /-- Goes on below the nodes with the messages in `above`, the outermost of which comes first. -/
  go (above : Array String) : Status → Status
    | ok => above.foldr nested ok
    | failed message => above.foldr nested (failed message)
    | nested message cause => go (above.push message) cause

theorem copy.go_eq (above : Array String) (s : Status) :
    copy.go above s = above.foldr nested s := by
  induction s generalizing above with
  | nested message cause ih => rw [copy.go, ih, Array.foldr_push]
  | _ => rfl

@[simp] theorem copy_eq (s : Status) : s.copy = s :=
  copy.go_eq #[] s

/-- A failure on top of a copy of an earlier status. -/
def nest (parent : Status) (message : String) : Status :=
  nested message parent.copy

@[simp] theorem nest_eq (parent : Status) (message : String) :
    parent.nest message = nested message parent := by
  rw [nest, copy_eq]

def isOk : Status → Bool
  | ok => true
  | _ => false

def isFailure (s : Status) : Bool :=
  !s.isOk

/-- The reason of the failure on top, if it is a failure. -/
def message? : Status → Option String
  | ok => none
  | failed message => some message
  | nested message _ => some message

/-- The status directly below the one on top. -/
def cause? : Status → Option Status
  | nested _ cause => some cause
  | _ => none

/-- The status at the bottom of the chain. -/
def rootCause : Status → Status
  | nested _ cause => rootCause cause
  | s => s

/-- The statuses of the chain, the whole of it first and its root last. -/
def nodes (s : Status) : List Status :=
  (go [] s).reverse
where
  /-- Puts the nodes in front of `above`, so that the root comes first. -/
  go (above : List Status) (s : Status) : List Status :=
    match s with
    | nested _ cause => go (s :: above) cause
    | _ => s :: above

def depth (s : Status) : Nat :=
  s.nodes.length

/-- The messages of the failures that have a cause, outermost first. -/
def contexts (s : Status) : List String :=
  (go [] s).reverse
where
  /-- Puts the messages in front of `above`, so that the innermost comes first. -/
  go (above : List String) : Status → List String
    | nested message cause => go (message :: above) cause
    | _ => above

theorem nodes.go_eq (above : List Status) (s : Status) :
    nodes.go above s = nodes.go [] s ++ above := by
  induction s generalizing above with
  | nested message cause ih =>
      rw [nodes.go, nodes.go, ih (nested message cause :: above), ih [nested message cause]]
      simp
  | _ => simp [nodes.go]

theorem contexts.go_eq (above : List String) (s : Status) :
    contexts.go above s = contexts.go [] s ++ above := by
  induction s generalizing above with
  | nested message cause ih =>
      rw [contexts.go, contexts.go, ih (message :: above), ih [message]]
      simp
  | _ => simp [contexts.go]

@[simp] theorem nodes_ok : ok.nodes = [ok] := rfl

@[simp] theorem nodes_failed (message : String) : (failed message).nodes = [failed message] := rfl

@[simp] theorem nodes_nested (message : String) (cause : Status) :
    (nested message cause).nodes = nested message cause :: cause.nodes := by
  rw [nodes, nodes, nodes.go, nodes.go_eq]
  simp

@[simp] theorem contexts_ok : ok.contexts = [] := rfl

@[simp] theorem contexts_failed (message : String) : (failed message).contexts = [] := rfl

@[simp] theorem contexts_nested (message : String) (cause : Status) :
    (nested message cause).contexts = message :: cause.contexts := by
  rw [contexts, contexts, contexts.go, contexts.go_eq]
  simp

@[simp] theorem depth_nested (message : String) (cause : Status) :
    (nested message cause).depth = cause.depth + 1 := by
  simp [depth]

/-- Whether two chains have the same nodes.  They are walked in step. -/
def same : Status → Status → Bool
  | ok, ok => true
  | failed message, failed message' => decide (message = message')
  | nested message cause, nested message' cause' =>
      if message = message' then same cause cause' else false
  | _, _ => false

theorem same_self (s : Status) : same s s = true := by
  induction s with
  | nested message cause ih => simp [same, ih]
  | _ => simp [same]

theorem eq_of_same {s t : Status} (hsame : same s t = true) : s = t := by
  induction s generalizing t with
  | nested message cause ih =>
      cases t with
      | nested message' cause' =>
          by_cases hmessage : message = message'
          · simp only [same, hmessage, ↓reduceIte] at hsame
            rw [hmessage, ih hsame]
          · simp [same, hmessage] at hsame
      | _ => simp [same] at hsame
  | _ => cases t <;> simp_all [same]

theorem same_iff {s t : Status} : same s t = true ↔ s = t :=
  ⟨eq_of_same, fun heq => heq ▸ same_self s⟩

instance : DecidableEq Status := fun s t =>
  if hsame : same s t = true then isTrue (eq_of_same hsame)
  else isFalse fun heq => hsame (heq ▸ same_self s)

end Status

end Bytestream
