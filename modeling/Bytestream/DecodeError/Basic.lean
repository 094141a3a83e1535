/-!
# Decode errors

A decode error is one of three causes, each with the place where it arose, possibly wrapped in
layers of context.  A context says what was being read, and the outermost layer is the one that was
added last.  An error is therefore a list of contexts over a cause, and `nestAll_contexts_root` puts
the two parts together again.

Chains of context can be very long.  Every function here walks the layers in constant stack space,
and the equations that later proofs use are stated as if it recursed.
-/

namespace Bytestream

/-- Why a read failed. -/
inductive DecodeError where
  /-- The varint that starts at `offset` has more bytes than its width allows, or a value that does
  not fit in `maxBits` bits. -/
  | overflow (maxBits offset : Nat)
  /-- The read at `offset` needed more bytes than were available there. -/
  | truncated (offset needed available : Nat)
  /-- The name whose length stands at `offset` is not well-formed UTF-8. -/
  | invalidUtf8 (offset : Nat)
  /-- An error with a description of what was being read. -/
  | nested (context : String) (source : DecodeError)
deriving Repr, Inhabited

namespace DecodeError

inductive Kind where
  | overflow
  | truncated
  | invalidUtf8
  | nested
deriving DecidableEq, Repr

/-- The name under which a form of error is reported. -/
def Kind.name : Kind → String
  | .overflow => "Overflow"
  | .truncated => "Truncated"
  | .invalidUtf8 => "InvalidUtf8"
  | .nested => "Nested"

def kind : DecodeError → Kind
  | overflow .. => .overflow
  | truncated .. => .truncated
  | invalidUtf8 .. => .invalidUtf8
  | nested .. => .nested

/-- Adds an outermost layer of context. -/
def nest (e : DecodeError) (context : String) : DecodeError :=
  nested context e

/-- Adds one layer for each context; the head of the list becomes the outermost. -/
def nestAll (contexts : List String) (e : DecodeError) : DecodeError :=
  contexts.foldr nested e

/-- The error directly inside the outermost layer of context. -/
def source? : DecodeError → Option DecodeError
  | nested _ e => some e
  | _ => none

/-- The cause, below every layer of context. -/
def root : DecodeError → DecodeError
  | nested _ e => root e
  | e => e

/-- The contexts, outermost first. -/
def contexts (e : DecodeError) : List String :=
  (go [] e).reverse
where
  /-- Puts the contexts in front of `above`, so that the innermost comes first. -/
  go (above : List String) : DecodeError → List String
    | nested context e => go (context :: above) e
    | _ => above

/-- The number of errors in the chain, the cause included. -/
def depth (e : DecodeError) : Nat :=
  e.contexts.length + 1

theorem contexts.go_eq (above : List String) (e : DecodeError) :
    contexts.go above e = (contexts.go [] e) ++ above := by
  induction e generalizing above with
  | nested context e ih => rw [contexts.go, contexts.go, ih (context :: above), ih [context]]; simp
  | _ => simp [contexts.go]

@[simp] theorem contexts_nested (context : String) (e : DecodeError) :
    (nested context e).contexts = context :: e.contexts := by
  rw [contexts, contexts, contexts.go, contexts.go_eq]
  simp

@[simp] theorem contexts_overflow (maxBits offset : Nat) :
    (overflow maxBits offset).contexts = [] := rfl

@[simp] theorem contexts_truncated (offset needed available : Nat) :
    (truncated offset needed available).contexts = [] := rfl

@[simp] theorem contexts_invalidUtf8 (offset : Nat) : (invalidUtf8 offset).contexts = [] := rfl

@[simp] theorem root_nested (context : String) (e : DecodeError) :
    (nested context e).root = e.root := rfl

/-- The cause is below every layer of context. -/
theorem kind_root_ne_nested (e : DecodeError) : e.root.kind ≠ .nested := by
  induction e with
  | nested context e ih => exact ih
  | _ =>
      intro hkind
      cases hkind

@[simp] theorem depth_nested (context : String) (e : DecodeError) :
    (nested context e).depth = e.depth + 1 := by
  simp [depth]

@[simp] theorem nestAll_cons (context : String) (contexts : List String) (e : DecodeError) :
    nestAll (context :: contexts) e = nested context (nestAll contexts e) := rfl

/-- An error is its contexts around its cause. -/
theorem nestAll_contexts_root (e : DecodeError) : nestAll e.contexts e.root = e := by
  induction e with
  | nested context e ih => simp [ih]
  | _ => rfl

/-- A copy of the error.  The contexts are gathered on the way to the cause, and the layers are put
around a copy of the cause from the innermost outwards. -/
def copy (e : DecodeError) : DecodeError :=
  go #[] e
where
  /-- Goes on inside the layers with the contexts in `above`, the outermost of which comes first. -/
  go (above : Array String) : DecodeError → DecodeError
    | overflow maxBits offset => above.foldr nested (overflow maxBits offset)
    | truncated offset needed available => above.foldr nested (truncated offset needed available)
    | invalidUtf8 offset => above.foldr nested (invalidUtf8 offset)
    | nested context e => go (above.push context) e

theorem copy.go_eq (above : Array String) (e : DecodeError) :
    copy.go above e = above.foldr nested e := by
  induction e generalizing above with
  | nested context e ih => rw [copy.go, ih, Array.foldr_push]
  | _ => rfl

@[simp] theorem copy_eq (e : DecodeError) : e.copy = e :=
  copy.go_eq #[] e

/-- Whether two errors have the same layers and the same cause.  Both chains are walked in step. -/
def same : DecodeError → DecodeError → Bool
  | overflow maxBits offset, overflow maxBits' offset' =>
      decide (maxBits = maxBits') && decide (offset = offset')
  | truncated offset needed available, truncated offset' needed' available' =>
      decide (offset = offset') && decide (needed = needed') && decide (available = available')
  | invalidUtf8 offset, invalidUtf8 offset' => decide (offset = offset')
  | nested context e, nested context' e' => if context = context' then same e e' else false
  | _, _ => false

theorem same_self (e : DecodeError) : same e e = true := by
  induction e with
  | nested context e ih => simp [same, ih]
  | _ => simp [same]

theorem eq_of_same {e e' : DecodeError} (hsame : same e e' = true) : e = e' := by
  induction e generalizing e' with
  | nested context e ih =>
      cases e' with
      | nested context' e' =>
          by_cases hcontext : context = context'
          · simp only [same, hcontext, ↓reduceIte] at hsame
            rw [hcontext, ih hsame]
          · simp [same, hcontext] at hsame
      | _ => simp [same] at hsame
  | _ => cases e' <;> simp_all [same]

theorem same_iff {e e' : DecodeError} : same e e' = true ↔ e = e' :=
  ⟨eq_of_same, fun heq => heq ▸ same_self e⟩

instance : DecidableEq DecodeError := fun e e' =>
  if hsame : same e e' = true then isTrue (eq_of_same hsame)
  else isFalse fun heq => hsame (heq ▸ same_self e)

end DecodeError

end Bytestream
