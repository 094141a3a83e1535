import Mathlib
import Bytestream.Proofs.DecodeError.Message
import Bytestream.Status.OfError
import Bytestream.Status.Walk

/-!
# Decode errors as statuses

A decode error and the status that is made of it say the same.  A context around the error is a
failure on top of the status, the nodes of the status carry the messages that are met on the way to
the cause, and there are as many of them as there are errors.  Nothing gets lost on the way: the
root of the status is a message that only one cause has, and the nested failures above it are the
contexts, however much one of these may look like the message of a cause.
-/

namespace Bytestream.Status

@[simp] theorem ofError_nest (e : DecodeError) (context : String) :
    ofError (e.nest context) = (ofError e).nest context := by
  rw [nest_eq]
  exact ofError_nested context e

theorem depth_ofError (e : DecodeError) : (ofError e).depth = e.depth := by
  induction e with
  | nested context e ih => rw [ofError_nested, depth_nested, ih, DecodeError.depth_nested]
  | _ => rfl

/-- Every node has a message: first the contexts, and that of the cause at the root. -/
theorem map_message?_nodes_ofError (e : DecodeError) :
    (ofError e).nodes.map message? = (e.contexts ++ [e.root.message]).map some := by
  induction e with
  | nested context e ih =>
      rw [ofError_nested, nodes_nested, List.map_cons, ih, DecodeError.contexts_nested,
        DecodeError.root_nested]
      rfl
  | _ => rfl

theorem contexts_ofError (e : DecodeError) : (ofError e).contexts = e.contexts := by
  induction e with
  | nested context e ih => rw [ofError_nested, contexts_nested, ih, DecodeError.contexts_nested]
  | _ => rfl

theorem rootCause_ofError (e : DecodeError) : (ofError e).rootCause = failed e.root.message := by
  induction e with
  | nested context e ih => rw [ofError_nested, rootCause, ih, DecodeError.root_nested]
  | _ => rfl

/-- The contexts can be read off the status, and the cause off the message at its root. -/
theorem ofError_injective : Function.Injective ofError := by
  intro e₁ e₂ hstatus
  have hcontexts : e₁.contexts = e₂.contexts := by
    rw [← contexts_ofError, hstatus, contexts_ofError]
  have hmessage : e₁.root.message = e₂.root.message := by
    have hroot : failed e₁.root.message = failed e₂.root.message := by
      rw [← rootCause_ofError, hstatus, rootCause_ofError]
    injection hroot
  have hroot : e₁.root = e₂.root :=
    DecodeError.eq_of_message_eq e₁.kind_root_ne_nested e₂.kind_root_ne_nested hmessage
  calc
    e₁ = DecodeError.nestAll e₁.contexts e₁.root := e₁.nestAll_contexts_root.symm
    _ = DecodeError.nestAll e₂.contexts e₂.root := by rw [hcontexts, hroot]
    _ = e₂ := e₂.nestAll_contexts_root

/-- Making a status of an error keeps everything.  It turns a context into a failure on top.  The
messages along the status are the contexts and then the message of the cause, and so are the
messages on the way from the error to its cause.  It keeps the depth, and the status of a failed
read is that of its error.  Two errors have statuses with the same nodes exactly if they are the
same error. -/
theorem ofError_keeps_everything :
    (∀ e : DecodeError,
      (∀ context, ofError (e.nest context) = (ofError e).nest context) ∧
        (ofError e).walk.toList.map message? = (e.contexts ++ [e.root.message]).map some ∧
        e.sources.map DecodeError.message = e.contexts ++ [e.root.message] ∧
        (ofError e).depth = e.depth ∧
        ∀ α : Type, ofResult (.error e : Except DecodeError α) = ofError e) ∧
    ∀ e₁ e₂ : DecodeError,
      same (ofError e₁) (ofError e₂) = true ↔ DecodeError.same e₁ e₂ = true := by
  constructor
  · intro e
    exact ⟨ofError_nest e, map_message?_nodes_ofError e, e.map_message_sources, depth_ofError e,
      fun _ => rfl⟩
  · intro e₁ e₂
    rw [same_iff, DecodeError.same_iff]
    exact ofError_injective.eq_iff

/-- A context that looks like the message of a cause is no cause. -/
example : ofError (.nested "invalid UTF-8 string at offset 1" (.invalidUtf8 1)) =
    nested "invalid UTF-8 string at offset 1" (failed "invalid UTF-8 string at offset 1") := rfl

end Bytestream.Status
