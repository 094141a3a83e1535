import Mathlib
import Bytestream.Proofs.Status.OfError
import Bytestream.Status.Text

/-!
# The display text along a chain

The display text of a status is written in one pass over the messages of its chain, and is what a
recursion on the chain would give: a failure with a cause adds its message and a separator in front
of the text of the cause, unless the cause is a success and has nothing to say.  Empty messages are
messages like others, and are separated from the rest like others.  The text of a decode error is
made in the same way from its contexts and the message of its cause.
-/

namespace Bytestream.Status

/-! ### One pass over the messages -/

/-- Behind a text that has a message already, every message has its separator. -/
theorem display.go_false (text message : String) (rest : List String) :
    display.go text false (message :: rest) =
      text ++ ": " ++ ": ".intercalate (message :: rest) := by
  induction rest generalizing text message with
  | nil => rw [String.intercalate_singleton]; rfl
  | cons next rest ih =>
      have hstep : display.go text false (message :: next :: rest) =
          display.go (text ++ ": " ++ message) false (next :: rest) := rfl
      rw [hstep, ih, String.intercalate_cons_cons]
      simp only [String.append_assoc]

/-- The pass writes the messages with a separator between any two. -/
theorem display.go_true (text : String) (messages : List String) :
    display.go text true messages = text ++ ": ".intercalate messages := by
  cases messages with
  | nil => simp [display.go]
  | cons message rest =>
      have hstep : display.go text true (message :: rest) =
          display.go (text ++ message) false rest := rfl
      rw [hstep]
      cases rest with
      | nil => simp [display.go]
      | cons next rest =>
          rw [display.go_false, String.intercalate_cons_cons]
          simp only [String.append_assoc]

theorem display_eq (s : Status) :
    s.display = if s.isOk then "ok" else ": ".intercalate s.messages := by
  rw [display, display.go_true, String.empty_append]

/-! ### From a status to its cause -/

theorem messages_nested (message : String) (cause : Status) :
    (nested message cause).messages = message :: cause.messages := by
  have hmessage : (nested message cause).message? = some message := rfl
  rw [messages, nodes_nested, List.filterMap_cons_some hmessage, messages]

/-- Only a success has no message anywhere. -/
theorem messages_eq_nil_iff (s : Status) : s.messages = [] ↔ s.isOk = true := by
  cases s with
  | nested message cause => simp [messages_nested, isOk]
  | _ => simp [messages, message?, isOk]

theorem display_nested (message : String) (cause : Status) :
    (nested message cause).display =
      if cause.isOk then message else message ++ ": " ++ cause.display := by
  have hfailure : (nested message cause).isOk = false := rfl
  rw [display_eq, hfailure, messages_nested, display_eq]
  by_cases hok : cause.isOk = true
  · rw [(messages_eq_nil_iff cause).mpr hok]
    simp [hok]
  · have hmessages : cause.messages ≠ [] := mt (messages_eq_nil_iff cause).mp hok
    rw [String.intercalate_cons_of_ne_nil hmessages]
    simp [hok]

/-! ### Decode errors -/

theorem isOk_ofError (e : DecodeError) : (ofError e).isOk = false := by
  cases e with
  | nested context e => rw [ofError_nested]; rfl
  | _ => rfl

theorem messages_ofError (e : DecodeError) :
    (ofError e).messages = e.contexts ++ [e.root.message] := by
  induction e with
  | nested context e ih =>
      rw [ofError_nested, messages_nested, ih, DecodeError.contexts_nested,
        DecodeError.root_nested, List.cons_append]
  | _ => rfl

/-- The display text is what a recursion on the chain gives.  A success is shown as such, a failure
without a cause by its message, and a failure with a cause by its message in front of the text of the
cause, or by its message alone if the cause is a success.  So the text of a failure is the messages
of all nodes that have one, outermost first, with a separator between any two.  That of a decode
error is its contexts and at last the message of its cause, and one more context around it puts this
context and a separator in front. -/
theorem display_along_chain :
    ok.display = "ok" ∧
    (∀ message : String, (failed message).display = message) ∧
    (∀ (cause : Status) (message : String),
      (cause.nest message).display =
        if cause.isOk then message else message ++ ": " ++ cause.display) ∧
    (∀ s : Status, s.display =
      if s.isOk then "ok" else ": ".intercalate (s.walk.toList.filterMap message?)) ∧
    (∀ e : DecodeError,
      (ofError e).display = ": ".intercalate (e.contexts ++ [e.root.message])) ∧
    ∀ (e : DecodeError) (context : String),
      (ofError (e.nest context)).display = context ++ ": " ++ (ofError e).display := by
  refine ⟨rfl, ?_, ?_, display_eq, ?_, ?_⟩
  · intro message
    rw [display_eq]
    simp [isOk, messages, message?]
  · intro cause message
    rw [nest_eq, display_nested]
  · intro e
    rw [display_eq, isOk_ofError, messages_ofError]
    simp
  · intro e context
    rw [ofError_nest, nest_eq, display_nested, isOk_ofError]
    simp

/-- An empty message keeps its separator, and a success at the root leaves none behind. -/
example : (nested "" (nested "" (nested "a: b" ok))).display = ": : a: b" := by decide

end Bytestream.Status
