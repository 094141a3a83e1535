import Mathlib
import Bytestream.Proofs.DecodeError.Message

/-!
# The layers of a decode error

A decode error is a list of contexts around a cause, and what is done along its layers can be read
off these two.  Contexts that are added one after the other stand in front of the others with the
last one first, and neither the cause nor the other contexts notice.  An error is recovered by
putting its contexts around its cause again, from the innermost outwards.
-/

namespace Bytestream.DecodeError

/-! ### Contexts around an error -/

@[simp] theorem contexts_nestAll (contexts : List String) (e : DecodeError) :
    (nestAll contexts e).contexts = contexts ++ e.contexts := by
  induction contexts with
  | nil => rfl
  | cons context contexts ih => simp [ih]

@[simp] theorem root_nestAll (contexts : List String) (e : DecodeError) :
    (nestAll contexts e).root = e.root := by
  induction contexts with
  | nil => rfl
  | cons context contexts ih => simp [ih]

theorem nestAll_append (outer inner : List String) (e : DecodeError) :
    nestAll (outer ++ inner) e = nestAll outer (nestAll inner e) :=
  List.foldr_append

/-- An error without contexts is its own cause. -/
theorem root_eq_self {e : DecodeError} (hcontexts : e.contexts = []) : e.root = e := by
  have heq := e.nestAll_contexts_root
  rw [hcontexts] at heq
  exact heq

/-- The contexts around a cause are those that have been put there, and the cause can be had back. -/
theorem nestAll_cause (contexts : List String) {cause : DecodeError}
    (hcause : cause.contexts = []) :
    (nestAll contexts cause).contexts = contexts ∧ (nestAll contexts cause).root = cause := by
  rw [contexts_nestAll, hcause, List.append_nil, root_nestAll, root_eq_self hcause]
  exact ⟨rfl, rfl⟩

/-- Contexts that are added one after the other are layers with the last one outermost. -/
theorem foldl_nest (messages : List String) (e : DecodeError) :
    messages.foldl nest e = nestAll messages.reverse e := by
  rw [nestAll, List.foldr_reverse]
  rfl

theorem depth_nestAll (contexts : List String) (e : DecodeError) :
    (nestAll contexts e).depth = e.depth + contexts.length := by
  rw [depth, depth, contexts_nestAll, List.length_append]
  omega

/-! ### What is met on the way to the cause -/

theorem root_root (e : DecodeError) : e.root.root = e.root := by
  induction e with
  | nested context e ih => exact ih
  | _ => rfl

/-- The context of the outermost layer. -/
def context? : DecodeError → Option String
  | nested context _ => some context
  | _ => none

/-- Whoever goes from source to source meets the contexts, and no others. -/
theorem filterMap_context?_sources (e : DecodeError) :
    e.sources.filterMap context? = e.contexts := by
  induction e with
  | nested context e ih =>
      have houtermost : (nested context e).context? = some context := rfl
      rw [sources_nested, List.filterMap_cons_some houtermost, ih, contexts_nested]
  | _ =>
      rw [sources_of_source?_eq_none rfl]
      rfl

theorem getLast?_sources (e : DecodeError) : e.sources.getLast? = some e.root := by
  induction e with
  | nested context e ih =>
      rw [sources_nested, List.getLast?_cons, ih, root_nested, Option.getD_some]
  | _ =>
      rw [sources_of_source?_eq_none rfl]
      rfl

theorem source?_root (e : DecodeError) : e.root.source? = none := by
  induction e with
  | nested context e ih => exact ih
  | _ => rfl

theorem length_sources (e : DecodeError) : e.sources.length = e.depth := by
  induction e with
  | nested context e ih => rw [sources_nested, List.length_cons, ih, depth_nested]
  | _ =>
      rw [sources_of_source?_eq_none rfl]
      rfl

/-- What is done along the layers of an error is what its contexts and its cause say.  A copy is the
error with every figure of its cause, and two errors are found the same exactly if they are.  The
root is a cause, and the root of itself.  The contexts are those that are met on the way from each
error to its source, and the depth is the number of errors on this way.  Adding contexts puts them in
front, the last one first, and changes nothing else; and adding the contexts of an error to its cause,
from the innermost outwards, gives the error again. -/
theorem operations_follow_layers :
    (∀ e : DecodeError, e.copy = e) ∧
    (∀ e f : DecodeError, same e f = true ↔ e = f) ∧
    (∀ e : DecodeError, e.root.kind ≠ .nested ∧ e.root.root = e.root) ∧
    (∀ e : DecodeError,
      e.contexts = e.sources.filterMap context? ∧ e.depth = e.sources.length) ∧
    (∀ (e : DecodeError) (messages : List String),
      (messages.foldl nest e).contexts = messages.reverse ++ e.contexts ∧
        (messages.foldl nest e).root = e.root ∧
        (messages.foldl nest e).depth = e.depth + messages.length) ∧
    ∀ e : DecodeError, e.contexts.reverse.foldl nest e.root = e := by
  refine ⟨copy_eq, fun e f => same_iff, fun e => ⟨e.kind_root_ne_nested, e.root_root⟩, ?_, ?_, ?_⟩
  · intro e
    exact ⟨e.filterMap_context?_sources.symm, e.length_sources.symm⟩
  · intro e messages
    rw [foldl_nest]
    refine ⟨contexts_nestAll _ e, root_nestAll _ e, ?_⟩
    rw [depth_nestAll, List.length_reverse]
  · intro e
    rw [foldl_nest, List.reverse_reverse]
    exact e.nestAll_contexts_root

end Bytestream.DecodeError
