import Bytestream.DecodeError.Text
import Bytestream.Status.Basic

/-!
# Statuses of decoding

A decode error becomes a status with one node for each layer of the error: the contexts are nested
failures, and the message of the cause is the failure at the root.
-/

namespace Bytestream.Status

/-- The status of a read that failed. -/
def ofError (e : DecodeError) : Status :=
  e.contexts.foldr nested (failed e.root.message)

/-- The status of a read, whatever value a success yielded. -/
def ofResult {α : Type} : Except DecodeError α → Status
  | .ok _ => ok
  | .error e => ofError e

@[simp] theorem ofError_nested (context : String) (e : DecodeError) :
    ofError (.nested context e) = nested context (ofError e) := by
  simp [ofError]

end Bytestream.Status
