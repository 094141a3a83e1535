import Bytestream.DecodeError.Basic

/-!
# Releasing a chain of contexts

A long chain of errors is taken apart from the outside in, one layer at a time, so that no layer is
ever released with a long chain still inside it.  A layer that has lost its source holds a cause of
no meaning in its place.
-/

namespace Bytestream.DecodeError

/-- What stands in a layer whose source has been taken out. -/
def placeholder : DecodeError :=
  invalidUtf8 0

/-- Takes out the source of the outermost layer.  The result is the source, if there is one, and
what is left of the layer. -/
def detach : DecodeError → Option DecodeError × DecodeError
  | nested context e => (some e, nested context placeholder)
  | e => (none, e)

theorem depth_lt_of_detach {e inner : DecodeError} (hinner : e.detach.1 = some inner) :
    inner.depth < e.depth := by
  cases e with
  | nested context e =>
      cases hinner
      simp
  | _ => cases hinner

/-- Releases an error that has been taken out of its layer, after its own source has been taken out
of it, and goes on with the source.  The list shows what was left of each error when it was
released. -/
def releaseFrom (next? : Option DecodeError) : List DecodeError :=
  match next? with
  | some e => e.detach.2 :: releaseFrom e.detach.1
  | none => []
termination_by next?.elim 0 depth
decreasing_by
  rcases hinner : e.detach.1 with _ | inner
  · simp [depth]
  · simpa using depth_lt_of_detach hinner

/-- The errors that are released before `e` itself is, in their order. -/
def released (e : DecodeError) : List DecodeError :=
  releaseFrom e.detach.1

/-- The errors whose own release is part of the release of `e`: those inside it, one after the other,
and in the end what then stands in place of its source. -/
def handedOn (e : DecodeError) : List DecodeError :=
  e.released ++ e.detach.2.source?.toList

end Bytestream.DecodeError
