import Bytestream.Status.Basic
import Bytestream.Text.Inspect

/-!
# The texts of a status

The display text of a failure is the messages of its chain, outermost first, with a colon and a
space between them; a success that ends the chain has no message and leaves no trace in it.  The
inspection text shows the nested messages as one list in front of the root, so its nesting does not
grow with the chain.
-/

namespace Bytestream.Status

open Text

/-- The messages of the nodes that have one, outermost first. -/
def messages (s : Status) : List String :=
  s.nodes.filterMap message?

/-- The display text. -/
def display (s : Status) : String :=
  if s.isOk then "ok" else go "" true s.messages
where
  /-- Writes the messages behind `text`, with a separator in front of each but the first one. -/
  go (text : String) (first : Bool) : List String → String
    | [] => text
    | message :: rest =>
        let separated := if first then text else text ++ ": "
        go (separated ++ message) false rest

/-- The messages of the nodes that have a cause, outermost first. -/
def nestedMessages (s : Status) : List String :=
  (s.nodes.filter fun node => node.cause?.isSome).filterMap message?

/-- The inspection text of a root.  Of a nested failure it shows the failure on top alone. -/
def inspectRoot : Status → String
  | ok => "Ok"
  | failed message => inspectTuple "Err" [quoted message]
  | nested message _ => inspectTuple "Nested" [quoted message]

/-- The inspection text: the nested messages as a list, and the root. -/
def inspect (s : Status) : String :=
  match s with
  | nested _ _ =>
      inspectTuple "Nested" [inspectList (s.nestedMessages.map quoted), inspectRoot s.rootCause]
  | s => inspectRoot s

end Bytestream.Status
