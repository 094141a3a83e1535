import Bytestream.DecodeError.Basic
import Bytestream.Text.Inspect

/-!
# The texts of a decode error

The message of a cause names the offset and the figures of the failure.  The message of a nested
error is its outermost context alone: whoever wants the rest walks to the source.  The inspection
text, by contrast, shows the whole chain as nested records.
-/

namespace Bytestream.DecodeError

open Text

/-- What a reader is told about the error. -/
def message : DecodeError → String
  | overflow maxBits offset => s!"LEB128 overflow (max bits={maxBits}) at offset {offset}"
  | truncated offset needed available =>
      s!"unexpected end of input at offset {offset}: needed {needed} byte(s), {available} available"
  | invalidUtf8 offset => s!"invalid UTF-8 string at offset {offset}"
  | nested context _ => context

/-- The inspection text of a cause, as a record with its figures.  Of a nested error it shows the
outermost layer without its source. -/
def inspectCause : DecodeError → String
  | overflow maxBits offset =>
      inspectRecord Kind.overflow.name
        [("max_bits", toString maxBits), ("offset", toString offset)]
  | truncated offset needed available =>
      inspectRecord Kind.truncated.name
        [("offset", toString offset), ("needed", toString needed),
          ("available", toString available)]
  | invalidUtf8 offset => inspectRecord Kind.invalidUtf8.name [("offset", toString offset)]
  | nested context _ => inspectRecord Kind.nested.name [("context", quoted context)]

/-- What stands in front of the source in the record of one layer. -/
def openLayer (context : String) : String :=
  openRecord Kind.nested.name ++ inspectField "context" (quoted context) ++ ", "
    ++ inspectField "source" ""

/-- The inspection text: each layer is a record whose last field is its source.  All openings come
first and all closings last, so long chains take one pass. -/
def inspect (e : DecodeError) : String :=
  let contexts := e.contexts
  String.join (contexts.map openLayer) ++ inspectCause e.root
    ++ String.join (List.replicate contexts.length closeRecord)

end Bytestream.DecodeError
