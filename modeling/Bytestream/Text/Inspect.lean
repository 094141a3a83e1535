import Bytestream.Text.Quoted

/-!
# Inspection text of compound values

Values are shown for inspection in one notation: a list between square brackets, a tuple as a name
with its parts between parentheses, and a record as a name with labelled fields between braces.
Parts are separated by a comma and a space.  The parts themselves arrive as finished text.
-/

namespace Bytestream.Text

/-- The parts, separated by a comma and a space. -/
def commaSeparated (parts : List String) : String :=
  ", ".intercalate parts

/-- A list: its elements between square brackets. -/
def inspectList (elements : List String) : String :=
  "[" ++ commaSeparated elements ++ "]"

/-- A tuple: its name, and its parts between parentheses. -/
def inspectTuple (name : String) (parts : List String) : String :=
  name ++ "(" ++ commaSeparated parts ++ ")"

/-- The text of a record up to its first field. -/
def openRecord (name : String) : String :=
  name ++ " \x7b "

/-- The text of a record after its last field. -/
def closeRecord : String :=
  " \x7d"

/-- A labelled field of a record. -/
def inspectField (label value : String) : String :=
  label ++ ": " ++ value

/-- A record: its name, and its labelled fields between braces. -/
def inspectRecord (name : String) (fields : List (String × String)) : String :=
  openRecord name ++ commaSeparated (fields.map fun field => inspectField field.1 field.2)
    ++ closeRecord

end Bytestream.Text
