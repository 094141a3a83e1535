import Bytestream.Text.Invisible

/-!
# Quoted text

Inspection text shows a string between double quotes.  A quote and a backslash inside it are
escaped, the four common control characters have short escapes, and every other invisible character
is written by its code point in hexadecimal.  A single quote needs no escape.

Each character is written on its own, whatever stands around it, so the characters of the result
are the concatenation of the escapes.
-/

namespace Bytestream.Text

/-- A character written by its code point: the digits are hexadecimal, in lower case and without
leading zeros, between braces. -/
def escapeCode (c : Char) : List Char :=
  ['\\', 'u', '\x7b'] ++ Nat.toDigits 16 c.toNat ++ ['\x7d']

/-- The characters that stand for `c` between double quotes. -/
def escape (c : Char) : List Char :=
  if c = '\x00' then ['\\', '0']
  else if c = '\t' then ['\\', 't']
  else if c = '\r' then ['\\', 'r']
  else if c = '\n' then ['\\', 'n']
  else if c = '"' then ['\\', '"']
  else if c = '\\' then ['\\', '\\']
  else if isInvisible c then escapeCode c
  else [c]

/-- The text between double quotes, with everything escaped that a reader could not see or could
take for the end of the text. -/
def quoted (text : String) : String :=
  String.ofList ('"' :: (text.toList.flatMap escape ++ ['"']))

@[simp] theorem toList_quoted (text : String) :
    (quoted text).toList = '"' :: (text.toList.flatMap escape ++ ['"']) := by
  simp [quoted]

example : escape '\x7f' = ['\\', 'u', '\x7b', '7', 'f', '\x7d'] := by decide +kernel

end Bytestream.Text
