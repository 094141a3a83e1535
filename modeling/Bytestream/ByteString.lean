import Bytestream.Text.Inspect

/-!
# Byte strings

A byte string is whatever bytes a length prefix announces, zero bytes included.  It may happen to be
the UTF-8 encoding of a text, and then it has that text as a second view.
-/

namespace Bytestream

/-- A run of bytes that need not be text. -/
structure ByteString where
  bytes : ByteArray

namespace ByteString

/-- Byte strings are compared byte by byte. -/
instance : DecidableEq ByteString := fun s t =>
  match ByteArray.instDecidableEq s.bytes t.bytes with
  | isTrue hbytes => isTrue (congrArg ByteString.mk hbytes)
  | isFalse hbytes => isFalse fun heq => hbytes (congrArg ByteString.bytes heq)

def empty : ByteString :=
  ⟨ByteArray.empty⟩

instance : EmptyCollection ByteString := ⟨empty⟩

instance : Inhabited ByteString := ⟨empty⟩

def size (s : ByteString) : Nat :=
  s.bytes.size

def isEmpty (s : ByteString) : Bool :=
  s.bytes.isEmpty

/-- The text that the bytes encode, if they are well-formed UTF-8. -/
def text? (s : ByteString) : Option String :=
  String.fromUTF8? s.bytes

/-- The inspection text: the bytes as decimal numbers. -/
def inspect (s : ByteString) : String :=
  Text.inspectRecord "DecodedString"
    [("bytes", Text.inspectList (s.bytes.data.toList.map fun byte => toString byte.toNat))]

/-- The text of a byte string is the one text whose encoding it is. -/
theorem text?_eq_some_iff {s : ByteString} {text : String} :
    s.text? = some text ↔ text.toUTF8 = s.bytes := by
  constructor
  · intro htext
    simp only [text?, String.fromUTF8?] at htext
    split at htext
    · cases htext
      rfl
    · cases htext
  · intro hbytes
    have hvalid : s.bytes.IsValidUTF8 := hbytes ▸ text.isValidUTF8
    simp only [text?, String.fromUTF8?, hvalid, ↓reduceDIte, Option.some.injEq]
    exact String.toByteArray_inj.mp hbytes.symm

end ByteString

end Bytestream
