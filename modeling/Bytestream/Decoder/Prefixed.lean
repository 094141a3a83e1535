import Bytestream.ByteString
import Bytestream.Varint.Typed

/-!
# Reads with a length prefix

Strings, names and vectors start with their length, an unsigned varint of 32 bits.  Each of them is
read as a whole: if the length, the bytes, the text or one of the elements fails, the cursor stays
in front of the length.

The elements of a vector are read one after the other, and nothing is set aside for elements that
may not be there, so a length far beyond the buffer costs nothing but its bytes.
-/

namespace Bytestream.Decoder

variable {α : Type}

/-- The bytes that a length announces. -/
def string : Decoder ByteString :=
  atomically do
    let size ← Varint.u32
    let taken ← bytes size.toNat
    return ⟨taken⟩

/-- The text that a length announces.  Bytes that are no text are reported where the length
starts. -/
def name : Decoder String :=
  atomically do
    let start ← offset
    let s ← string
    match s.text? with
    | some text => return text
    | none => throw (.invalidUtf8 start)

/-- Says which element of a vector could not be read. -/
def elementContext (index count : Nat) : String :=
  s!"vector element {index} of {count}"

section Actions

variable {m : Type → Type} [Monad m]

/-- Reads the last `left` of `count` elements, after those in `done`.  An element is an action that
reads at a cursor and may do something else besides. -/
@[specialize] def elementsM (element : Cursor → m (EStateM.Result DecodeError Cursor α))
    (count : Nat) : (left : Nat) → (done : Array α) → Cursor →
      m (EStateM.Result DecodeError Cursor (Array α))
  | 0, done, c => return .ok done c
  | left + 1, done, c => do
      match ← element c with
      | .ok value c' => elementsM element count left (done.push value) c'
      | .error e c' => return .error (e.nest (elementContext (count - (left + 1)) count)) c'

/-- As many elements as a length announces, in their order.  The actions take place one after the
other, and none behind an element that cannot be read. -/
@[specialize] def vectorM (element : Cursor → m (EStateM.Result DecodeError Cursor α))
    (c : Cursor) : m (EStateM.Result DecodeError Cursor (Array α)) := do
  match Varint.u32 c with
  | .error e _ => return .error e c
  | .ok count c₁ =>
      match ← elementsM element count.toNat count.toNat #[] c₁ with
      | .ok values c' => return .ok values c'
      | .error e _ => return .error e c

end Actions

/-- Elements that do nothing but read. -/
def elements (element : Decoder α) (count left : Nat) (done : Array α) : Decoder (Array α) :=
  elementsM (m := Id) element count left done

/-- A vector whose elements do nothing but read. -/
def vector (element : Decoder α) : Decoder (Array α) :=
  vectorM (m := Id) element

theorem elements_succ (element : Decoder α) (count left : Nat) (done : Array α) :
    elements element count (left + 1) done =
      element.context (elementContext (count - (left + 1)) count) >>= fun value =>
        elements element count left (done.push value) := by
  funext c
  simp only [elements, elementsM, bind, EStateM.bind, context, mapError]
  cases element c <;> rfl

/-- A vector goes back as a whole. -/
theorem vector_eq (element : Decoder α) :
    vector element = atomically (Varint.u32 >>= fun count =>
      elements element count.toNat count.toNat #[]) := by
  funext c
  simp only [vector, vectorM, atomically, bind, EStateM.bind]
  cases Varint.u32 c with
  | error e c₁ => rfl
  | ok count c₁ =>
      simp only [elements]
      cases elementsM (m := Id) element count.toNat count.toNat #[] c₁ <;> rfl

/-- A byte string at an offset of a buffer, with the offset of the first unread byte. -/
def stringAt (data : ByteArray) (offset : Nat) : Except DecodeError (ByteString × Nat) :=
  string.runAt data offset

end Bytestream.Decoder
