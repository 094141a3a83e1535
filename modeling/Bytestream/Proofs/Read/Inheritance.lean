import Mathlib
import Bytestream.Read

/-!
# What a read has from its parts

Every read is put together from reads of bytes, and there are few ways of putting decoders together:
one behind the other, with a look at the offset, with a context, or as a whole that goes back.  So a
property that reads of bytes have, and that each of these ways passes on, is a property of every
read, vectors of vectors included.  Nothing has to be said of the single readers for that.

The same holds of a relation between the runs of a read in two buffers, and of a property it is only
the special case in which the second run does not matter.  The walk over the readers is therefore
made once, for relations.

A read may also look at a byte without taking it.  Not every property allows this, and a read that
does not do so anywhere is `PeekFree`.
-/

namespace Bytestream

/-- A relation between decoders that passes from the parts of an item to the whole.  The second
decoder of a pair may run in a buffer in which everything stands `distance` bytes further on; then an
offset that it has looked up, and that it names in an error, is greater by as much. -/
structure Congruence (distance : Nat) (R : {α : Type} → Decoder α → Decoder α → Prop) : Prop where
  pure : ∀ {α : Type} (value : α), R (Pure.pure value : Decoder α) (Pure.pure value)
  overflow : ∀ {α : Type} (bits start : Nat),
    R (MonadExcept.throw (.overflow bits start) : Decoder α)
      (MonadExcept.throw (.overflow bits (start + distance)))
  invalidUtf8 : ∀ {α : Type} (start : Nat),
    R (MonadExcept.throw (.invalidUtf8 start) : Decoder α)
      (MonadExcept.throw (.invalidUtf8 (start + distance)))
  bind : ∀ {α β : Type} {d d' : Decoder α} {f f' : α → Decoder β}, R d d' →
    (∀ value, R (f value) (f' value)) → R (d >>= f) (d' >>= f')
  offset : ∀ {α : Type} {f f' : Nat → Decoder α}, (∀ start, R (f start) (f' (start + distance))) →
    R (Decoder.offset >>= f) (Decoder.offset >>= f')
  atomically : ∀ {α : Type} {d d' : Decoder α}, R d d' →
    R (Decoder.atomically d) (Decoder.atomically d')
  u8 : R Decoder.u8 Decoder.u8
  bytes : ∀ count, R (Decoder.bytes count) (Decoder.bytes count)

/-- A property of decoders that passes from the parts of a read to the whole.  The failures that a
read declares itself are never truncations. -/
structure Inherited (P : {α : Type} → Decoder α → Prop) : Prop where
  pure : ∀ {α : Type} (value : α), P (Pure.pure value : Decoder α)
  throw : ∀ {α : Type} {e : DecodeError}, e.root.kind ≠ .truncated →
    P (MonadExcept.throw e : Decoder α)
  bind : ∀ {α β : Type} {d : Decoder α} {f : α → Decoder β}, P d → (∀ value, P (f value)) →
    P (d >>= f)
  offset : ∀ {α : Type} {f : Nat → Decoder α}, (∀ start, P (f start)) → P (Decoder.offset >>= f)
  atomically : ∀ {α : Type} {d : Decoder α}, P d → P (Decoder.atomically d)
  context : ∀ {α : Type} {d : Decoder α}, P d → ∀ message, P (d.context message)
  u8 : P Decoder.u8
  bytes : ∀ count, P (Decoder.bytes count)

/-- Whether a read takes every byte that it looks at. -/
def Read.PeekFree : Read → Prop
  | peek => False
  | skip _ | item _ => True
  | vector element => element.PeekFree
  | context read _ => read.PeekFree

namespace Congruence

variable {distance : Nat} {R : {α : Type} → Decoder α → Decoder α → Prop} {α β : Type}

theorem map (h : Congruence distance R) {d d' : Decoder α} (hd : R d d') (f : α → β) :
    R (do return f (← d) : Decoder β) (do return f (← d')) :=
  h.bind hd fun value => h.pure (f value)

theorem word (h : Congruence distance R) (count : Nat) :
    R (Decoder.word count) (Decoder.word count) :=
  h.map (h.bytes count) fun taken => littleEndian taken.data.toList

/-! ### Varints -/

theorem readGroups (h : Congruence distance R) (bits start allowance : Nat) (word : UInt64)
    (shift : Nat) :
    R (Varint.readGroups bits start allowance word shift)
      (Varint.readGroups bits (start + distance) allowance word shift) := by
  induction allowance generalizing word shift with
  | zero =>
      rw [Varint.readGroups, Varint.readGroups]
      apply h.bind h.u8
      intro byte
      cases Varint.continues byte with
      | true => exact h.overflow bits start
      | false => exact h.pure _
  | succ allowance ih =>
      rw [Varint.readGroups, Varint.readGroups]
      apply h.bind h.u8
      intro byte
      cases Varint.continues byte with
      | true => exact ih _ _
      | false => exact h.pure _

theorem groups (h : Congruence distance R) (bits : Nat) :
    R (Varint.groups bits) (Varint.groups bits) :=
  h.atomically (h.offset fun start => h.readGroups bits start _ _ _)

theorem unsigned (h : Congruence distance R) (maxBits : Nat) :
    R (Varint.unsigned maxBits) (Varint.unsigned maxBits) :=
  h.map (h.groups _) fun g => g.word

theorem signed (h : Congruence distance R) (maxBits : Nat) :
    R (Varint.signed maxBits) (Varint.signed maxBits) :=
  h.map (h.groups _) fun g => (g.extended _).toInt64

theorem integer (h : Congruence distance R) (type : IntType) :
    R (Varint.integer type) (Varint.integer type) := by
  apply h.atomically
  apply h.offset
  intro start
  split
  · exact h.bind (h.signed type.bits) fun value => h.pure _
  · apply h.bind (h.unsigned type.bits)
    intro value
    simp only
    split
    · exact h.pure _
    · exact h.overflow type.bits start

theorem u32 (h : Congruence distance R) : R Varint.u32 Varint.u32 := by
  apply h.atomically
  apply h.offset
  intro start
  apply h.bind (h.unsigned 32)
  intro value
  simp only
  split
  · exact h.pure _
  · exact h.overflow 32 start

/-! ### Reads with a length prefix -/

theorem string (h : Congruence distance R) : R Decoder.string Decoder.string := by
  apply h.atomically
  apply h.bind h.u32
  intro size
  exact h.map (h.bytes size.toNat) fun taken => ByteString.mk taken

theorem name (h : Congruence distance R) : R Decoder.name Decoder.name := by
  apply h.atomically
  apply h.offset
  intro start
  apply h.bind h.string
  intro s
  cases s.text? with
  | some text => exact h.pure text
  | none => exact h.invalidUtf8 start

theorem item (h : Congruence distance R) (item : Item) : R item.decoder item.decoder := by
  cases item with
  | u8 => exact h.u8
  | u32LE => exact h.map (h.word 4) UInt32.ofNat
  | u64LE => exact h.map (h.word 8) UInt64.ofNat
  | bytes count => exact h.bytes count
  | unsigned maxBits => exact h.unsigned maxBits
  | signed maxBits => exact h.signed maxBits
  | integer type => exact h.integer type
  | u32 => exact h.u32
  | u64 => exact h.unsigned 64
  | i32 => exact h.map (h.signed 32) Int64.toInt32
  | i64 => exact h.signed 64
  | string => exact h.string
  | name => exact h.name

/-! ### Every read -/

section Contexts

variable (hcontext : ∀ {α : Type} {d d' : Decoder α} (message : String), R d d' →
  R (d.context message) (d'.context message))

include hcontext

theorem elements (h : Congruence distance R) {element element' : Decoder α}
    (helement : R element element') (count left : Nat) (done : Array α) :
    R (Decoder.elements element count left done) (Decoder.elements element' count left done) := by
  induction left generalizing done with
  | zero => exact h.pure done
  | succ left ih =>
      rw [Decoder.elements_succ, Decoder.elements_succ]
      apply h.bind (hcontext _ helement)
      intro value
      exact ih (done.push value)

theorem vector (h : Congruence distance R) {element element' : Decoder α}
    (helement : R element element') : R (Decoder.vector element) (Decoder.vector element') := by
  rw [Decoder.vector_eq, Decoder.vector_eq]
  apply h.atomically
  apply h.bind h.u32
  intro count
  exact h.elements hcontext helement _ _ _

/-- A relation that contexts pass on as well holds of the runs of every read, those with a look at
the next byte included if it holds of such a look. -/
theorem read (h : Congruence distance R) (read : Read)
    (hpeek : read.PeekFree ∨ R Decoder.peek Decoder.peek) : R read.decoder read.decoder := by
  induction read with
  | peek => exact hpeek.resolve_left id
  | skip count => exact h.map (h.bytes count) fun _ => ()
  | item i => exact h.item i
  | vector element ih => exact h.vector hcontext (ih hpeek)
  | context read message ih => exact hcontext message (ih hpeek)

end Contexts

end Congruence

namespace Inherited

variable {P : {α : Type} → Decoder α → Prop}

/-- A property is a relation that does not look at the second decoder. -/
theorem congruence (h : Inherited P) : Congruence 0 (fun d _ => P d) where
  pure := h.pure
  overflow := fun bits start => h.throw (e := .overflow bits start) (fun hkind => nomatch hkind)
  invalidUtf8 := fun start => h.throw (e := .invalidUtf8 start) (fun hkind => nomatch hkind)
  bind := h.bind
  offset := h.offset
  atomically := h.atomically
  u8 := h.u8
  bytes := h.bytes

/-- What is inherited is a property of every read, those with a look at the next byte included if
such a look has it. -/
theorem read (h : Inherited P) (read : Read) (hpeek : read.PeekFree ∨ P Decoder.peek) :
    P read.decoder :=
  h.congruence.read (fun message hd => h.context hd message) read hpeek

end Inherited

end Bytestream
