import Mathlib
import Bytestream.Proofs.Decoder.Transaction
import Bytestream.Read

/-!
# Every read is a transaction

A varint takes a byte at least, and with it whatever starts with a varint: strings, names and
vectors.  All of these go back to their start if they fail, however far they got, and a vector does
so whatever its elements do when they fail.
-/

namespace Bytestream

namespace Varint

open Decoder

theorem advances_readGroups (bits start allowance : Nat) (word : UInt64) (shift : Nat) :
    Advances (readGroups bits start allowance word shift) 1 := by
  induction allowance generalizing word shift with
  | zero =>
      rw [readGroups]
      apply advances_u8.bind
      intro byte
      cases continues byte with
      | true => exact advances_throw _ 0
      | false => exact advances_pure _
  | succ allowance ih =>
      rw [readGroups]
      apply advances_u8.bind
      intro byte
      cases continues byte with
      | true => exact (ih _ _).mono (Nat.zero_le 1)
      | false => exact advances_pure _

theorem advances_groups (bits : Nat) : Advances (groups bits) 1 :=
  (Advances.offset fun start => advances_readGroups bits start _ _ _).atomically

theorem reverts_groups (bits : Nat) : Reverts (groups bits) :=
  reverts_atomically _

theorem advances_unsigned (maxBits : Nat) : Advances (unsigned maxBits) 1 :=
  (advances_groups _).map fun g => g.word

theorem reverts_unsigned (maxBits : Nat) : Reverts (unsigned maxBits) :=
  (reverts_groups _).map fun g => g.word

theorem advances_signed (maxBits : Nat) : Advances (signed maxBits) 1 :=
  (advances_groups _).map fun g => (g.extended _).toInt64

theorem reverts_signed (maxBits : Nat) : Reverts (signed maxBits) :=
  (reverts_groups _).map fun g => (g.extended _).toInt64

theorem advances_integer (type : IntType) : Advances (integer type) 1 := by
  apply Advances.atomically
  apply Advances.offset
  intro start
  split
  · exact (advances_signed type.bits).bind fun value => advances_pure _
  · apply (advances_unsigned type.bits).bind
    intro value
    simp only
    split
    · exact advances_pure _
    · exact advances_throw _ 0

theorem advances_u32 : Advances u32 1 := by
  apply Advances.atomically
  apply Advances.offset
  intro start
  apply (advances_unsigned 32).bind
  intro value
  simp only
  split
  · exact advances_pure _
  · exact advances_throw _ 0

end Varint

namespace Decoder

variable {α : Type}

theorem advances_string : Advances string 1 := by
  apply Advances.atomically
  apply Varint.advances_u32.bind
  intro size
  exact ((advances_bytes size.toNat).map fun taken => ByteString.mk taken).mono (Nat.zero_le _)

theorem advances_name : Advances name 1 := by
  apply Advances.atomically
  apply Advances.offset
  intro start
  apply advances_string.bind
  intro s
  cases s.text? with
  | some text => exact advances_pure text
  | none => exact advances_throw _ 0

/-- The elements of a vector move on if each of them does, and do not move back in any case. -/
theorem advances_elements {element : Decoder α} (helement : Advances element 0)
    (count left : Nat) (done : Array α) : Advances (elements element count left done) 0 := by
  induction left generalizing done with
  | zero => exact advances_pure done
  | succ left ih =>
      rw [elements_succ]
      apply (helement.mapError _).bind
      intro value
      exact ih (done.push value)

theorem advances_vector {element : Decoder α} (helement : Advances element 0) :
    Advances (vector element) 1 := by
  rw [vector_eq]
  apply Advances.atomically
  apply Varint.advances_u32.bind
  intro count
  exact advances_elements helement _ _ _

end Decoder

open Decoder

/-- The number of bytes that a success takes at least.  Whatever starts with a varint takes one. -/
def Item.leastSize : Item → Nat
  | u8 => 1
  | u32LE => 4
  | u64LE => 8
  | bytes count => count
  | unsigned _ | signed _ | integer _ | u32 | u64 | i32 | i64 => 1
  | string | name => 1

theorem Item.advances (item : Item) : Advances item.decoder item.leastSize := by
  cases item with
  | u8 => exact advances_u8
  | u32LE => exact (advances_word 4).map UInt32.ofNat
  | u64LE => exact (advances_word 8).map UInt64.ofNat
  | bytes count => exact advances_bytes count
  | unsigned maxBits => exact Varint.advances_unsigned maxBits
  | signed maxBits => exact Varint.advances_signed maxBits
  | integer type => exact Varint.advances_integer type
  | u32 => exact Varint.advances_u32
  | u64 => exact Varint.advances_unsigned 64
  | i32 => exact (Varint.advances_signed 32).map Int64.toInt32
  | i64 => exact Varint.advances_signed 64
  | string => exact advances_string
  | name => exact advances_name

theorem Item.reverts (item : Item) : Reverts item.decoder := by
  cases item with
  | u8 => exact reverts_u8
  | u32LE => exact (reverts_word 4).map UInt32.ofNat
  | u64LE => exact (reverts_word 8).map UInt64.ofNat
  | bytes count => exact reverts_bytes count
  | unsigned maxBits => exact Varint.reverts_unsigned maxBits
  | signed maxBits => exact Varint.reverts_signed maxBits
  | integer type => exact reverts_atomically _
  | u32 => exact reverts_atomically _
  | u64 => exact Varint.reverts_unsigned 64
  | i32 => exact (Varint.reverts_signed 32).map Int64.toInt32
  | i64 => exact Varint.reverts_signed 64
  | string => exact reverts_atomically _
  | name => exact reverts_atomically _

/-- The number of bytes that a success takes at least.  A look at the next byte takes none, and a
vector takes one for its length even if it is empty. -/
def Read.leastSize : Read → Nat
  | peek => 0
  | skip count => count
  | item i => i.leastSize
  | vector _ => 1
  | context read _ => read.leastSize

theorem Read.advances (read : Read) : Advances read.decoder read.leastSize := by
  induction read with
  | peek => exact advances_peek
  | skip count => exact advances_skip count
  | item i => exact i.advances
  | vector element ih => exact advances_vector (ih.mono (Nat.zero_le _))
  | context read message ih => exact ih.mapError _

theorem Read.reverts (read : Read) : Reverts read.decoder := by
  induction read with
  | peek => exact reverts_peek
  | skip count => exact reverts_skip count
  | item i => exact i.reverts
  | vector element ih =>
      rw [decoder, vector_eq]
      exact reverts_atomically _
  | context read message ih => exact ih.mapError _

end Bytestream
