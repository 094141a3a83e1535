import Bytestream.Decoder.Fixed

/-!
# The groups of a varint

A varint is written in base 128, the least significant group first.  A byte holds one group in its
low seven bits, and its high bit says that another byte follows.  How many bytes may say so depends
on the width of the value: a value of `bits` bits has at most `groupLimit bits` groups, and one
continuation byte more than that is an overflow.

The groups are gathered in a word of 64 bits.  Bits that fall beyond it are dropped, here as well as
in the shift that places a group, so that what a long varint means is settled by this module alone.
-/

namespace Bytestream.Varint

/-- The width that a read of `maxBits` bits has: at least one bit, and at most a whole word. -/
def clampWidth (maxBits : Nat) : Nat :=
  max 1 (min maxBits 64)

/-- The number of groups that `bits` bits fill, the last of them perhaps in part. -/
def groupLimit (bits : Nat) : Nat :=
  (bits + 6) / 7

/-- Whether the byte says that another one follows. -/
def continues (byte : UInt8) : Bool :=
  byte &&& 0x80 != 0

/-- The group that the byte holds. -/
def payload (byte : UInt8) : UInt8 :=
  byte &&& 0x7F

/-- A group at its place in the word, `shift` bits up.  Beyond the word nothing is left of it. -/
def place (group : UInt8) (shift : Nat) : UInt64 :=
  if shift < 64 then group.toUInt64 <<< UInt64.ofNat shift else 0

/-- What the bytes of one varint amount to. -/
structure Groups where
  /-- The groups side by side, as far as they fit in a word. -/
  word : UInt64
  /-- The number of bits that the groups write, those beyond the word included. -/
  width : Nat
  /-- The byte that ends the varint. -/
  last : UInt8
deriving DecidableEq, Repr

/-- Reads the rest of a varint that began at `start`, with `word` gathered from the `shift` bits so
far.  Another `allowance` continuation bytes may follow. -/
def readGroups (bits start : Nat) : (allowance : Nat) → (word : UInt64) → (shift : Nat) →
    Decoder Groups
  | allowance, word, shift => do
      let byte ← Decoder.u8
      let word := word ||| place (payload byte) shift
      if continues byte then
        match allowance with
        | 0 => throw (.overflow bits start)
        | allowance + 1 => readGroups bits start allowance word (shift + 7)
      else
        return { word := word, width := shift + 7, last := byte }

/-- One byte decides how the rest is read: it ends the varint, or exceeds the allowance, or is one
continuation byte fewer to come. -/
theorem readGroups_apply (bits start allowance : Nat) (word : UInt64) (shift : Nat) (c : Cursor) :
    readGroups bits start allowance word shift c =
      match Decoder.u8 c with
      | .ok byte c' =>
          if continues byte then
            match allowance with
            | 0 => .error (.overflow bits start) c'
            | allowance + 1 =>
                readGroups bits start allowance (word ||| place (payload byte) shift) (shift + 7) c'
          else
            .ok { word := word ||| place (payload byte) shift, width := shift + 7, last := byte } c'
      | .error e c' => .error e c' := by
  rw [readGroups]
  simp only [bind, EStateM.bind]
  rcases Decoder.u8 c with ⟨byte, c'⟩ | ⟨e, c'⟩
  · rcases allowance with _ | allowance <;> cases hbyte : continues byte <;>
      simp only [hbyte, Bool.false_eq_true, ↓reduceIte] <;> rfl
  · rfl

/-- Reads the groups of a varint whose value has `bits` bits. -/
def groups (bits : Nat) : Decoder Groups :=
  Decoder.atomically do
    let start ← Decoder.offset
    readGroups bits start (groupLimit bits) 0 0

example : groupLimit 32 = 5 ∧ groupLimit 8 = 2 ∧ groupLimit 64 = 10 := by decide

example : place 0x7F 63 = 0x8000000000000000 ∧ place 0x7F 70 = 0 := by decide

end Bytestream.Varint
