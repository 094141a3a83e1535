import Bytestream.DecodeError.Basic

/-!
# Checked arithmetic

On a machine, numbers are words of 32 or 64 bits, and a sum may not fit in one.  The operations here
compute in words and stop the program where the exact result is no word, where a shift is as wide as
the word, where a slice reaches outside its buffer, or where bytes are copied to a place of another
size.  Such a stop is a fault of the program, unlike a decode error, which is one of its answers.

The lemmas say when an operation goes through, and what number the word then stands for.
-/

namespace Bytestream.Machine

/-- What can go wrong in a step of a program. -/
inductive Fault where
  /-- A sum that does not fit in its word. -/
  | sum
  /-- A difference below zero. -/
  | difference
  /-- A shift by the width of the word or more. -/
  | shift
  /-- A slice that reaches outside its buffer or ends before it starts. -/
  | slice
  /-- A copy to a place of another size. -/
  | copy
  /-- A loop that goes on after the last of its rounds. -/
  | loop
deriving DecidableEq, Repr

/-- Why a program yields no value. -/
inductive Stop where
  | fault (fault : Fault)
  | failed (e : DecodeError)
deriving DecidableEq, Repr

/-- The value, provided that the condition holds. -/
def checked {α : Type} (condition : Prop) [Decidable condition] (fault : Fault) (value : α) :
    Except Stop α :=
  if condition then .ok value else .error (.fault fault)

def add (a b : UInt64) : Except Stop UInt64 :=
  checked (a.toNat + b.toNat < UInt64.size) .sum (a + b)

def add32 (a b : UInt32) : Except Stop UInt32 :=
  checked (a.toNat + b.toNat < UInt32.size) .sum (a + b)

def sub (a b : UInt64) : Except Stop UInt64 :=
  checked (b ≤ a) .difference (a - b)

def shiftLeft (word : UInt64) (shift : UInt32) : Except Stop UInt64 :=
  checked (shift.toNat < 64) .shift (word <<< shift.toUInt64)

/-- The shifted word, if the shift is narrower than the word.  This one asks instead of faulting. -/
def shiftLeft? (word : UInt64) (shift : UInt32) : Option UInt64 :=
  if shift.toNat < 64 then some (word <<< shift.toUInt64) else none

/-- The bytes as an array of `count` bytes. -/
def copy (count : UInt64) (bytes : ByteArray) : Except Stop ByteArray :=
  checked (bytes.size = count.toNat) .copy bytes

theorem checked_of {α : Type} {condition : Prop} [Decidable condition] (hcondition : condition)
    (fault : Fault) (value : α) : checked condition fault value = .ok value :=
  if_pos hcondition

theorem add_of_lt {a b : UInt64} (hsum : a.toNat + b.toNat < UInt64.size) :
    add a b = .ok (a + b) ∧ (a + b).toNat = a.toNat + b.toNat := by
  refine ⟨checked_of hsum _ _, ?_⟩
  rw [UInt64.toNat_add]
  exact Nat.mod_eq_of_lt hsum

theorem add32_of_lt {a b : UInt32} (hsum : a.toNat + b.toNat < UInt32.size) :
    add32 a b = .ok (a + b) ∧ (a + b).toNat = a.toNat + b.toNat := by
  refine ⟨checked_of hsum _ _, ?_⟩
  rw [UInt32.toNat_add]
  exact Nat.mod_eq_of_lt hsum

theorem sub_of_le {a b : UInt64} (hle : b ≤ a) :
    sub a b = .ok (a - b) ∧ (a - b).toNat = a.toNat - b.toNat :=
  ⟨checked_of hle _ _, UInt64.toNat_sub_of_le a b hle⟩

theorem shiftLeft_of_lt {shift : UInt32} (hshift : shift.toNat < 64) (word : UInt64) :
    shiftLeft word shift = .ok (word <<< shift.toUInt64) :=
  checked_of hshift _ _

theorem copy_of_size {count : UInt64} {bytes : ByteArray} (hsize : bytes.size = count.toNat) :
    copy count bytes = .ok bytes :=
  checked_of hsize _ _

example : add 0xFFFFFFFFFFFFFFFF 1 = .error (.fault .sum) := rfl

end Bytestream.Machine
