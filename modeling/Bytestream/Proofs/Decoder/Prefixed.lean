import Mathlib
import Bytestream.Proofs.Varint.Consumption
import Bytestream.Decoder.Prefixed

/-!
# Consuming what a length announces

A string, a name and a vector are written as their length in the shortest varint and then their
bytes or elements.  Each of them is consumed in this form, and a vector in the form of its elements,
as long as its length fits in the varint that announces it.
-/

namespace Bytestream.Decoder

variable {α : Type}

theorem consumes_string {s : ByteString} (hsize : s.size < 2 ^ 32) :
    Consumes string (Varint.encodeUnsigned s.size ++ s.bytes.data.toList) s := by
  have hlength : (UInt32.ofNat s.size).toNat = s.bytes.size := UInt32.toNat_ofNat_of_lt' hsize
  apply Consumes.atomically
  apply (Varint.consumes_u32_encodeUnsigned hsize).bind
  rw [hlength]
  exact (consumes_bytes s.bytes).map ByteString.mk

theorem consumes_name {text : String} (hsize : text.utf8ByteSize < 2 ^ 32) :
    Consumes name (Varint.encodeUnsigned text.utf8ByteSize ++ text.toUTF8.data.toList) text := by
  have htext : (ByteString.mk text.toUTF8).text? = some text := ByteString.text?_eq_some_iff.mpr rfl
  apply Consumes.atomically
  apply Consumes.offset
  intro start
  apply (consumes_string (s := ⟨text.toUTF8⟩) hsize).bind_pure
  rw [htext]

/-- The elements of a vector are consumed one after the other. -/
theorem consumes_elements {element : Decoder α} {encode : α → List UInt8} {values : List α}
    (hvalues : ∀ value ∈ values, Consumes element (encode value) value) (count : Nat)
    (done : Array α) :
    Consumes (elements element count values.length done) (values.flatMap encode)
      (done ++ values.toArray) := by
  induction values generalizing done with
  | nil =>
      rw [Array.append_empty]
      exact consumes_pure done
  | cons value values ih =>
      obtain ⟨hvalue, hrest⟩ := List.forall_mem_cons.mp hvalues
      have hdone : done.push value ++ values.toArray = done ++ (value :: values).toArray := by
        simp
      rw [← hdone, List.length_cons, List.flatMap_cons, elements_succ]
      exact (hvalue.mapError _).bind (ih hrest (done.push value))

theorem consumes_vector {element : Decoder α} {encode : α → List UInt8} {values : Array α}
    (hvalues : ∀ value ∈ values, Consumes element (encode value) value)
    (hsize : values.size < 2 ^ 32) :
    Consumes (vector element)
      (Varint.encodeUnsigned values.size ++ values.toList.flatMap encode) values := by
  have hlength : (UInt32.ofNat values.size).toNat = values.toList.length := by
    rw [UInt32.toNat_ofNat_of_lt' hsize, Array.length_toList]
  have hall : ∀ value ∈ values.toList, Consumes element (encode value) value :=
    fun value hvalue => hvalues value (Array.mem_toList_iff.mp hvalue)
  have helements := consumes_elements hall values.toList.length #[]
  rw [Array.toArray_toList, Array.empty_append] at helements
  rw [vector_eq]
  apply Consumes.atomically
  apply (Varint.consumes_u32_encodeUnsigned hsize).bind
  rw [hlength]
  exact helements

end Bytestream.Decoder
