import Mathlib
import Bytestream.Proofs.Decoder.Prefixed
import Bytestream.Proofs.Read.Run
import Bytestream.Proofs.Varint.SignedPadding
import Bytestream.Schema

/-!
# Reading back a record

A record is a list of fields, each a schema with a value of it, and it is written as its fields are,
one behind the other.  Every schema consumes what was written for it, by induction on the schema, and
so a run over the fields consumes the record, by induction on the list.  Neither what stands before
the record nor what stands behind it makes any difference.
-/

namespace Bytestream

open Decoder

theorem Decoder.consumes_word_toLittleEndian (count n : Nat) :
    Consumes (word count) (toLittleEndian count n) (n % 256 ^ count) := by
  have hword := consumes_word (toLittleEndian count n)
  rwa [length_toLittleEndian, littleEndian_toLittleEndian] at hword

namespace Schema

theorem consumes_u32LE (value : UInt32) :
    Consumes Decoder.u32LE (toLittleEndian 4 value.toNat) value := by
  have hlt : value.toNat < 256 ^ 4 := value.toNat_lt
  have hvalue : UInt32.ofNat (value.toNat % 256 ^ 4) = value := by
    rw [Nat.mod_eq_of_lt hlt]
    exact UInt32.ofNat_toNat
  have hread := (consumes_word_toLittleEndian 4 value.toNat).map UInt32.ofNat
  rwa [hvalue] at hread

theorem consumes_u64LE (value : UInt64) :
    Consumes Decoder.u64LE (toLittleEndian 8 value.toNat) value := by
  have hlt : value.toNat < 256 ^ 8 := value.toNat_lt
  have hvalue : UInt64.ofNat (value.toNat % 256 ^ 8) = value := by
    rw [Nat.mod_eq_of_lt hlt]
    exact UInt64.ofNat_toNat
  have hread := (consumes_word_toLittleEndian 8 value.toNat).map UInt64.ofNat
  rwa [hvalue] at hread

theorem consumes_encodeSigned {type : IntType} (htype : type.isSigned = true)
    (word : BitVec type.bits) :
    Consumes (Varint.integer type) (Varint.encodeSigned word.toInt) ⟨type, word⟩ := by
  have hfits : Varint.SignedFits type.bits word.toInt := ⟨BitVec.le_toInt word, BitVec.toInt_lt⟩
  have hlength := Varint.length_encodeSigned_le_groupLimit type.bits_pos hfits
  have hread := Varint.consumes_integer_of_signed htype
    (Varint.terminated_encodeSigned word.toInt) (Nat.le_succ_of_le hlength)
  rwa [Varint.signedSum_encodeSigned, BitVec.ofInt_toInt] at hread

theorem consumes_encodeUnsigned {type : IntType} (htype : type.isSigned = false)
    (word : BitVec type.bits) :
    Consumes (Varint.integer type) (Varint.encodeUnsigned word.toNat) ⟨type, word⟩ := by
  have hlength := Varint.length_encodeUnsigned_le_groupLimit type.bits_pos word.isLt
  have hfits : Varint.positionalSum (Varint.encodeUnsigned word.toNat) < 2 ^ type.bits := by
    rw [Varint.positionalSum_encodeUnsigned]
    exact word.isLt
  have hread := Varint.consumes_integer_of_unsigned htype
    (Varint.terminated_encodeUnsigned word.toNat) (Nat.le_succ_of_le hlength) hfits
  rwa [Varint.positionalSum_encodeUnsigned, BitVec.ofNat_toNat, BitVec.setWidth_eq] at hread

/-- The shortest varint of an integer is within the limit of its type, and is read back whole. -/
theorem consumes_encodeInteger {type : IntType} {n : TypedInt} (hn : n.type = type) :
    Consumes (Varint.integer type) (encodeInteger n) n := by
  subst hn
  cases htype : n.type.isSigned with
  | true =>
      have hvalue : n.value = n.word.toInt := if_pos htype
      rw [encodeInteger, if_pos htype, hvalue]
      exact consumes_encodeSigned htype n.word
  | false =>
      have hvalue : n.value = n.word.toNat := if_neg (by simp [htype])
      rw [encodeInteger, if_neg (by simp [htype]), hvalue, Int.toNat_natCast]
      exact consumes_encodeUnsigned htype n.word

/-- A value that fits is read back from what was written for it. -/
theorem consumes_encode (schema : Schema) (value : schema.Value) (hfits : schema.Fits value) :
    Consumes schema.decoder (schema.encode value) value := by
  induction schema with
  | u8 => exact consumes_u8 value
  | u32LE => exact consumes_u32LE value
  | u64LE => exact consumes_u64LE value
  | integer type => exact consumes_encodeInteger hfits
  | string => exact consumes_string hfits
  | name => exact consumes_name hfits
  | vector element ih =>
      exact consumes_vector (fun part hpart => ih part (hfits.2 part hpart)) hfits.1

end Schema

/-- A field of a record. -/
structure Field where
  schema : Schema
  value : schema.Value

namespace Field

def Fits (field : Field) : Prop :=
  field.schema.Fits field.value

def encode (field : Field) : List UInt8 :=
  field.schema.encode field.value

/-- The read that yields the value of the field. -/
def read (field : Field) : Read :=
  field.schema.toRead

/-- The read of the field together with its value. -/
def outcome (field : Field) : (read : Read) × Except DecodeError read.Value :=
  ⟨field.schema.toRead, .ok field.value⟩

end Field

/-- What a step of a run read, and what came of it. -/
def Read.Step.outcome (step : Read.Step) : (read : Read) × Except DecodeError read.Value :=
  ⟨step.read, step.result⟩

namespace Read

/-- A decoder that consumes the next bytes makes a step that succeeds right behind them. -/
theorem ofRead_of_consumes {read : Read} {bytes : List UInt8} {value : read.Value}
    (hread : Consumes read.decoder bytes value) {c : Cursor} (hbytes : bytes <+: c.unread) :
    Step.ofRead c read =
      ⟨read, c, .ok value, c.advance bytes.length (Cursor.length_le_remaining hbytes)⟩ := by
  simp only [Step.ofRead, Decoder.result, Decoder.after, hread c hbytes]

theorem run_fields (fields : List Field) (hfits : ∀ field ∈ fields, field.Fits) (c : Cursor)
    (hbytes : fields.flatMap Field.encode <+: c.unread) :
    (run c (fields.map Field.read)).map Step.outcome = fields.map Field.outcome ∧
      finish c (fields.map Field.read) =
        c.advance (fields.flatMap Field.encode).length (Cursor.length_le_remaining hbytes) := by
  induction fields generalizing c with
  | nil => exact ⟨rfl, rfl⟩
  | cons field fields ih =>
      obtain ⟨hfield, hrest⟩ := List.forall_mem_cons.mp hfits
      rw [List.flatMap_cons] at hbytes
      have hfront : field.encode <+: c.unread := (List.prefix_append _ _).trans hbytes
      have hstep : Step.ofRead c field.read = ⟨field.read, c, .ok field.value,
          c.advance field.encode.length (Cursor.length_le_remaining hfront)⟩ :=
        ofRead_of_consumes (field.schema.consumes_encode field.value hfield) hfront
      have hback : fields.flatMap Field.encode <+:
          (c.advance field.encode.length (Cursor.length_le_remaining hfront)).unread :=
        Cursor.prefix_unread_advance hbytes _
      obtain ⟨hrun, hfinish⟩ := ih hrest _ hback
      refine ⟨?_, ?_⟩
      · simp only [List.map_cons, run, hstep, hrun]
        rfl
      · simp only [List.map_cons, finish, hstep, hfinish]
        exact Cursor.ext rfl (by simp [Nat.add_assoc])

/-- A record is read back field by field, wherever it stands in a buffer.  Every field yields the
value that was written, and the cursor ends behind the record. -/
theorem run_record (before after : ByteArray) (fields : List Field)
    (hfits : ∀ field ∈ fields, field.Fits) :
    ∃ c, Cursor.openAt (before ++ (fields.flatMap Field.encode).toByteArray ++ after) before.size =
        .ok c ∧
      (run c (fields.map Field.read)).map Step.outcome = fields.map Field.outcome ∧
      (finish c (fields.map Field.read)).data = c.data ∧
      (finish c (fields.map Field.read)).offset =
        before.size + (fields.flatMap Field.encode).length := by
  obtain ⟨c, hopen, _, hoffset, hunread⟩ :=
    Cursor.exists_openAt_append before ((fields.flatMap Field.encode).toByteArray ++ after)
  have hbytes : fields.flatMap Field.encode <+: c.unread :=
    ⟨after.data.toList, by rw [hunread]; simp⟩
  obtain ⟨hrun, hfinish⟩ := run_fields fields hfits c hbytes
  refine ⟨c, by rw [ByteArray.append_assoc]; exact hopen, hrun, ?_, ?_⟩
  · rw [hfinish]
    rfl
  · rw [hfinish, Cursor.offset_advance, hoffset]

/-- A record with a negative integer, texts in two layers of vectors, and a word. -/
def nestedRecord : List Field :=
  [⟨.integer .i16, ⟨.i16, BitVec.ofInt 16 (-129)⟩⟩,
    ⟨.vector (.vector .name), (#[#["é", ""], #[]] : Array (Array String))⟩,
    ⟨.u32LE, (0x01020304 : UInt32)⟩]

example : nestedRecord.flatMap Field.encode =
    [0xFF, 0x7E, 0x02, 0x02, 0x02, 0xC3, 0xA9, 0x00, 0x00, 0x04, 0x03, 0x02, 0x01] := by
  cbv

theorem nestedRecord_fits : ∀ field ∈ nestedRecord, field.Fits := by
  have htext : "é".utf8ByteSize < 2 ^ 32 := by decide
  intro field hfield
  simp only [nestedRecord, List.mem_cons, List.not_mem_nil, or_false] at hfield
  rcases hfield with rfl | rfl | rfl
  · rfl
  · simpa [Field.Fits, Schema.Fits] using htext
  · trivial

/-- The record is read back between a byte that continues a varint and one that does not end it. -/
theorem run_nestedRecord :
    (∀ field ∈ nestedRecord, field.Fits) ∧
      ∃ c, Cursor.openAt (⟨#[0x80]⟩ ++ (nestedRecord.flatMap Field.encode).toByteArray ++ ⟨#[0xFF]⟩)
          (ByteArray.mk #[0x80]).size = .ok c ∧
        (run c (nestedRecord.map Field.read)).map Step.outcome = nestedRecord.map Field.outcome ∧
        (finish c (nestedRecord.map Field.read)).data = c.data ∧
        (finish c (nestedRecord.map Field.read)).offset =
          (ByteArray.mk #[0x80]).size + (nestedRecord.flatMap Field.encode).length :=
  ⟨nestedRecord_fits, run_record ⟨#[0x80]⟩ ⟨#[0xFF]⟩ nestedRecord nestedRecord_fits⟩

end Read

end Bytestream
