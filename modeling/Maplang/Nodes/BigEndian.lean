import Maplang.Nodes.PacketCodec
import Maplang.Stream.Bounds
import Maplang.Stream.Ring

/-!
# Numbers as eight bytes

A `PacketWriter` writes its numbers with the most significant byte first, through a cursor that is
to step over them; `MemoryStream::readBigEndian` and the `readUInt64BE` of the packet reader, which
nothing calls, read such numbers.

## Main definitions

* `writeValues` : write one number after the other.
* `PacketReader.readUInt64BE` : the second reader.
* `fields` : the bytes which numbers should be written as.
* `FieldsRoundTrip` : the numbers are written as these, and both readers read them back.

## Main results

* `PacketReader.readUInt64BE_eq` : both readers compute the same number.
* `readBigEndian_fields`, `PacketReader.readUInt64BE_fields` : they read back what is written as it
  should be.
* `fieldsRoundTrip_iff` : no number is written so.
-/

namespace Maplang

open MemoryStream (bigEndian readBigEndian_spec)

open PacketWriter (lengthField)

/-- `writeUInt64BE(val, &writeTo)` for one value after the other.  The calls leave `writeTo` where
it is. -/
def writeValues (memory : List UInt8) (writeTo : ℕ) : List UInt64 → Code (List UInt8 × ℕ)
  | [] => .ok (memory, writeTo)
  | val :: vals => do
    let memory ← writeUInt64BE val.toNat memory writeTo
    writeValues memory writeTo vals

/-- `readUInt64BE(&startFrom)` : the value, and the pointer after it. -/
def PacketReader.readUInt64BE (memory : List UInt8) (startFrom : ℕ) : Code (ℕ × ℕ) :=
  if memory.length < startFrom + 8 then .error .undefinedBehaviour
  else .ok ([56, 48, 40, 32, 24, 16, 8, 0].zipIdx.foldl
    (fun val (shift, position) =>
      val ||| (memory.getD (startFrom + position) 0).toNat <<< shift) 0, startFrom + 8)

/-- The bytes of numbers, one after the other. -/
def fields (vals : List UInt64) : ByteString := (vals.map fun val => lengthField val.toNat).flatten

/-- The numbers are stored at the cursor and nowhere else, the cursor steps over them, and both
readers read them back. -/
def FieldsRoundTrip (memory : List UInt8) (writeTo : ℕ) (vals : List UInt64) : Prop :=
  ∃ memory', writeValues memory writeTo vals = .ok (memory', writeTo + 8 * vals.length) ∧
    memory' = Ring.overwrite memory writeTo (fields vals) ∧
    ∀ i, ∀ hi : i < vals.length,
      (∀ stream, MemoryStream.Built stream ((memory'.drop writeTo).take (8 * vals.length)) →
        stream.readBigEndian (8 * i) = .ok vals[i].toNat) ∧
      PacketReader.readUInt64BE memory' (writeTo + 8 * i) =
        .ok (vals[i].toNat, writeTo + 8 * i + 8)

/-! ### The readers -/

/-- A byte below the others is added to them. -/
theorem shiftLeft_or_byte (val : ℕ) (byte : UInt8) (shift : ℕ) :
    val <<< (shift + 8) ||| byte.toNat <<< shift = (val * 2 ^ 8 + byte.toNat) <<< shift := by
  rw [Nat.add_comm shift, Nat.shiftLeft_add, ← Nat.shiftLeft_or_distrib,
    ← Nat.shiftLeft_add_eq_or_of_lt byte.toNat_lt, Nat.shiftLeft_eq val]

/-- The eight bytes of a number give it back. -/
theorem bigEndian_lengthField (val : UInt64) : bigEndian (lengthField val.toNat) = val.toNat := by
  have hval := val.toNat_lt
  simp [bigEndian, lengthField, Nat.shiftRight_eq_div_pow]
  omega

theorem fields_cons (val : UInt64) (vals : List UInt64) :
    fields (val :: vals) = lengthField val.toNat ++ fields vals := rfl

theorem length_fields (vals : List UInt64) : (fields vals).length = 8 * vals.length := by
  induction vals with
  | nil => rfl
  | cons val vals ih =>
    rw [fields_cons, List.length_append, PacketWriter.length_lengthField, ih, List.length_cons]
    omega

/-- The field of a number is where the numbers before it end. -/
theorem take_drop_fields {vals : List UInt64} {i : ℕ} (hi : i < vals.length) :
    ((fields vals).drop (8 * i)).take 8 = lengthField vals[i].toNat := by
  induction vals generalizing i with
  | nil => simp at hi
  | cons val vals ih =>
    have hlength := PacketWriter.length_lengthField val.toNat
    cases i with
    | zero => exact List.take_left' hlength
    | succ i =>
      rw [fields_cons, Nat.mul_succ, Nat.add_comm, ← List.drop_drop, List.drop_left' hlength,
        ih (Nat.lt_of_succ_lt_succ hi), List.getElem_cons_succ]

/-- The stream reads back what is written as it should be. -/
theorem readBigEndian_fields {vals : List UInt64} {stream : MemoryStream}
    (h : MemoryStream.Built stream (fields vals)) {i : ℕ} (hi : i < vals.length) :
    stream.readBigEndian (8 * i) = .ok vals[i].toNat := by
  have hsize := h.length_lt
  obtain ⟨hvalid, hcontents⟩ := h.valid
  have hlength := length_fields vals
  rw [readBigEndian_spec hvalid (by rwa [hcontents]) (by rw [hcontents]; omega), hcontents,
    take_drop_fields hi, bigEndian_lengthField]

namespace PacketReader

/-- Both readers compute the same number. -/
theorem readUInt64BE_eq {memory : List UInt8} {startFrom : ℕ}
    (h : startFrom + 8 ≤ memory.length) :
    readUInt64BE memory startFrom =
      .ok (bigEndian ((memory.drop startFrom).take 8), startFrom + 8) := by
  have hget : ∀ k < 8, memory.getD (startFrom + k) 0 =
      ((memory.drop startFrom).take 8).getD k 0 := fun k hk => by
    rw [List.getD_eq_getElem?_getD, List.getD_eq_getElem?_getD, List.getElem?_take, if_pos hk,
      List.getElem?_drop]
  have hlength : ((memory.drop startFrom).take 8).length = 8 := by
    rw [List.length_take, List.length_drop]
    omega
  rw [readUInt64BE, if_neg (by omega)]
  simp only [List.zipIdx_cons, List.zipIdx_nil, List.foldl_cons, List.foldl_nil]
  rw [hget _ (by decide), hget _ (by decide), hget _ (by decide), hget _ (by decide),
    hget _ (by decide), hget _ (by decide), hget _ (by decide), hget _ (by decide)]
  match (memory.drop startFrom).take 8, hlength with
  | [a, b, c, d, e, f, g, h], _ =>
    have ha := a.toNat_lt
    have hb := b.toNat_lt
    have hc := c.toNat_lt
    have hd := d.toNat_lt
    have he := e.toNat_lt
    have hf := f.toNat_lt
    have hg := g.toNat_lt
    simp only [List.getD_cons_zero, List.getD_cons_succ, Nat.zero_add, Nat.zero_or, bigEndian,
      List.foldl_cons, List.foldl_nil]
    rw [shiftLeft_or_byte _ b 48, shiftLeft_or_byte _ c 40, shiftLeft_or_byte _ d 32,
      shiftLeft_or_byte _ e 24, shiftLeft_or_byte _ f 16, shiftLeft_or_byte _ g 8,
      shiftLeft_or_byte _ h 0, Nat.shiftLeft_zero]
    congr 2
    omega

/-- The packet reader reads back what is written as it should be. -/
theorem readUInt64BE_fields {vals : List UInt64} {i : ℕ} (hi : i < vals.length)
    (before after : ByteString) :
    readUInt64BE (before ++ (fields vals ++ after)) (before.length + 8 * i) =
      .ok (vals[i].toNat, before.length + 8 * i + 8) := by
  have hlength := length_fields vals
  have hfield : ((before ++ (fields vals ++ after)).drop (before.length + 8 * i)).take 8 =
      lengthField vals[i].toNat := by
    rw [← List.drop_drop, List.drop_left, List.drop_append_of_le_length (by omega),
      List.take_append_of_le_length (by rw [List.length_drop]; omega), take_drop_fields hi]
  rw [readUInt64BE_eq (by simp only [List.length_append]; omega), hfield, bigEndian_lengthField]

end PacketReader

/-! ### The writer -/

/-- **No number is written**: the first one is undefined. -/
theorem fieldsRoundTrip_iff (memory : List UInt8) (writeTo : ℕ) (vals : List UInt64) :
    FieldsRoundTrip memory writeTo vals ↔ vals = [] := by
  constructor
  · rintro ⟨memory', hwritten, -⟩
    cases vals with
    | nil => rfl
    | cons val vals =>
      rw [writeValues, writeUInt64BE_undefined] at hwritten
      cases hwritten
  · rintro rfl
    refine ⟨memory, rfl, ?_, by simp⟩
    rw [fields, List.map_nil, List.flatten_nil, Ring.overwrite]
    simp

/-- One zero, in a buffer of eight bytes. -/
theorem not_fieldsRoundTrip_zero :
    ¬ ∀ (memory : List UInt8) (writeTo : ℕ) (vals : List UInt64),
      writeTo + 8 * vals.length ≤ memory.length → FieldsRoundTrip memory writeTo vals := by
  intro h
  obtain ⟨memory', hwritten, -⟩ := h (List.replicate 8 0) 0 [0] (by decide)
  cases hwritten

end Maplang
