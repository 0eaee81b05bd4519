import Maplang.Json.Basic

/-!
# Buffers and packets

A `Buffer` is a pointer and a length, and the two are independent: a length may be set without
regard to the memory the pointer leads to.  The model keeps the memory that can be reached from
the pointer; `Buffer.Valid` says the length stays inside it.

* `Buffer.slice`, `BufferFactory`, `memcpy` : how buffers are made and filled.
* `BufferFactory.Ensures` : what code does unless it runs out of memory.
* `Packet`, `Push` : packets, and packets handed to a packet pusher.
-/

namespace Maplang

/-- `struct Buffer`. -/
structure Buffer where
  /-- The memory from the pointer to the end of its allocation, `none` for the null pointer. -/
  data : Option (List UInt8) := none
  /-- The number of bytes that belong to the buffer. -/
  length : ℕ := 0
  deriving DecidableEq, Repr

namespace Buffer

/-- The memory reached from the pointer. -/
def memory (b : Buffer) : List UInt8 := b.data.getD []

/-- The length stays inside the memory; a null buffer is empty. -/
def Valid (b : Buffer) : Prop := b.length ≤ b.memory.length

instance (b : Buffer) : Decidable b.Valid := inferInstanceAs (Decidable (_ ≤ _))

/-- The buffer is a whole array: no longer than an array can be, and all its memory belongs to
it. -/
structure Allocated (b : Buffer) : Prop where
  length_memory : b.memory.length = b.length
  length_le : b.length ≤ ptrdiffMax

/-- The buffer is a part of an array. -/
structure Readable (b : Buffer) : Prop where
  valid : b.Valid
  length_le : b.length ≤ ptrdiffMax

instance (b : Buffer) : Decidable b.Readable :=
  decidable_of_iff (b.Valid ∧ b.length ≤ ptrdiffMax) ⟨fun h => ⟨h.1, h.2⟩, fun h => ⟨h.1, h.2⟩⟩

/-- The contents of a buffer. -/
def contents (b : Buffer) : List UInt8 := b.memory.take b.length

/-- A buffer that holds exactly the given bytes. -/
def ofBytes (bs : List UInt8) : Buffer := ⟨some bs, bs.length⟩

/-- `Buffer::slice`: a view of the same memory.  The default length `SIZE_MAX`, which no buffer
exceeds, is `none`. -/
def slice (b : Buffer) (offset : ℕ) (length : Option ℕ := none) : Buffer :=
  if b.length ≤ offset then {}
  else
    let maxLength := b.length - offset
    ⟨b.data.map (List.drop offset), min maxLength (length.getD maxLength)⟩

theorem length_contents {b : Buffer} (h : b.Valid) : b.contents.length = b.length := by
  rw [contents, List.length_take]
  exact Nat.min_eq_left h

theorem memory_slice {b : Buffer} {offset : ℕ} (length : Option ℕ) (h : offset < b.length) :
    (b.slice offset length).memory = b.memory.drop offset := by
  unfold slice memory
  rw [if_neg (by omega)]
  cases b.data <;> simp

theorem length_slice {b : Buffer} {offset : ℕ} (length : Option ℕ) (h : offset < b.length) :
    (b.slice offset length).length =
      min (b.length - offset) (length.getD (b.length - offset)) := by
  unfold slice
  rw [if_neg (by omega)]

theorem valid_slice {b : Buffer} (h : b.Valid) (offset : ℕ) (length : Option ℕ) :
    (b.slice offset length).Valid := by
  by_cases ho : offset < b.length
  · unfold Valid at *
    rw [memory_slice _ ho, length_slice _ ho, List.length_drop]
    omega
  · simp [slice, Nat.le_of_not_lt ho, Valid]

/-- A slice holds the bytes of the buffer from `offset`, ... -/
theorem contents_slice {b : Buffer} (offset : ℕ) :
    (b.slice offset).contents = b.contents.drop offset := by
  by_cases ho : offset < b.length
  · rw [contents, memory_slice _ ho, length_slice _ ho, contents, List.drop_take, Option.getD_none,
      Nat.min_self]
  · have hlength : b.contents.length ≤ offset := by
      rw [contents, List.length_take]
      omega
    rw [List.drop_eq_nil_of_le hlength]
    simp [slice, Nat.le_of_not_lt ho, contents]

/-- ... or at most `length` of them. -/
theorem contents_slice_some {b : Buffer} (offset length : ℕ) :
    (b.slice offset (some length)).contents = (b.contents.drop offset).take length := by
  rw [← contents_slice]
  by_cases ho : offset < b.length
  · rw [contents, contents, memory_slice _ ho, memory_slice _ ho, length_slice _ ho,
      length_slice _ ho, List.take_take, Option.getD_some, Option.getD_none, Nat.min_self,
      Nat.min_comm]
  · simp [slice, Nat.le_of_not_lt ho, contents]

end Buffer

/-- `class BufferFactory`; what is in a new buffer is not known. -/
structure BufferFactory where
  Create : ℕ → Code Buffer
  /-- A buffer is as long as asked for, ... -/
  create_length : ∀ {bufferSize buffer}, Create bufferSize = .ok buffer →
    buffer.length = bufferSize
  /-- ... and an array of its own. -/
  create_allocated : ∀ {bufferSize buffer}, Create bufferSize = .ok buffer → buffer.Allocated
  /-- When there is no memory for it, `new` throws. -/
  create_error : ∀ {bufferSize fault}, Create bufferSize = .error fault →
    ∃ what, fault = .exception what

namespace BufferFactory

variable {factory : BufferFactory} {α β : Type}

/-- Code returns a value with the property, or throws what `new` throws when there is no memory
for a buffer. -/
def Ensures (factory : BufferFactory) (code : Code α) (P : α → Prop) : Prop :=
  (∃ a, code = .ok a ∧ P a) ∨
    ∃ bufferSize what, factory.Create bufferSize = .error (.exception what) ∧
      code = .error (.exception what)

theorem Ensures.ok {P : α → Prop} {a : α} (h : P a) : factory.Ensures (.ok a) P := .inl ⟨a, rfl, h⟩

theorem Ensures.imp {P Q : α → Prop} {code : Code α} (h : factory.Ensures code P)
    (himp : ∀ a, P a → Q a) : factory.Ensures code Q := by
  rcases h with ⟨a, rfl, ha⟩ | hthrown
  · exact .ok (himp a ha)
  · exact .inr hthrown

theorem Ensures.bind {P : α → Prop} {Q : β → Prop} {code : Code α} {f : α → Code β}
    (h : factory.Ensures code P) (hf : ∀ a, code = .ok a → P a → factory.Ensures (f a) Q) :
    factory.Ensures (code >>= f) Q := by
  rcases h with ⟨a, rfl, ha⟩ | ⟨bufferSize, what, hcreate, rfl⟩
  · exact hf a rfl ha
  · exact .inr ⟨bufferSize, what, hcreate, rfl⟩

/-- The buffers of this factory are filled with zeros. -/
def zeros : BufferFactory where
  Create bufferSize :=
    if bufferSize ≤ ptrdiffMax then .ok (Buffer.ofBytes (List.replicate bufferSize 0))
    else .error (.exception "std::bad_alloc")
  create_length := by
    intro bufferSize buffer h
    split at h <;> cases h
    exact List.length_replicate
  create_allocated := by
    intro bufferSize buffer h
    split at h <;> cases h
    exact ⟨rfl, Nat.le_trans (Nat.le_of_eq List.length_replicate) ‹_›⟩
  create_error := by
    intro bufferSize fault h
    split at h <;> cases h
    exact ⟨_, rfl⟩

theorem ensures_create (factory : BufferFactory) (bufferSize : ℕ) :
    factory.Ensures (factory.Create bufferSize) fun buffer =>
      buffer.length = bufferSize ∧ buffer.Allocated := by
  cases hcreate : factory.Create bufferSize with
  | ok buffer => exact .ok ⟨factory.create_length hcreate, factory.create_allocated hcreate⟩
  | error fault =>
    obtain ⟨what, rfl⟩ := factory.create_error hcreate
    exact .inr ⟨bufferSize, what, hcreate, rfl⟩

end BufferFactory

/-- `memcpy(memory + writeTo, source, length)`. -/
def memcpy (memory : List UInt8) (writeTo : ℕ) (source : List UInt8) (length : ℕ) :
    Code (List UInt8) :=
  if source.length < length ∨ memory.length < writeTo + length then .error .undefinedBehaviour
  else .ok (memory.take writeTo ++ source.take length ++ memory.drop (writeTo + length))

/-- A copy that stays inside both memories; what is in front of it stays as it was. -/
theorem memcpy_spec {memory source : List UInt8} {writeTo length : ℕ}
    (hsource : length ≤ source.length) (hmemory : writeTo + length ≤ memory.length) :
    ∃ memory', memcpy memory writeTo source length = .ok memory' ∧
      memory'.length = memory.length ∧
      memory'.take (writeTo + length) = memory.take writeTo ++ source.take length := by
  have hcopied : (memory.take writeTo ++ source.take length).length = writeTo + length := by
    rw [List.length_append, List.length_take, List.length_take]
    omega
  refine ⟨_, by rw [memcpy, if_neg (by omega)], ?_, ?_⟩
  · rw [List.length_append, hcopied, List.length_drop]
    omega
  · rw [← hcopied, List.take_left]

/-- `struct Packet`. -/
structure Packet where
  parameters : Json := .null
  buffers : List Buffer := []

/-- A packet that a node has handed to a packet pusher. -/
structure Push where
  packet : Packet
  channel : String

/-- `createErrorPacket`, without extra parameters. -/
def createErrorPacket (errorName errorMessage : String) : Packet where
  parameters := .object (Json.setMember [(bytes "errorName", .string (bytes errorName))]
    (bytes "errorMessage") (.string (bytes errorMessage)))

/-- `sendErrorPacket`, for an exception. -/
def sendErrorPacket (what : String) : Push where
  packet := createErrorPacket "exception" what
  channel := "error"

end Maplang
