import Maplang.Stream.Buffer
import Maplang.Stream.Ring

/-!
# Ring streams

A `RingStream` is meant to be an unbounded queue of bytes, kept in a ring that grows.  It grows when
it need not and does not when it must: `Write` resizes the buffer if the bytes fit, and
`ResizeBuffer` puts the old buffer back after it has set the offset to zero.

## Main definitions

* `RingStream` and its functions, under their names in the code.
* `RingStream.Valid`, `RingStream.contents` : rings that are not overfull, and their bytes.
* `RingStream.IsByteFifo` : the calls give what an unbounded queue gives.
* `RingStream.WriteFits`, `RingStream.WritesFit` : the writes that do what they should, and the runs
  of such writes.

## Main results

* `Peek_spec`, `Read_spec`, `Write_spec`, `step_spec` : one call.
* `run_spec` : any number of calls whose writes all fit.
* `isByteFifo_of_writesFit`, and `not_isByteFifo_offset` for a write that does not fit.
-/

namespace Maplang

/-- `class RingStream`, less its buffer factory. -/
structure RingStream where
  mBuffer : Buffer
  mOffset : ℕ := 0
  mLength : ℕ := 0

namespace RingStream

/-- `kDefaultInitialBufferSize`. -/
def kDefaultInitialBufferSize : ℕ := 1024

/-- The constructor. -/
def construct (factory : BufferFactory) (initialSize : Option ℕ) : Code RingStream := do
  let mBuffer ← factory.Create (initialSize.getD kDefaultInitialBufferSize)
  return { mBuffer }

/-- The loop of `Peek`.  The number of bytes to the end of the buffer is taken from `mOffset`. -/
def peekLoop (r : RingStream) : ℕ → ℕ → ℕ → Code ByteString
  | 0, _, remaining => if remaining = 0 then .ok [] else .error .nontermination
  | fuel + 1, readFromOffset, remaining =>
    if remaining = 0 then .ok []
    else do
      let byteCountToCopy := min (sizeSub r.mBuffer.length r.mOffset) remaining
      if r.mBuffer.memory.length < readFromOffset + byteCountToCopy ∨ r.mBuffer.length = 0 then
        .error .undefinedBehaviour
      else
        let copied := (r.mBuffer.memory.drop readFromOffset).take byteCountToCopy
        let rest ← peekLoop r fuel (sizeAdd readFromOffset byteCountToCopy % r.mBuffer.length)
          (remaining - byteCountToCopy)
        return copied ++ rest

/-- `RingStream::Peek` : the bytes copied to the caller's buffer. -/
def Peek (r : RingStream) (bufferSize : ℕ) : Code ByteString :=
  let byteCountToRead := min r.mLength bufferSize
  r.peekLoop byteCountToRead r.mOffset byteCountToRead

/-- `RingStream::Read`. -/
def Read (r : RingStream) (bufferSize : ℕ) : Code (ByteString × RingStream) := do
  let copied ← r.Peek bufferSize
  if r.mBuffer.length = 0 then .error .undefinedBehaviour
  else return (copied,
    { r with
      mOffset := sizeAdd r.mOffset copied.length % r.mBuffer.length
      mLength := r.mLength - copied.length })

/-- The loop of `Write`. -/
def writeLoop : ℕ → RingStream → ByteString → Code RingStream
  | 0, r, source => if source = [] then .ok r else .error .nontermination
  | fuel + 1, r, source =>
    if source = [] then .ok r
    else if r.mBuffer.length = 0 then .error .undefinedBehaviour
    else do
      let offsetToUnusedBuffer := sizeAdd r.mOffset r.mLength % r.mBuffer.length
      let copyByteCount := min (r.mBuffer.length - offsetToUnusedBuffer) source.length
      let memory ← memcpy r.mBuffer.memory offsetToUnusedBuffer source copyByteCount
      let r := { r with
        mBuffer := { r.mBuffer with data := some memory }
        mLength := sizeAdd r.mLength copyByteCount }
      writeLoop fuel r (source.drop copyByteCount)

/-- The loop of `ResizeBuffer` that doubles the size.  After 64 rounds the size is zero for good. -/
def doubleLoop (minimumBufferSize : ℕ) : ℕ → ℕ → Code ℕ
  | 0, _ => .error .nontermination
  | fuel + 1, newBufferSize =>
    let newBufferSize := sizeMul newBufferSize 2
    if newBufferSize < minimumBufferSize then doubleLoop minimumBufferSize fuel newBufferSize
    else .ok newBufferSize

/-- `RingStream::ResizeBuffer`.  A wrapped tail is copied inside the old buffer; otherwise the
buffers are swapped twice. -/
def ResizeBuffer (factory : BufferFactory) (r : RingStream) (minimumBufferSize : ℕ) :
    Code RingStream := do
  let newBufferSize ← doubleLoop minimumBufferSize 65 r.mBuffer.length
  let newBuffer ← factory.Create newBufferSize
  if r.mBuffer.length < sizeAdd r.mOffset r.mLength then
    let tailLength := sizeSub r.mBuffer.length r.mOffset
    let newOffset := sizeSub newBufferSize tailLength
    -- both ends of the copy are in the old buffer
    let _memory ← memcpy r.mBuffer.memory newOffset (r.mBuffer.memory.drop r.mOffset) tailLength
    return { r with mBuffer := newBuffer, mOffset := newOffset }
  else
    let memory ← memcpy newBuffer.memory 0 (r.mBuffer.memory.drop r.mOffset) r.mLength
    let newBuffer := { newBuffer with data := some memory }
    -- swapped here, and swapped back after the `else`
    let (newBuffer, mBuffer) := (r.mBuffer, newBuffer)
    let (_newBuffer, mBuffer) := (mBuffer, newBuffer)
    return { r with mBuffer, mOffset := 0 }

/-- `RingStream::Write`. -/
def Write (factory : BufferFactory) (r : RingStream) (buffer : ByteString) : Code RingStream := do
  let minBufferSize := sizeAdd r.mLength buffer.length
  -- the bytes fit, and the buffer is resized
  let r ← if minBufferSize < r.mBuffer.length then r.ResizeBuffer factory minBufferSize else pure r
  writeLoop buffer.length r buffer

/-- `RingStream::Skip`: the count of skipped bytes.  Unless more are to be skipped than there are,
the length stays as it is. -/
def Skip (r : RingStream) (skipByteCount : ℕ) : Code (ℕ × RingStream) :=
  if r.mLength < skipByteCount then .ok (r.mLength, { r with mOffset := 0, mLength := 0 })
  else if r.mBuffer.length = 0 then .error .undefinedBehaviour
  else .ok (skipByteCount,
    { r with mOffset := sizeAdd r.mOffset skipByteCount % r.mBuffer.length })

/-- `RingStream::Clear`. -/
def Clear (r : RingStream) : RingStream := { r with mOffset := 0, mLength := 0 }

/-- `RingStream::GetAvailableByteCount`. -/
def GetAvailableByteCount (r : RingStream) : ℕ := r.mLength

/-! ### Calls -/

/-- A call of a ring stream. -/
inductive Call where
  | Write (buffer : ByteString)
  | Read (bufferSize : ℕ)
  | Peek (bufferSize : ℕ)
  | Clear

/-- Make a call: the bytes it copies to the caller, and the available byte count after it. -/
def step (factory : BufferFactory) (r : RingStream) : Call → Code ((ByteString × ℕ) × RingStream)
  | .Write buffer => do
    let r ← r.Write factory buffer
    return (([], r.GetAvailableByteCount), r)
  | .Read bufferSize => do
    let (copied, r) ← r.Read bufferSize
    return ((copied, r.GetAvailableByteCount), r)
  | .Peek bufferSize => do
    let copied ← r.Peek bufferSize
    return ((copied, r.GetAvailableByteCount), r)
  | .Clear => .ok (([], r.Clear.GetAvailableByteCount), r.Clear)

/-- Make one call after the other. -/
def run (factory : BufferFactory) (r : RingStream) :
    List Call → Code (List (ByteString × ℕ) × RingStream)
  | [] => .ok ([], r)
  | call :: calls => do
    let (output, r) ← r.step factory call
    let (outputs, r) ← r.run factory calls
    return (output :: outputs, r)

/-- What an unbounded queue of bytes does. -/
def queueStep (queue : ByteString) : Call → (ByteString × ℕ) × ByteString
  | .Write buffer => (([], (queue ++ buffer).length), queue ++ buffer)
  | .Read bufferSize =>
    ((queue.take bufferSize, (queue.drop bufferSize).length), queue.drop bufferSize)
  | .Peek bufferSize => ((queue.take bufferSize, queue.length), queue)
  | .Clear => (([], 0), [])

/-- One call of an unbounded queue after the other. -/
def queueRun (queue : ByteString) : List Call → List (ByteString × ℕ) × ByteString
  | [] => ([], queue)
  | call :: calls =>
    let (output, queue) := queueStep queue call
    let (outputs, queue) := queueRun queue calls
    (output :: outputs, queue)

/-- Make the calls on a new ring stream. -/
def runNew (factory : BufferFactory) (initialSize : ℕ) (calls : List Call) :
    Code (List (ByteString × ℕ)) := do
  let r ← construct factory (some initialSize)
  let (outputs, _) ← r.run factory calls
  return outputs

/-- The calls on a new ring stream give what an unbounded queue gives, unless there is no memory
for a buffer. -/
def IsByteFifo (factory : BufferFactory) (initialSize : ℕ) (calls : List Call) : Prop :=
  factory.Ensures (runNew factory initialSize calls) (· = (queueRun [] calls).1)

/-- A write that fills the buffer, or fits into it while the ring starts at the beginning of the
buffer or is empty. -/
def WriteFits (r : RingStream) : Call → Prop
  | .Write buffer => r.mLength + buffer.length = r.mBuffer.length ∨
      r.mLength + buffer.length < r.mBuffer.length ∧ (r.mOffset = 0 ∨ r.mLength = 0)
  | _ => True

/-- All writes of some calls fit. -/
def StepsFit (factory : BufferFactory) (r : RingStream) : List Call → Prop
  | [] => True
  | call :: calls => r.WriteFits call ∧
      match r.step factory call with
      | .ok (_, r) => r.StepsFit factory calls
      | .error _ => True

/-- All writes of the calls on a new ring stream fit. -/
def WritesFit (factory : BufferFactory) (initialSize : ℕ) (calls : List Call) : Prop :=
  match construct factory (some initialSize) with
  | .ok r => r.StepsFit factory calls
  | .error _ => True

instance (r : RingStream) : (call : Call) → Decidable (r.WriteFits call)
  | .Write _ => inferInstanceAs (Decidable (_ ∨ _))
  | .Read _ => inferInstanceAs (Decidable True)
  | .Peek _ => inferInstanceAs (Decidable True)
  | .Clear => inferInstanceAs (Decidable True)

instance decidableStepsFit (factory : BufferFactory) :
    (calls : List Call) → (r : RingStream) → Decidable (r.StepsFit factory calls)
  | [], _ => inferInstanceAs (Decidable True)
  | call :: calls, r =>
    have : Decidable (match r.step factory call with
        | .ok (_, r) => r.StepsFit factory calls
        | .error _ => True) :=
      match r.step factory call with
      | .ok (_, r) => decidableStepsFit factory calls r
      | .error _ => inferInstanceAs (Decidable True)
    inferInstanceAs (Decidable (_ ∧ _))

instance (factory : BufferFactory) (initialSize : ℕ) (calls : List Call) :
    Decidable (WritesFit factory initialSize calls) :=
  show Decidable (match construct factory (some initialSize) with
    | .ok r => r.StepsFit factory calls
    | .error _ => True) from
  match construct factory (some initialSize) with
  | .ok _ => inferInstance
  | .error _ => inferInstanceAs (Decidable True)

/-! ### Rings that are not overfull -/

/-- The ring is inside its buffer, and the buffer is not empty. -/
structure Valid (r : RingStream) : Prop where
  allocated : r.mBuffer.Allocated
  capacity : 0 < r.mBuffer.length
  mOffset : r.mOffset < r.mBuffer.length
  mLength : r.mLength ≤ r.mBuffer.length

/-- The bytes of the ring. -/
def contents (r : RingStream) : ByteString := Ring.window r.mBuffer.memory r.mOffset r.mLength

variable {r : RingStream}

namespace Valid

theorem memory (h : r.Valid) : r.mBuffer.memory.length = r.mBuffer.length :=
  h.allocated.length_memory

theorem mLength_le_memory (h : r.Valid) : r.mLength ≤ r.mBuffer.memory.length :=
  h.mLength.trans h.memory.ge

/-- Two positions of a buffer can be added up. -/
theorem sizeAdd_eq (h : r.Valid) {a b : ℕ} (ha : a ≤ r.mBuffer.length) (hb : b ≤ r.mBuffer.length) :
    sizeAdd a b = a + b := by
  have hlength := h.allocated.length_le
  refine Maplang.sizeAdd_eq ?_
  unfold ptrdiffMax sizeMax at *
  omega

end Valid

theorem length_contents (h : r.Valid) : r.contents.length = r.mLength :=
  Ring.length_window h.mLength_le_memory

/-! ### Reading -/

/-- What `Peek` copies at a time does not go past the end of the buffer, and the loop goes on behind
it. -/
theorem Valid.peek_step (h : r.Valid) {count i copy : ℕ} (hcount : count ≤ r.mLength)
    (hi : i ≤ count) (hstart : i = 0 ∨ i = count ∨ r.mBuffer.length - r.mOffset ≤ i)
    (hcopy : min (r.mBuffer.length - r.mOffset) (count - i) = copy) :
    (r.mOffset + i) % r.mBuffer.length + copy ≤ r.mBuffer.length ∧
      sizeAdd ((r.mOffset + i) % r.mBuffer.length) copy % r.mBuffer.length =
        (r.mOffset + (i + copy)) % r.mBuffer.length := by
  have hcapacity := h.mOffset
  have hlength := h.mLength
  have hmod := Ring.mod_eq_ite h.mOffset (show i ≤ r.mBuffer.length by omega)
  have hend : (r.mOffset + i) % r.mBuffer.length + copy ≤ r.mBuffer.length := by
    split at hmod <;> omega
  refine ⟨hend, ?_⟩
  rw [h.sizeAdd_eq (by omega) (by omega), Nat.mod_add_mod, Nat.add_assoc]

/-- The loop of `Peek` copies the bytes of the ring, up to the end of the buffer first. -/
theorem peekLoop_spec (h : r.Valid) {count : ℕ} (hcount : count ≤ r.mLength) {fuel i : ℕ}
    (hi : i ≤ count) (hfuel : count - i ≤ fuel)
    (hstart : i = 0 ∨ i = count ∨ r.mBuffer.length - r.mOffset ≤ i) :
    r.peekLoop fuel ((r.mOffset + i) % r.mBuffer.length) (count - i) =
      .ok ((r.contents.drop i).take (count - i)) := by
  induction fuel generalizing i with
  | zero =>
    rw [peekLoop, if_pos (by omega), Nat.le_zero.1 hfuel, List.take_zero]
  | succ fuel ih =>
    rw [peekLoop]
    by_cases hdone : count - i = 0
    · rw [if_pos hdone, hdone, List.take_zero]
    rw [if_neg hdone, sizeSub_eq h.mOffset.le]
    have hcapacity := h.mOffset
    have hlength := h.mLength
    generalize hcopy : min (r.mBuffer.length - r.mOffset) (count - i) = copy
    obtain ⟨hend, hnext⟩ := h.peek_step hcount hi hstart hcopy
    have hchunk : (r.mBuffer.memory.drop ((r.mOffset + i) % r.mBuffer.length)).take copy =
        (r.contents.drop i).take copy := by
      rw [contents, Ring.take_drop_window h.mLength_le_memory (by omega) (by rwa [h.memory]),
        h.memory]
    simp only [bind, Except.bind, pure, Except.pure]
    rw [if_neg (by rw [h.memory]; omega), hnext,
      show count - i - copy = count - (i + copy) by omega,
      ih (by omega) (by omega) (by omega)]
    simp only [hchunk]
    rw [show count - i = copy + (count - (i + copy)) by omega, List.take_add, List.drop_drop]

theorem Peek_spec (h : r.Valid) (bufferSize : ℕ) :
    r.Peek bufferSize = .ok (r.contents.take bufferSize) := by
  have hloop := peekLoop_spec h (Nat.min_le_left r.mLength bufferSize) (Nat.zero_le _)
    (Nat.le_refl _) (.inl rfl)
  rw [Nat.add_zero, Nat.mod_eq_of_lt h.mOffset, Nat.sub_zero, List.drop_zero] at hloop
  rw [Peek, hloop]
  congr 1
  rw [List.take_eq_take_iff, length_contents h]
  omega

theorem Read_spec (h : r.Valid) (bufferSize : ℕ) :
    ∃ r', r.Read bufferSize = .ok (r.contents.take bufferSize, r') ∧ r'.Valid ∧
      r'.contents = r.contents.drop bufferSize := by
  have hcapacity := h.capacity
  have hmLength := h.mLength
  have hcopied : (r.contents.take bufferSize).length = min bufferSize r.mLength := by
    rw [List.length_take, length_contents h]
  have hdrop : r.contents.drop bufferSize = r.contents.drop (min bufferSize r.mLength) := by
    rw [List.drop_eq_drop_iff, length_contents h]
    omega
  have hoffset : sizeAdd r.mOffset (min bufferSize r.mLength) =
      r.mOffset + min bufferSize r.mLength := h.sizeAdd_eq h.mOffset.le (by omega)
  refine ⟨{ r with
      mOffset := (r.mOffset + min bufferSize r.mLength) % r.mBuffer.length
      mLength := r.mLength - min bufferSize r.mLength }, ?_,
    ⟨h.allocated, h.capacity, Nat.mod_lt _ h.capacity, (Nat.sub_le _ _).trans h.mLength⟩, ?_⟩
  · simp only [Read, Peek_spec h, bind, Except.bind, pure, Except.pure, hcopied, hoffset]
    rw [if_neg (by omega)]
  · rw [hdrop, contents, contents, Ring.drop_window h.mLength_le_memory (Nat.min_le_right _ _),
      h.memory]

/-- Reading leaves the buffer as it is. -/
theorem Read_mBuffer {bufferSize : ℕ} {copied : ByteString} {r' : RingStream}
    (h : r.Read bufferSize = .ok (copied, r')) : r'.mBuffer = r.mBuffer := by
  obtain ⟨bs, -, h⟩ := bind_eq_ok.1 h
  split at h
  · cases h
  · rw [← (Prod.mk.inj (Except.ok.inj h)).2]

/-! ### Writing -/

/-- A copy that stays inside both arrays. -/
theorem memcpy_eq {memory source : List UInt8} {writeTo length : ℕ}
    (hsource : length ≤ source.length) (hmemory : writeTo + length ≤ memory.length) :
    memcpy memory writeTo source length =
      .ok (Ring.overwrite memory writeTo (source.take length)) := by
  rw [memcpy, if_neg (by omega), Ring.overwrite, List.length_take, Nat.min_eq_left hsource]

/-- The ring after some bytes are copied behind its last one. -/
def fill (r : RingStream) (xs : ByteString) : RingStream := { r with
  mBuffer := { r.mBuffer with
    data := some (Ring.overwrite r.mBuffer.memory ((r.mOffset + r.mLength) % r.mBuffer.length) xs) }
  mLength := r.mLength + xs.length }

/-- Bytes that fit behind the last one, without going past the end of the buffer, are appended. -/
theorem fill_spec (h : r.Valid) {xs : ByteString} (hroom : r.mLength + xs.length ≤ r.mBuffer.length)
    (hend : (r.mOffset + r.mLength) % r.mBuffer.length + xs.length ≤ r.mBuffer.length) :
    (r.fill xs).Valid ∧ (r.fill xs).contents = r.contents ++ xs := by
  rw [← h.memory] at hroom hend
  have hoverwrite := Ring.length_overwrite hend
  have hwindow := Ring.window_overwrite (by rw [h.memory]; exact h.mOffset) hroom hend
  rw [h.memory] at hroom hoverwrite hwindow
  exact ⟨⟨⟨hoverwrite, h.allocated.length_le⟩, h.capacity, h.mOffset, hroom⟩, hwindow⟩

/-- One round of the loop of `Write`: as many bytes are copied as there are, or as go up to the end
of the buffer. -/
theorem writeLoop_step (hallocated : r.mBuffer.Allocated) (hcapacity : 0 < r.mBuffer.length)
    {source : ByteString} (hsource : source ≠ []) (hsum : r.mLength + source.length ≤ sizeMax)
    {unused copy : ℕ} (hunused : sizeAdd r.mOffset r.mLength % r.mBuffer.length = unused)
    (hcopy : min (r.mBuffer.length - unused) source.length = copy) (fuel : ℕ) :
    writeLoop (fuel + 1) r source = writeLoop fuel
      { r with
        mBuffer := { r.mBuffer with
          data := some (Ring.overwrite r.mBuffer.memory unused (source.take copy)) }
        mLength := r.mLength + copy } (source.drop copy) := by
  have hmemory := hallocated.length_memory
  have hinside : unused < r.mBuffer.length := hunused ▸ Nat.mod_lt _ hcapacity
  rw [writeLoop, if_neg hsource, if_neg (by omega)]
  simp only [hunused, hcopy]
  rw [memcpy_eq (by omega) (by omega), Maplang.sizeAdd_eq (by omega)]
  rfl

/-- The loop of `Write` appends its bytes if there is room for them. -/
theorem writeLoop_spec (h : r.Valid) {fuel : ℕ} {source : ByteString} (hfuel : source.length ≤ fuel)
    (hroom : r.mLength + source.length ≤ r.mBuffer.length) :
    ∃ r', writeLoop fuel r source = .ok r' ∧ r'.Valid ∧ r'.contents = r.contents ++ source := by
  induction fuel generalizing r source with
  | zero =>
    obtain rfl : source = [] := List.length_eq_zero_iff.1 (by omega)
    exact ⟨r, rfl, h, (List.append_nil _).symm⟩
  | succ fuel ih =>
    by_cases hdone : source = []
    · subst hdone
      exact ⟨r, if_pos rfl, h, (List.append_nil _).symm⟩
    have hsize := h.allocated.length_le
    have hnonempty := List.length_pos_iff.2 hdone
    have hunused := Nat.mod_lt (r.mOffset + r.mLength) h.capacity
    obtain ⟨copy, hcopy⟩ : ∃ copy, copy =
      min (r.mBuffer.length - (r.mOffset + r.mLength) % r.mBuffer.length) source.length := ⟨_, rfl⟩
    have htake : (source.take copy).length = copy := by
      rw [List.length_take]
      omega
    obtain ⟨hvalid, hcontents⟩ := @fill_spec r h (source.take copy) (by omega) (by omega)
    have hstep : writeLoop (fuel + 1) r source =
        writeLoop fuel (r.fill (source.take copy)) (source.drop copy) := by
      have hsum : r.mLength + source.length ≤ sizeMax := by
        unfold ptrdiffMax sizeMax at *
        omega
      rw [fill, htake]
      exact writeLoop_step h.allocated h.capacity hdone hsum
        (by rw [h.sizeAdd_eq h.mOffset.le h.mLength]) hcopy.symm fuel
    obtain ⟨r', hr', hvalid', hcontents'⟩ := @ih _ hvalid (source.drop copy)
      (by rw [List.length_drop]; omega)
      (by rw [List.length_drop]; show r.mLength + _ + _ ≤ r.mBuffer.length; omega)
    refine ⟨r', hstep.trans hr', hvalid', ?_⟩
    rw [hcontents', hcontents, List.append_assoc, List.take_append_drop]

/-- A size that is not too small is doubled once. -/
theorem doubleLoop_eq {minimumBufferSize newBufferSize fuel : ℕ}
    (hsmall : newBufferSize ≤ ptrdiffMax) (h : minimumBufferSize ≤ newBufferSize) :
    doubleLoop minimumBufferSize (fuel + 1) newBufferSize = .ok (newBufferSize * 2) := by
  rw [doubleLoop, sizeMul_eq (by unfold ptrdiffMax sizeMax at *; omega)]
  exact if_neg (by omega)

/-- When there is no memory for the new buffer, nothing is resized. -/
theorem ResizeBuffer_error {factory : BufferFactory} {minimumBufferSize size : ℕ} {fault : Fault}
    (hsize : doubleLoop minimumBufferSize 65 r.mBuffer.length = .ok size)
    (hcreate : factory.Create size = .error fault) :
    r.ResizeBuffer factory minimumBufferSize = .error fault := by
  rw [ResizeBuffer, hsize]
  simp only [bind, Except.bind]
  rw [hcreate]

/-- A ring that does not wrap around keeps its buffer, and goes to the beginning of it. -/
theorem ResizeBuffer_unwrapped (h : r.Valid) {factory : BufferFactory}
    {minimumBufferSize size : ℕ}
    (hsize : doubleLoop minimumBufferSize 65 r.mBuffer.length = .ok size)
    (hlarge : r.mBuffer.length * 2 ≤ size) (hwrap : r.mOffset + r.mLength ≤ r.mBuffer.length)
    {newBuffer : Buffer} (hcreate : factory.Create size = .ok newBuffer) :
    r.ResizeBuffer factory minimumBufferSize = .ok { r with mOffset := 0 } := by
  have hmLength := h.mLength
  have hlength := factory.create_length hcreate
  have hmemory := (factory.create_allocated hcreate).length_memory
  rw [ResizeBuffer, hsize]
  simp only [bind, Except.bind]
  rw [hcreate]
  simp only
  rw [h.sizeAdd_eq h.mOffset.le h.mLength, if_neg (by omega),
    memcpy_eq (by rw [List.length_drop, h.memory]; omega) (by omega)]
  -- the new buffer is filled, and put away again
  rfl

/-- The tail of a ring that wraps around is copied behind the end of the old buffer. -/
theorem ResizeBuffer_wrapped (h : r.Valid) {factory : BufferFactory}
    {minimumBufferSize size : ℕ}
    (hsize : doubleLoop minimumBufferSize 65 r.mBuffer.length = .ok size)
    (hlarge : r.mBuffer.length * 2 ≤ size) (hwrap : r.mBuffer.length < r.mOffset + r.mLength)
    {newBuffer : Buffer} (hcreate : factory.Create size = .ok newBuffer) :
    r.ResizeBuffer factory minimumBufferSize = .error .undefinedBehaviour := by
  have hmOffset := h.mOffset
  have hmemory := h.memory
  rw [ResizeBuffer, hsize]
  simp only [bind, Except.bind]
  rw [hcreate]
  simp only
  rw [h.sizeAdd_eq h.mOffset.le h.mLength, if_pos hwrap, sizeSub_eq h.mOffset.le,
    sizeSub_eq (by omega), memcpy, if_pos (.inr (by omega))]

/-- A ring that does not wrap around keeps its buffer if that is large enough. -/
theorem ResizeBuffer_eq (factory : BufferFactory) (h : r.Valid) {minimumBufferSize : ℕ}
    (hminimum : minimumBufferSize ≤ r.mBuffer.length)
    (hwrap : r.mOffset + r.mLength ≤ r.mBuffer.length) :
    factory.Ensures (r.ResizeBuffer factory minimumBufferSize) fun r' =>
      r' = { r with mOffset := 0 } := by
  have hsize := @doubleLoop_eq minimumBufferSize _ 64 h.allocated.length_le hminimum
  cases hcreate : factory.Create (r.mBuffer.length * 2) with
  | ok newBuffer => exact .inl ⟨_, ResizeBuffer_unwrapped h hsize le_rfl hwrap hcreate, rfl⟩
  | error fault =>
    obtain ⟨what, rfl⟩ := factory.create_error hcreate
    exact .inr ⟨_, what, hcreate, ResizeBuffer_error hsize hcreate⟩

/-- A ring that starts at the beginning of its buffer, or is empty, keeps its bytes, too. -/
theorem ResizeBuffer_spec (factory : BufferFactory) (h : r.Valid) {minimumBufferSize : ℕ}
    (hminimum : minimumBufferSize ≤ r.mBuffer.length) (hstart : r.mOffset = 0 ∨ r.mLength = 0) :
    factory.Ensures (r.ResizeBuffer factory minimumBufferSize) fun r' =>
      r'.Valid ∧ r'.contents = r.contents ∧ r'.mBuffer = r.mBuffer := by
  have hmLength := h.mLength
  have hmOffset := h.mOffset
  refine (ResizeBuffer_eq factory h hminimum (by omega)).imp ?_
  rintro _ rfl
  refine ⟨⟨h.allocated, h.capacity, h.capacity, h.mLength⟩, ?_, rfl⟩
  rcases hstart with hstart | hstart
  · rw [contents, contents, hstart]
  · rw [contents, contents, hstart, Ring.window_zero, Ring.window_zero]

/-- **A write that fits** appends its bytes. -/
theorem Write_spec (factory : BufferFactory) (h : r.Valid) {buffer : ByteString}
    (hfits : r.WriteFits (.Write buffer)) :
    factory.Ensures (r.Write factory buffer) fun r' =>
      r'.Valid ∧ r'.contents = r.contents ++ buffer := by
  have hroom : r.mLength + buffer.length ≤ r.mBuffer.length := by
    rcases hfits with hfull | ⟨hless, -⟩ <;> omega
  have hloop : ∀ r₁ : RingStream, r₁.Valid ∧ r₁.contents = r.contents ∧ r₁.mBuffer = r.mBuffer →
      factory.Ensures (writeLoop buffer.length r₁ buffer) fun r' =>
        r'.Valid ∧ r'.contents = r.contents ++ buffer := by
    rintro r₁ ⟨hvalid₁, hcontents₁, hbuffer⟩
    have hlength : r₁.mLength = r.mLength := by
      rw [← length_contents hvalid₁, hcontents₁, length_contents h]
    obtain ⟨r', hr', hvalid, hcontents⟩ := writeLoop_spec hvalid₁ (Nat.le_refl buffer.length)
      (by rwa [hlength, hbuffer])
    exact .inl ⟨r', hr', hvalid, by rw [hcontents, hcontents₁]⟩
  rw [Write, h.sizeAdd_eq h.mLength (by omega)]
  rcases hfits with hfull | ⟨hless, hstart⟩
  · simp only [if_neg (show ¬ r.mLength + buffer.length < r.mBuffer.length by omega)]
    exact hloop r ⟨h, rfl, rfl⟩
  · simp only [if_pos hless]
    exact (ResizeBuffer_spec factory h hless.le hstart).bind fun r₁ _ => hloop r₁

/-! ### Runs -/

theorem construct_spec (factory : BufferFactory) {initialSize : ℕ} (hinitial : 1 ≤ initialSize) :
    factory.Ensures (construct factory (some initialSize)) fun r => r.Valid ∧ r.contents = [] := by
  refine (factory.ensures_create _).bind fun buffer _ ⟨hlength, hallocated⟩ => ?_
  rw [Option.getD_some] at hlength
  refine .ok ⟨⟨hallocated, ?_, ?_, Nat.zero_le _⟩, rfl⟩ <;> · show 0 < buffer.length; omega

/-- **One call of a ring** whose writes fit is the call of a queue. -/
theorem step_spec (factory : BufferFactory) (h : r.Valid) {call : Call} (hfits : r.WriteFits call) :
    factory.Ensures (r.step factory call) fun (output, r') =>
      r'.Valid ∧ (output, r'.contents) = queueStep r.contents call := by
  cases call with
  | Write buffer =>
    refine (Write_spec factory h hfits).bind fun r' _ ⟨hvalid, hcontents⟩ =>
      .ok ⟨hvalid, ?_⟩
    rw [GetAvailableByteCount, ← length_contents hvalid, hcontents]
    rfl
  | Read bufferSize =>
    obtain ⟨r', hr', hvalid, hcontents⟩ := Read_spec h bufferSize
    rw [step, hr']
    refine .ok ⟨hvalid, ?_⟩
    rw [GetAvailableByteCount, ← length_contents hvalid, hcontents]
    rfl
  | Peek bufferSize =>
    rw [step, Peek_spec h]
    refine .ok ⟨h, ?_⟩
    rw [GetAvailableByteCount, ← length_contents h]
    rfl
  | Clear => exact .ok ⟨⟨h.allocated, h.capacity, h.capacity, Nat.zero_le _⟩, rfl⟩

/-- **Calls on a ring** whose writes all fit are the calls of a queue. -/
theorem run_spec (factory : BufferFactory) (h : r.Valid) {calls : List Call}
    (hfits : r.StepsFit factory calls) :
    factory.Ensures (r.run factory calls) fun (outputs, r') =>
      r'.Valid ∧ (outputs, r'.contents) = queueRun r.contents calls := by
  induction calls generalizing r with
  | nil => exact .ok ⟨h, rfl⟩
  | cons call calls ih =>
    refine (step_spec factory h hfits.1).bind fun (output, r₁) hstep ⟨hvalid₁, houtput⟩ => ?_
    have hfits₁ := hfits.2
    rw [hstep] at hfits₁
    refine (ih hvalid₁ hfits₁).bind fun (outputs, r') _ ⟨hvalid, houtputs⟩ => .ok ⟨hvalid, ?_⟩
    simp only [queueRun, ← houtput, ← houtputs]

/-- **A ring stream is a byte queue** in every run whose writes all fit. -/
theorem isByteFifo_of_writesFit (factory : BufferFactory) {initialSize : ℕ} {calls : List Call}
    (hinitial : 1 ≤ initialSize) (hfits : WritesFit factory initialSize calls) :
    IsByteFifo factory initialSize calls := by
  refine (construct_spec factory hinitial).bind fun r hr ⟨hvalid, hcontents⟩ => ?_
  rw [WritesFit, hr] at hfits
  refine (run_spec factory hvalid hfits).bind fun (outputs, r') _ ⟨_, houtputs⟩ => .ok ?_
  rw [← hcontents, ← houtputs]

/-- The third write wraps around; the fourth one resizes the empty ring. -/
theorem isByteFifo_of_writesFit_wrapped : IsByteFifo .zeros 5
    [.Write [1, 2], .Write [3, 4, 5], .Read 2, .Write [6, 7], .Peek 1, .Read 9, .Write [8],
      .Clear] :=
  isByteFifo_of_writesFit .zeros (by decide) (by decide)

/-- **A ring stream is no byte queue.**  The second write fits, and resizes: the ring goes back to
the beginning of its buffer, and the byte that was read before comes again. -/
theorem not_isByteFifo_offset : ¬ ∀ (factory : BufferFactory) (initialSize : ℕ) (calls : List Call),
    1 ≤ initialSize → IsByteFifo factory initialSize calls := by
  intro h
  have hrun : runNew .zeros 5 [.Write [1, 2], .Read 1, .Write [3], .Read 2] =
    .ok [([], 2), ([1], 1), ([], 2), ([1, 3], 0)] := rfl
  rcases h .zeros 5 _ (by decide) with ⟨outputs, houtputs, hqueue⟩ | ⟨bufferSize, what, -, hfault⟩
  · rw [hrun] at houtputs
    cases houtputs
    exact absurd hqueue (by decide)
  · rw [hrun] at hfault
    cases hfault

end RingStream

end Maplang
