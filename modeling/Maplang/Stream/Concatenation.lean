import Maplang.Stream.MemoryStream

/-!
# A memory stream is the concatenation of its buffers

Whatever has been appended to a stream, cleared or cut out of it, the stream is read as one string
of bytes, and its buffers are only seen by the callback of `visitBuffers`.

## Main definitions

* `MemoryStream.visitBuffersWith`, `MemoryStream.toString`, `MemoryStream.asString` : the operations
  with a callback.
* `MemoryStream.handOver` : buffers are handed to a callback until it returns false.
* `MemoryStream.Built` : the streams that can be made, and their bytes.
* `MemoryStream.Concatenated` : what each operation gives for a stream with these bytes.

## Main results

* `MemoryStream.visitBuffersWith_eq` : the callback gets the buffers of `visitBuffers`.
* `MemoryStream.concatenated_of_built` : a stream that can be made is read as its bytes.
-/

namespace Maplang

namespace MemoryStream

variable {σ : Type}

/-! ### Callbacks -/

/-- `MemoryStream::OnBuffer`, which has a state of its own and may throw. -/
abbrev OnBuffer (σ : Type) := ℕ → Buffer → σ → Code (σ × Bool)

section

variable (s : MemoryStream) (onBuffer : OnBuffer σ)

/-- The loop of `visitBuffers`, for as many buffers from the one of index `bufferIndex`. -/
def visitLoop (firstBufferIndex firstBufferStartOffset lastBufferIndex lastBufferEndOffset : ℕ) :
    ℕ → ℕ → σ → Code σ
  | 0, _, state => .ok state
  | count + 1, bufferIndex, state => do
    let sendBuffer := s.sendBuffer firstBufferIndex firstBufferStartOffset lastBufferIndex
      lastBufferEndOffset bufferIndex
    let (state, goOn) ← onBuffer bufferIndex sendBuffer state
    if goOn then
      visitLoop firstBufferIndex firstBufferStartOffset lastBufferIndex lastBufferEndOffset count
        (bufferIndex + 1) state
    else return state

/-- `MemoryStream::visitBuffers`, with its callback. -/
def visitBuffersWith (startOffset : ℕ) (endOffset : Option ℕ) (state : σ) : Code σ :=
  let endOffset := s.clampEnd endOffset
  if endOffset ≤ startOffset then .ok state
  else do
    let (firstBufferIndex, firstBufferStartOffset) ← s.findIndex startOffset
    let (lastBufferIndex, lastByteOffset) ← s.findIndex (endOffset - 1)
    s.visitLoop onBuffer firstBufferIndex firstBufferStartOffset lastBufferIndex
      (lastByteOffset + 1) (lastBufferIndex + 1 - firstBufferIndex) firstBufferIndex state

end

/-- `stream.write(buffer.data.get(), buffer.length)`. -/
def write (stream : ByteString) (buffer : Buffer) : Code ByteString :=
  if buffer.Valid then .ok (stream ++ buffer.contents) else .error .undefinedBehaviour

/-- The callback of `toString`. -/
def writeCounted : ℕ × ByteString → Buffer → Code (ℕ × ByteString)
  | (readByteCount, stream), buffer => do
    return (readByteCount + buffer.length, ← write stream buffer)

/-- `MemoryStream::toString`. -/
def toString (s : MemoryStream) (startIndex : ℕ := 0) (endIndex : Option ℕ := none) :
    Code ByteString := do
  let (_, stream) ← s.visitBuffersWith (fun _ buffer state => do
    return (← writeCounted state buffer, true)) startIndex endIndex (0, [])
  return stream

/-- `MemoryStream::asString`. -/
def asString (s : MemoryStream) : Code ByteString :=
  s.visitBuffersWith (fun _ buffer stream => do return (← write stream buffer, true)) 0
    (some s.mSize) []

/-- Buffers are handed to a callback one after the other, with consecutive indices, until it returns
false. -/
def handOver (onBuffer : OnBuffer σ) : ℕ → List Buffer → σ → Code σ
  | _, [], state => .ok state
  | bufferIndex, buffer :: buffers, state => do
    let (state, goOn) ← onBuffer bufferIndex buffer state
    if goOn then handOver onBuffer (bufferIndex + 1) buffers state else return state

theorem visitLoop_eq (s : MemoryStream) (onBuffer : OnBuffer σ) (first firstStart last lastEnd : ℕ)
    (count bufferIndex : ℕ) (state : σ) :
    s.visitLoop onBuffer first firstStart last lastEnd count bufferIndex state =
      handOver onBuffer bufferIndex
        ((List.range' bufferIndex count).map (s.sendBuffer first firstStart last lastEnd))
        state := by
  induction count generalizing bufferIndex state with
  | zero => rfl
  | succ count ih =>
    rw [List.range'_succ, List.map_cons, visitLoop, handOver]
    simp only [ih]

/-- **The callback gets the buffers that are visited**, with consecutive indices. -/
theorem visitBuffersWith_eq (s : MemoryStream) (startOffset : ℕ) (endOffset : Option ℕ) :
    ∃ first, ∀ {σ : Type} (onBuffer : OnBuffer σ) (state : σ),
      s.visitBuffersWith onBuffer startOffset endOffset state =
        s.visitBuffers startOffset endOffset >>= fun buffers =>
          handOver onBuffer first buffers state := by
  unfold visitBuffersWith visitBuffers
  by_cases hempty : s.clampEnd endOffset ≤ startOffset
  · exact ⟨0, fun onBuffer state => by simp only [if_pos hempty]; rfl⟩
  · simp only [if_neg hempty, visitLoop_eq]
    cases s.findIndex startOffset with
    | error fault => exact ⟨0, fun _ _ => rfl⟩
    | ok firstIndex =>
      refine ⟨firstIndex.1, fun onBuffer state => ?_⟩
      cases s.findIndex (s.clampEnd endOffset - 1) <;> rfl

theorem handOver_true (f : σ → Buffer → Code σ) (bufferIndex : ℕ) (buffers : List Buffer)
    (state : σ) :
    handOver (fun _ buffer state => do return (← f state buffer, true)) bufferIndex buffers state =
      buffers.foldlM f state := by
  induction buffers generalizing bufferIndex state with
  | nil => rfl
  | cons buffer buffers ih =>
    rw [handOver, List.foldlM_cons]
    cases f state buffer with
    | error fault => rfl
    | ok state => exact ih (bufferIndex + 1) state

/-- A callback that always returns true gets all buffers. -/
theorem visitBuffersWith_true (s : MemoryStream) (f : σ → Buffer → Code σ) (startOffset : ℕ)
    (endOffset : Option ℕ) (state : σ) :
    s.visitBuffersWith (fun _ buffer state => do return (← f state buffer, true)) startOffset
      endOffset state =
        s.visitBuffers startOffset endOffset >>= fun buffers => buffers.foldlM f state := by
  obtain ⟨first, heq⟩ := visitBuffersWith_eq s startOffset endOffset
  rw [heq]
  exact bind_congr fun buffers => handOver_true f first buffers state

/-- `subStream`, as the code writes it. -/
theorem subStream_eq (s : MemoryStream) (startOffset : ℕ) (endOffset : Option ℕ) :
    s.subStream startOffset endOffset = s.visitBuffersWith
      (fun _ buffer stream => do return (← stream.append buffer, true)) startOffset endOffset {} :=
  (visitBuffersWith_true s append startOffset endOffset {}).symm

/-! ### Streams that can be made -/

/-- The bytes between two offsets; the end of the bytes is `none`. -/
def between (bs : ByteString) (startOffset : ℕ) (endOffset : Option ℕ) : ByteString :=
  (bs.take (endOffset.getD bs.length)).drop startOffset

/-- The streams that can be made, and their bytes.  As long as a `size_t` can count the bytes, no
sum in the code wraps around. -/
inductive Built : MemoryStream → ByteString → Prop
  | empty : Built {} []
  | append {s t : MemoryStream} {bs : ByteString} {buffer : Buffer} : Built s bs → buffer.Valid →
      bs.length + buffer.length < 2 ^ 64 → s.append buffer = .ok t →
      Built t (bs ++ buffer.contents)
  | clear {s : MemoryStream} {bs : ByteString} : Built s bs → Built s.clear []
  | subStream {s t : MemoryStream} {bs : ByteString} {startOffset : ℕ} {endOffset : Option ℕ} :
      Built s bs → s.subStream startOffset endOffset = .ok t →
      Built t (between bs startOffset endOffset)

/-- The stream is read as one string of bytes. -/
structure Concatenated (s : MemoryStream) (bs : ByteString) : Prop where
  stored : ∀ b ∈ s.mBuffers, 0 < b.length
  contents : s.contents = bs
  size : s.mSize = bs.length
  byteAt : ∀ index, s.byteAt index = match bs[index]? with
    | some byte => .ok byte
    | none => throwRuntimeError "Index is out of bounds"
  /-- The callback gets buffers with consecutive indices, until it returns false. -/
  visitBuffers : ∀ startOffset endOffset, ∃ first buffers, (∀ b ∈ buffers, 0 < b.length) ∧
    bytesOf buffers = between bs startOffset endOffset ∧
    ∀ {σ : Type} (onBuffer : OnBuffer σ) (state : σ),
      s.visitBuffersWith onBuffer startOffset endOffset state =
        handOver onBuffer first buffers state
  subStream : ∀ startOffset endOffset, ∃ t, s.subStream startOffset endOffset = .ok t ∧
    t.contents = between bs startOffset endOffset
  toString : ∀ startOffset endOffset,
    s.toString startOffset endOffset = .ok (between bs startOffset endOffset)

section

variable {s : MemoryStream} {bs : ByteString}

theorem take_clampEnd (h : s.Valid) (startOffset : ℕ) (endOffset : Option ℕ) :
    (s.contents.drop startOffset).take (s.clampEnd endOffset - startOffset) =
      between s.contents startOffset endOffset := by
  have hend : endOffset.getD s.mSize = endOffset.getD s.contents.length := by rw [h.mSize]
  rw [between, ← List.drop_take, clampEnd, hend, h.mSize, ← List.take_eq_take_min]

theorem Built.valid (h : Built s bs) : s.Valid ∧ s.contents = bs := by
  induction h with
  | empty => exact ⟨valid_empty, rfl⟩
  | append _ hbuffer _ happend ih =>
    obtain ⟨t, ht, hvalid, hcontents⟩ := append_spec ih.1 hbuffer
    obtain rfl := Except.ok.inj (ht.symm.trans happend)
    exact ⟨hvalid, by rw [hcontents, ih.2]⟩
  | clear => exact ⟨valid_empty, rfl⟩
  | @subStream s _ bs startOffset endOffset _ hsubStream ih =>
    obtain ⟨t, ht, hvalid, hcontents⟩ := subStream_spec ih.1 startOffset endOffset
    obtain rfl := Except.ok.inj (ht.symm.trans hsubStream)
    exact ⟨hvalid, by rw [hcontents, take_clampEnd ih.1, ih.2]⟩

/-! ### What the operations give -/

theorem findIndexFrom_outOfBounds {buffers : List Buffer} (hbuffers : ∀ b ∈ buffers, Piece b)
    {byteIndex prev : ℕ} (hbyteIndex : prev + (bytesOf buffers).length ≤ byteIndex) (i : ℕ) :
    findIndexFrom byteIndex i prev buffers = throwRuntimeError "Index is out of bounds" := by
  induction buffers generalizing i prev with
  | nil => rfl
  | cons b bs ih =>
    obtain ⟨hb, hbs⟩ := List.forall_mem_cons.1 hbuffers
    rw [bytesOf_cons, List.length_append, Buffer.length_contents hb.1] at hbyteIndex
    rw [findIndexFrom, if_neg (by omega)]
    exact ih hbs (by omega) (i + 1)

theorem byteAt_outOfBounds (h : s.Valid) {index : ℕ} (hindex : s.contents.length ≤ index) :
    s.byteAt index = throwRuntimeError "Index is out of bounds" := by
  have hzero : 0 + (bytesOf s.mBuffers).length ≤ index := by
    rw [Nat.zero_add]
    exact hindex
  rw [byteAt, findIndex, findIndexFrom_outOfBounds h.mBuffers hzero]
  rfl

theorem foldlM_write {buffers : List Buffer} (hbuffers : ∀ b ∈ buffers, Piece b)
    (stream : ByteString) : buffers.foldlM write stream = .ok (stream ++ bytesOf buffers) := by
  induction buffers generalizing stream with
  | nil => rw [bytesOf_nil, List.append_nil]; rfl
  | cons b bs ih =>
    obtain ⟨hb, hbs⟩ := List.forall_mem_cons.1 hbuffers
    rw [List.foldlM_cons, write, if_pos hb.1, bytesOf_cons, ← List.append_assoc]
    exact ih hbs _

theorem foldlM_writeCounted {buffers : List Buffer} (hbuffers : ∀ b ∈ buffers, Piece b) (n : ℕ)
    (stream : ByteString) : ∃ n', buffers.foldlM writeCounted (n, stream) =
      .ok (n', stream ++ bytesOf buffers) := by
  induction buffers generalizing n stream with
  | nil => exact ⟨n, by rw [bytesOf_nil, List.append_nil]; rfl⟩
  | cons b bs ih =>
    obtain ⟨hb, hbs⟩ := List.forall_mem_cons.1 hbuffers
    rw [List.foldlM_cons, writeCounted, write, if_pos hb.1, bytesOf_cons, ← List.append_assoc]
    exact ih hbs _ _

theorem visitBuffers_between (h : s.Valid) (startOffset : ℕ) (endOffset : Option ℕ) :
    ∃ buffers, s.visitBuffers startOffset endOffset = .ok buffers ∧ (∀ b ∈ buffers, Piece b) ∧
      bytesOf buffers = between s.contents startOffset endOffset := by
  rw [← take_clampEnd h]
  exact visitBuffers_spec h startOffset endOffset

theorem toString_spec (h : s.Valid) (startIndex : ℕ) (endIndex : Option ℕ) :
    s.toString startIndex endIndex = .ok (between s.contents startIndex endIndex) := by
  obtain ⟨buffers, hvisited, hpieces, hbytes⟩ := visitBuffers_between h startIndex endIndex
  obtain ⟨n, hwritten⟩ := foldlM_writeCounted hpieces 0 []
  rw [toString, visitBuffersWith_true, hvisited]
  simp only [bind, Except.bind, hwritten, pure, Except.pure]
  rw [List.nil_append, hbytes]

theorem asString_spec (h : s.Valid) : s.asString = .ok s.contents := by
  obtain ⟨buffers, hvisited, hpieces, hbytes⟩ := visitBuffers_between h 0 (some s.mSize)
  rw [asString, visitBuffersWith_true, hvisited]
  refine (foldlM_write hpieces []).trans ?_
  rw [List.nil_append, hbytes, between, Option.getD_some, h.mSize, List.take_length, List.drop_zero]

/-- **A memory stream is the concatenation of its buffers**, for every stream that can be made. -/
theorem concatenated_of_built (h : Built s bs) : Concatenated s bs where
  stored b hb := (h.valid.1.mBuffers b hb).2
  contents := h.valid.2
  size := h.valid.2 ▸ h.valid.1.mSize
  byteAt index := by
    obtain ⟨hvalid, rfl⟩ := h.valid
    rcases Nat.lt_or_ge index s.contents.length with hlt | hge
    · rw [List.getElem?_eq_getElem hlt]
      exact byteAt_spec hvalid hlt
    · rw [List.getElem?_eq_none hge]
      exact byteAt_outOfBounds hvalid hge
  visitBuffers startOffset endOffset := by
    obtain ⟨hvalid, rfl⟩ := h.valid
    obtain ⟨buffers, hvisited, hpieces, hbytes⟩ := visitBuffers_between hvalid startOffset endOffset
    obtain ⟨first, heq⟩ := visitBuffersWith_eq s startOffset endOffset
    refine ⟨first, buffers, fun b hb => (hpieces b hb).2, hbytes, fun onBuffer state => ?_⟩
    rw [heq, hvisited]
    rfl
  subStream startOffset endOffset := by
    obtain ⟨hvalid, rfl⟩ := h.valid
    obtain ⟨t, ht, -, hslice⟩ := subStream_spec hvalid startOffset endOffset
    exact ⟨t, ht, by rw [hslice, take_clampEnd hvalid]⟩
  toString startOffset endOffset := by
    obtain ⟨hvalid, rfl⟩ := h.valid
    exact toString_spec hvalid startOffset endOffset

end

/-- The bytes in the middle of a stream of two buffers. -/
theorem concatenated_middle :
    Concatenated ⟨[.ofBytes (bytes "b"), ⟨some (bytes "cde"), 2⟩], 3⟩ (bytes "bcd") := by
  have hfirst : (Buffer.ofBytes (bytes "ab")).Valid := by decide
  have hsecond : (Buffer.ofBytes (bytes "cde")).Valid := by decide
  have hone : Built ⟨[.ofBytes (bytes "ab")], 2⟩ (bytes "ab") :=
    .append .empty hfirst (by decide) rfl
  have htwo : Built ⟨[.ofBytes (bytes "ab"), .ofBytes (bytes "cde")], 5⟩ (bytes "abcde") :=
    .append hone hsecond (by decide) rfl
  have hmiddle : Built ⟨[.ofBytes (bytes "b"), ⟨some (bytes "cde"), 2⟩], 3⟩
      (between (bytes "abcde") 1 (some 4)) := .subStream htwo rfl
  exact concatenated_of_built hmiddle

end MemoryStream

end Maplang
