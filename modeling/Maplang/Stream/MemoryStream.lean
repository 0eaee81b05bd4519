import Maplang.Stream.Buffer
import Maplang.Text.Search

/-!
# Memory streams

A `MemoryStream` is a sequence of buffers that is read as one string of bytes.  Nothing is copied:
the search and the cutting work across the borders of the buffers.

Sizes are natural numbers, since the bytes of a stream are in memory and their number fits a
`size_t`; the offsets given to `read` may come from anywhere, and their sums wrap around.
`kNotFound` is `none`, and so is a default argument `SIZE_MAX`, which is beyond every stream.

## Main definitions

* `MemoryStream` and its operations, under their names in the code.
* `MemoryStream.contents` : the bytes of a stream.
* `MemoryStream.Valid` : the buffers are not empty and inside their memory, and `mSize` counts
  their bytes.

## Main results

Each operation of a valid stream succeeds, and its result is a function of the contents: the
borders of the buffers cannot be seen (`subStream_spec`, `firstIndexOf_spec`, `split_spec`,
`trim_spec`).
-/

namespace Maplang

/-- `class MemoryStream`. -/
structure MemoryStream where
  mBuffers : List Buffer := []
  mSize : ℕ := 0

namespace MemoryStream

variable (s : MemoryStream)

/-- `MemoryStream::append`. -/
def append (buffer : Buffer) : Code MemoryStream :=
  if buffer.length = 0 then .ok s
  else if buffer.data = none then throwRuntimeError "Data length is > 0, but buffer is NULL."
  else .ok { mBuffers := s.mBuffers ++ [buffer], mSize := s.mSize + buffer.length }

/-- `MemoryStream::clear`. -/
def clear (_s : MemoryStream) : MemoryStream := { mBuffers := [], mSize := 0 }

/-- The loop of `findIndex`, at the buffer of index `i`. -/
def findIndexFrom (byteIndex : ℕ) : ℕ → ℕ → List Buffer → Code (ℕ × ℕ)
  | _, _, [] => throwRuntimeError "Index is out of bounds"
  | i, lengthOfPreviousBuffers, buffer :: buffers =>
    if lengthOfPreviousBuffers ≤ byteIndex ∧
        byteIndex < lengthOfPreviousBuffers + buffer.length then
      .ok (i, byteIndex - lengthOfPreviousBuffers)
    else findIndexFrom byteIndex (i + 1) (lengthOfPreviousBuffers + buffer.length) buffers

/-- `MemoryStream::findIndex` : the index of the buffer, and the offset in it. -/
def findIndex (byteIndex : ℕ) : Code (ℕ × ℕ) := findIndexFrom byteIndex 0 0 s.mBuffers

/-- `MemoryStream::byteAt`. -/
def byteAt (index : ℕ) : Code UInt8 := do
  let (bufferIndex, bufferOffset) ← s.findIndex index
  match (s.mBuffers.getD bufferIndex {}).memory[bufferOffset]? with
  | some byte => .ok byte
  | none => .error .undefinedBehaviour

/-- `if (endOffset > mSize) { endOffset = mSize; }`. -/
def clampEnd (endOffset : Option ℕ) : ℕ := min (endOffset.getD s.mSize) s.mSize

/-- `sendBuffer` in the loop of `visitBuffers`: the first buffer is cut at its start, and the last
one at its end. -/
def sendBuffer (firstBufferIndex firstBufferStartOffset lastBufferIndex lastBufferEndOffset
    bufferIndex : ℕ) : Buffer :=
  let buffer := s.mBuffers.getD bufferIndex {}
  let bufferStartOffset := if bufferIndex = firstBufferIndex then firstBufferStartOffset else 0
  let bufferEndOffset :=
    if bufferIndex = lastBufferIndex then lastBufferEndOffset else buffer.length
  buffer.slice bufferStartOffset (some (bufferEndOffset - bufferStartOffset))

/-- The buffers which `visitBuffers` hands to its callback, as long as that returns true. -/
def visitBuffers (startOffset : ℕ) (endOffset : Option ℕ) : Code (List Buffer) :=
  let endOffset := s.clampEnd endOffset
  if endOffset ≤ startOffset then .ok []
  else do
    let (firstBufferIndex, firstBufferStartOffset) ← s.findIndex startOffset
    let (lastBufferIndex, lastByteOffset) ← s.findIndex (endOffset - 1)
    let lastBufferEndOffset := lastByteOffset + 1
    return (List.range' firstBufferIndex (lastBufferIndex + 1 - firstBufferIndex)).map
      (s.sendBuffer firstBufferIndex firstBufferStartOffset lastBufferIndex lastBufferEndOffset)

/-- `MemoryStream::subStream`. -/
def subStream (startOffset : ℕ) (endOffset : Option ℕ := none) : Code MemoryStream := do
  (← s.visitBuffers startOffset endOffset).foldlM append {}

/-- The bytes of a stream, as `operator<<` and `asString` write them. -/
def contents : ByteString := (s.mBuffers.map Buffer.contents).flatten

/-- The callback of `firstIndexOf` for one byte, called for one buffer after the other. -/
def memchrBuffers (findThis : UInt8) : ℕ → List Buffer → Option ℕ
  | _, [] => none
  | lengthOfPreviousBuffers, buffer :: buffers =>
    match buffer.contents.idxOf? findThis with
    | none => memchrBuffers findThis (lengthOfPreviousBuffers + buffer.length) buffers
    | some offsetInCurrentBuffer => some (lengthOfPreviousBuffers + offsetInCurrentBuffer)

/-- `MemoryStream::firstIndexOf(uint8_t, ...)`. -/
def firstIndexOfByte (findThis : UInt8) (startOffset : ℕ) (endOffset : Option ℕ := none) :
    Code (Option ℕ) :=
  let endOffset := s.clampEnd endOffset
  if endOffset ≤ startOffset then .ok none
  else do
    let foundAtIndex := memchrBuffers findThis 0 (← s.visitBuffers startOffset (some endOffset))
    return foundAtIndex.map (startOffset + ·)

/-- The loop of `equals`. -/
def equalsFrom : ℕ → ByteString → Code Bool
  | _, [] => .ok true
  | i, byte :: data => do
    if byte ≠ (← s.byteAt i) then return false
    else equalsFrom (i + 1) data

/-- `MemoryStream::equals`, as the search calls it: at an offset in the stream, so that the sum does
not wrap around. -/
def equals (data : ByteString) (streamOffset : ℕ) : Code Bool :=
  if s.mSize < streamOffset + data.length then .ok false
  else s.equalsFrom streamOffset data

/-- The loop of `firstIndexOf`: the start offset goes up by one, so the loop ends when it
reaches the end offset. -/
def firstIndexOfLoop (first : UInt8) (rest : ByteString) (endOffset : ℕ) :
    ℕ → ℕ → Code (Option ℕ)
  | 0, _ => .error .nontermination
  | fuel + 1, startOffset => do
    match ← s.firstIndexOfByte first startOffset (some endOffset) with
    | none => return none
    | some candidateOffset =>
      if ← s.equals rest (candidateOffset + 1) then return some candidateOffset
      else firstIndexOfLoop first rest endOffset fuel (startOffset + 1)

/-- `MemoryStream::firstIndexOf(const void*, size_t, ...)`. -/
def firstIndexOf (findThis : ByteString) (startOffset : ℕ := 0) (endOffset : Option ℕ := none) :
    Code (Option ℕ) :=
  let endOffset := s.clampEnd endOffset
  match findThis with
  | [] => .ok (some 0)
  | first :: rest =>
    if endOffset ≤ startOffset then .ok none
    else s.firstIndexOfLoop first rest endOffset (endOffset - startOffset + 1) startOffset

/-- `MemoryStream::firstIndexOf(const char*, ...)`, which searches for the characters before the
terminating null. -/
def firstIndexOfCString (findThisString : ByteString) (startOffset : ℕ := 0)
    (endOffset : Option ℕ := none) : Code (Option ℕ) :=
  s.firstIndexOf (findThisString.takeWhile (· ≠ 0)) startOffset endOffset

/-- The loop of `split`.  An empty separator is found in place, and the loop does not get past
it. -/
def splitLoop (separator : ByteString) (maxTokens : Option ℕ) :
    ℕ → ℕ → ℕ → Code (List MemoryStream)
  | 0, _, _ => .error .nontermination
  | fuel + 1, fragmentIndex, startOffset => do
    let endOffset ←
      if maxTokens = some (fragmentIndex + 1) then pure s.mSize
      else do pure ((← s.firstIndexOf separator startOffset (some s.mSize)).getD s.mSize)
    let fragment ← s.subStream startOffset (some endOffset)
    if endOffset = s.mSize then return [fragment]
    else
      let fragments ←
        splitLoop separator maxTokens fuel (fragmentIndex + 1) (endOffset + separator.length)
      return fragment :: fragments

/-- `MemoryStream::split` : the fragments handed to the callback, whose result is not looked at. -/
def split (separator : ByteString) (maxTokens : Option ℕ := none) : Code (List MemoryStream) :=
  s.splitLoop separator maxTokens (s.mSize + maxTokens.getD 0 + 1) 0 0

/-- The loop of `firstIndexNotOfAnyInSet`. -/
def firstIndexNotLoop (findAnyOfTheseBytes : ByteString) : ℕ → ℕ → Code (Option ℕ)
  | 0, _ => .ok none
  | count + 1, i => do
    if (← s.byteAt i) ∈ findAnyOfTheseBytes then firstIndexNotLoop findAnyOfTheseBytes count (i + 1)
    else return some i

/-- `MemoryStream::firstIndexNotOfAnyInSet`. -/
def firstIndexNotOfAnyInSet (findAnyOfTheseBytes : ByteString) (startOffset : ℕ := 0)
    (endOffset : Option ℕ := none) : Code (Option ℕ) :=
  s.firstIndexNotLoop findAnyOfTheseBytes (s.clampEnd endOffset - startOffset) startOffset

/-- The loop of `lastIndexNotOfAnyInSet`, which goes down. -/
def lastIndexNotLoop (findAnyOfTheseBytes : ByteString) (startOffset : ℕ) : ℕ → Code (Option ℕ)
  | 0 => .ok none
  | count + 1 => do
    let i := startOffset + count
    if (← s.byteAt i) ∈ findAnyOfTheseBytes then
      lastIndexNotLoop findAnyOfTheseBytes startOffset count
    else return some i

/-- `MemoryStream::lastIndexNotOfAnyInSet`. -/
def lastIndexNotOfAnyInSet (findAnyOfTheseBytes : ByteString) (startOffset : ℕ := 0)
    (endOffset : Option ℕ := none) : Code (Option ℕ) :=
  s.lastIndexNotLoop findAnyOfTheseBytes startOffset (s.clampEnd endOffset - startOffset)

/-- `whitespace`. -/
def whitespace : ByteString := bytes " \r\n\t"

/-- `MemoryStream::trim`. -/
def trim : Code MemoryStream := do
  let firstNonWhitespaceIndex ← s.firstIndexNotOfAnyInSet whitespace
  let lastNonWhitespaceIndex ← s.lastIndexNotOfAnyInSet whitespace
  match firstNonWhitespaceIndex with
  | none => return {}
  -- `kNotFound + 1` is zero
  | some first => s.subStream first (some ((lastNonWhitespaceIndex.map (· + 1)).getD 0))

/-- The callback of `read`, called for one buffer after the other. -/
def copyBuffers : ℕ → List UInt8 → List Buffer → Code (ℕ × List UInt8)
  | readByteCount, memory, [] => .ok (readByteCount, memory)
  | readByteCount, memory, buffer :: buffers => do
    let memory ← memcpy memory readByteCount buffer.memory buffer.length
    copyBuffers (readByteCount + buffer.length) memory buffers

/-- `MemoryStream::read` : the number of bytes read, and the memory they are read to.  The offset
may be any 64-bit number, and the sums wrap around. -/
def read (streamOffset numberOfBytesToRead : ℕ) (copyToBuffer : List UInt8) (bufferLength : ℕ) :
    Code (ℕ × List UInt8) := do
  let actualNumberOfBytesToRead :=
    if s.mSize < sizeAdd streamOffset numberOfBytesToRead then sizeSub s.mSize streamOffset
    else numberOfBytesToRead
  let actualNumberOfBytesToRead := min actualNumberOfBytesToRead bufferLength
  let buffers ←
    s.visitBuffers streamOffset (some (sizeAdd streamOffset actualNumberOfBytesToRead))
  copyBuffers 0 copyToBuffer buffers

/-- `MemoryStream::readBigEndian<uint64_t>`.  The array it reads to is not initialised, so every
byte of it has to be read. -/
def readBigEndian (streamOffset : ℕ) : Code ℕ := do
  if s.mSize < sizeAdd streamOffset 8 then
    throwRuntimeError ("Cannot read 8-byte value at offset " ++ toString streamOffset ++
      " - buffer too small. Size of stream is " ++ toString s.mSize ++ ".")
  else
    let (readByteCount, buffer) ← s.read streamOffset 8 (List.replicate 8 0) 8
    if readByteCount < 8 then .error .undefinedBehaviour
    else return buffer.foldl (fun value byte => value * 2 ^ 8 % 2 ^ 64 + byte.toNat) 0

/-! ### The bytes of a stream -/

/-- The bytes of a sequence of buffers. -/
def bytesOf (buffers : List Buffer) : ByteString := (buffers.map Buffer.contents).flatten

@[simp] theorem bytesOf_nil : bytesOf [] = [] := rfl

@[simp] theorem bytesOf_cons (b : Buffer) (bs : List Buffer) :
    bytesOf (b :: bs) = b.contents ++ bytesOf bs := rfl

@[simp] theorem bytesOf_append (bs bs' : List Buffer) :
    bytesOf (bs ++ bs') = bytesOf bs ++ bytesOf bs' := by
  simp [bytesOf]

/-- A buffer as streams keep them: not empty, and inside its memory. -/
def Piece (b : Buffer) : Prop := b.Valid ∧ 0 < b.length

/-- The state of a stream in use. -/
structure Valid : Prop where
  mBuffers : ∀ b ∈ s.mBuffers, Piece b
  mSize : s.mSize = s.contents.length

theorem valid_empty : Valid {} := ⟨by simp, rfl⟩

variable {s}

/-- Appending a buffer appends its bytes. -/
theorem append_spec (h : s.Valid) {b : Buffer} (hb : b.Valid) :
    ∃ t, s.append b = .ok t ∧ t.Valid ∧ t.contents = s.contents ++ b.contents := by
  by_cases hlength : b.length = 0
  · exact ⟨s, by simp [append, hlength], h, by simp [Buffer.contents, hlength]⟩
  · have hdata : b.data ≠ none := by
      intro hnone
      simp [Buffer.Valid, Buffer.memory, hnone] at hb
      exact hlength hb
    refine ⟨_, by rw [append, if_neg hlength, if_neg hdata], ⟨?_, ?_⟩, by simp [contents]⟩
    · intro b' hb'
      rcases List.mem_append.1 hb' with hb' | hb'
      · exact h.mBuffers b' hb'
      · rw [List.mem_singleton.1 hb']
        exact ⟨hb, Nat.pos_of_ne_zero hlength⟩
    · simp [contents, h.mSize, Buffer.length_contents hb]

/-- A null buffer with a length is not taken. -/
theorem append_null {b : Buffer} (hdata : b.data = none) (hb : ¬ b.Valid) (s : MemoryStream) :
    s.append b = throwRuntimeError "Data length is > 0, but buffer is NULL." := by
  have hlength : b.length ≠ 0 := fun hzero => hb (by rw [Buffer.Valid, hzero]; exact Nat.zero_le _)
  rw [append, if_neg hlength, if_pos hdata]

theorem foldlM_append_spec {bs : List Buffer} (hbs : ∀ b ∈ bs, b.Valid) (h : s.Valid) :
    ∃ t, bs.foldlM append s = .ok t ∧ t.Valid ∧ t.contents = s.contents ++ bytesOf bs := by
  induction bs generalizing s with
  | nil => exact ⟨s, rfl, h, by simp⟩
  | cons b bs ih =>
    obtain ⟨s', hs', h', hcontents'⟩ := append_spec h (hbs b (by simp))
    obtain ⟨t, ht, hvalid, hcontents⟩ := ih (fun b' hb' => hbs b' (by simp [hb'])) h'
    refine ⟨t, ?_, hvalid, by rw [hcontents, hcontents', bytesOf_cons, List.append_assoc]⟩
    rw [List.foldlM_cons, hs']
    exact ht

/-- Every byte is found in its buffer. -/
theorem findIndexFrom_spec {buffers : List Buffer} (hbuffers : ∀ b ∈ buffers, Piece b) {k : ℕ}
    (hk : k < (bytesOf buffers).length) (i prev : ℕ) :
    ∃ pre b post, buffers = pre ++ b :: post ∧ (bytesOf pre).length ≤ k ∧
      k < (bytesOf pre).length + b.length ∧
      findIndexFrom (prev + k) i prev buffers = .ok (i + pre.length, k - (bytesOf pre).length) := by
  induction buffers generalizing k i prev with
  | nil => simp at hk
  | cons b bs ih =>
    have hlength := Buffer.length_contents (hbuffers b (by simp)).1
    by_cases hin : k < b.length
    · refine ⟨[], b, bs, rfl, Nat.zero_le _, by simpa using hin, ?_⟩
      rw [findIndexFrom, if_pos ⟨by omega, by omega⟩]
      simp
    · rw [bytesOf_cons, List.length_append, hlength] at hk
      obtain ⟨pre, b', post, rfl, hle, hlt, hfind⟩ :=
        ih (fun b' hb' => hbuffers b' (by simp [hb'])) (k := k - b.length) (by omega) (i + 1)
          (prev + b.length)
      refine ⟨b :: pre, b', post, rfl, ?_, ?_, ?_⟩
      · rw [bytesOf_cons, List.length_append, hlength]; omega
      · rw [bytesOf_cons, List.length_append, hlength]; omega
      · rw [findIndexFrom, if_neg (by omega),
          show prev + k = prev + b.length + (k - b.length) by omega,
          hfind, bytesOf_cons, List.length_append, hlength, List.length_cons]
        congr 2 <;> omega

theorem findIndex_spec (h : s.Valid) {k : ℕ} (hk : k < s.contents.length) :
    ∃ pre b post, s.mBuffers = pre ++ b :: post ∧ (bytesOf pre).length ≤ k ∧
      k < (bytesOf pre).length + b.length ∧
      s.findIndex k = .ok (pre.length, k - (bytesOf pre).length) := by
  simpa [findIndex] using findIndexFrom_spec h.mBuffers hk 0 0

theorem byteAt_spec (h : s.Valid) {k : ℕ} (hk : k < s.contents.length) :
    s.byteAt k = .ok s.contents[k] := by
  obtain ⟨pre, b, post, heq, hle, hlt, hfind⟩ := findIndex_spec h hk
  have hb : Piece b := h.mBuffers b (by simp [heq])
  have hcontents : s.contents = bytesOf pre ++ (b.contents ++ bytesOf post) := by
    rw [contents, heq]; simp [bytesOf]
  have hbyte : b.memory[k - (bytesOf pre).length]? = some s.contents[k] := by
    rw [← List.getElem?_eq_getElem hk, hcontents, List.getElem?_append_right hle,
      List.getElem?_append_left (by rw [Buffer.length_contents hb.1]; omega), Buffer.contents,
      List.getElem?_take, if_pos (by omega)]
  simp [byteAt, hfind, heq, bind, Except.bind, hbyte]

/-! ### Visiting buffers -/

theorem clampEnd_some (h : s.Valid) {e : ℕ} (he : e ≤ s.contents.length) :
    s.clampEnd (some e) = e := by
  rw [clampEnd, Option.getD_some, h.mSize]
  exact Nat.min_eq_left he

theorem clampEnd_none (h : s.Valid) : s.clampEnd none = s.contents.length := by
  rw [clampEnd, Option.getD_none, Nat.min_self, h.mSize]

theorem clampEnd_le (h : s.Valid) (endOffset : Option ℕ) :
    s.clampEnd endOffset ≤ s.contents.length := h.mSize ▸ Nat.min_le_right _ _

theorem slice_zero_length {b : Buffer} (hb : Piece b) : b.slice 0 (some b.length) = b := by
  rw [Buffer.slice, if_neg (by have := hb.2; omega)]
  cases b with
  | mk data length => cases data <;> simp

theorem Piece.slice {b : Buffer} (hb : Piece b) {offset length : ℕ} (ho : offset < b.length)
    (hl : 0 < length) : Piece (b.slice offset (some length)) := by
  refine ⟨Buffer.valid_slice hb.1 _ _, ?_⟩
  rw [Buffer.length_slice _ ho, Option.getD_some]
  omega

theorem sendBuffer_eq {first firstStart last lastEnd j : ℕ} {b : Buffer}
    (h : s.mBuffers[j]? = some b) : s.sendBuffer first firstStart last lastEnd j =
      b.slice (if j = first then firstStart else 0)
        (some ((if j = last then lastEnd else b.length) -
          if j = first then firstStart else 0)) := by
  simp [sendBuffer, List.getD_eq_getElem?_getD, h]

/-- The buffers visited when the first one is not the last one. -/
theorem map_sendBuffer {pre m post : List Buffer} {b b' : Buffer}
    (heq : s.mBuffers = pre ++ b :: (m ++ b' :: post)) (hm : ∀ x ∈ m, Piece x)
    (firstStart lastEnd : ℕ) :
    (List.range' pre.length (m.length + 2)).map
      (s.sendBuffer pre.length firstStart (pre.length + m.length + 1) lastEnd) =
      b.slice firstStart (some (b.length - firstStart)) :: (m ++ [b'.slice 0 (some lastEnd)]) := by
  rw [List.range'_succ, List.range'_concat, List.map_cons, List.map_append, List.map_singleton]
  congr 2
  · rw [sendBuffer_eq (b := b) (by simp [heq]), if_pos rfl, if_neg (by omega)]
  · refine List.ext_getElem (by simp) fun i hi hi' => ?_
    have hget : s.mBuffers[pre.length + 1 + i]? = some m[i] := by
      rw [heq, List.getElem?_append_right (by omega),
        show pre.length + 1 + i - pre.length = i + 1 by omega, List.getElem?_cons_succ,
        List.getElem?_append_left hi', List.getElem?_eq_getElem hi']
    rw [List.getElem_map, List.getElem_range', Nat.one_mul, sendBuffer_eq hget,
      if_neg (by omega), if_neg (by omega)]
    exact slice_zero_length (hm _ (List.getElem_mem hi'))
  · have hget : s.mBuffers[pre.length + 1 + 1 * m.length]? = some b' := by
      rw [heq, List.getElem?_append_right (by omega),
        show pre.length + 1 + 1 * m.length - pre.length = m.length + 1 by omega,
        List.getElem?_cons_succ, List.getElem?_append_right le_rfl, Nat.sub_self,
        List.getElem?_cons_zero]
    rw [sendBuffer_eq hget, if_neg (by omega), if_pos (by omega), Nat.sub_zero]

/-- Of two elements of a list, the first one is the second one, or comes before it. -/
theorem append_cons_cases {α : Type*} {pre pre' post post' : List α} {x x' : α}
    (heq : pre ++ x :: post = pre' ++ x' :: post') (hle : pre.length ≤ pre'.length) :
    (pre = pre' ∧ x = x' ∧ post = post') ∨ ∃ m, pre' = pre ++ x :: m ∧ post = m ++ x' :: post' := by
  obtain ⟨m, rfl⟩ := List.prefix_of_prefix_length_le (heq ▸ List.prefix_append _ _)
    (List.prefix_append _ _) hle
  rw [List.append_assoc, List.append_cancel_left_eq] at heq
  cases m with
  | nil =>
    obtain ⟨rfl, rfl⟩ := List.cons.inj heq
    exact .inl ⟨(List.append_nil _).symm, rfl, rfl⟩
  | cons y m =>
    obtain ⟨rfl, rfl⟩ := List.cons.inj heq
    exact .inr ⟨m, rfl, rfl⟩

/-- The bytes between two offsets inside one buffer, ... -/
theorem contents_slice_inside {pre post : List Buffer} {b : Buffer} (hb : Piece b) {start e : ℕ}
    (hle : (bytesOf pre).length ≤ start) (he : e ≤ (bytesOf pre).length + b.length) :
    (b.slice (start - (bytesOf pre).length) (some (e - start))).contents =
      ((bytesOf (pre ++ b :: post)).drop start).take (e - start) := by
  have hlength := Buffer.length_contents hb.1
  rw [bytesOf_append, bytesOf_cons, List.drop_append, List.drop_of_length_le hle, List.nil_append,
    Buffer.contents_slice_some]
  rcases Nat.lt_or_ge start e with hlt | hge
  · rw [List.drop_append_of_le_length (by omega),
      List.take_append_of_le_length (by rw [List.length_drop]; omega)]
  · rw [Nat.sub_eq_zero_of_le hge, List.take_zero, List.take_zero]

/-- ... and between an offset in one buffer and an offset in a later one. -/
theorem bytesOf_slices {pre m post : List Buffer} {b b' : Buffer} (hb : Piece b) {start k : ℕ}
    (hle : (bytesOf pre).length ≤ start) (hlt : start < (bytesOf pre).length + b.length)
    (hb' : Piece b') (hk : k ≤ b'.length) :
    bytesOf (b.slice (start - (bytesOf pre).length)
        (some (b.length - (start - (bytesOf pre).length))) :: (m ++ [b'.slice 0 (some k)])) =
      ((bytesOf (pre ++ b :: (m ++ b' :: post))).drop start).take
        ((bytesOf pre).length + b.length + (bytesOf m).length + k - start) := by
  have hlength := Buffer.length_contents hb.1
  have hlength' := Buffer.length_contents hb'.1
  have hrest : (bytesOf pre).length + b.length + (bytesOf m).length + k - start =
      (b.contents.drop (start - (bytesOf pre).length)).length + (bytesOf m).length + k := by
    rw [List.length_drop]
    omega
  rw [hrest]
  simp only [bytesOf_cons, bytesOf_append, bytesOf_nil, List.append_nil, Buffer.contents_slice_some,
    List.drop_zero]
  rw [List.drop_append, List.drop_of_length_le hle, List.nil_append,
    List.drop_append_of_le_length (by omega), Nat.add_assoc, List.take_length_add_append,
    List.take_length_add_append, List.take_append_of_le_length (by omega),
    List.take_of_length_le (by rw [List.length_drop]; omega)]

/-- **The buffers visited hold the bytes between the offsets**, and none of them is empty. -/
theorem visitBuffers_spec (h : s.Valid) (startOffset : ℕ) (endOffset : Option ℕ) :
    ∃ bs, s.visitBuffers startOffset endOffset = .ok bs ∧ (∀ b ∈ bs, Piece b) ∧
      bytesOf bs = (s.contents.drop startOffset).take (s.clampEnd endOffset - startOffset) := by
  have hclamp := clampEnd_le h endOffset
  unfold visitBuffers
  generalize s.clampEnd endOffset = e at hclamp ⊢
  by_cases hempty : e ≤ startOffset
  · exact ⟨[], by simp [hempty], by simp, by simp [Nat.sub_eq_zero_of_le hempty]⟩
  rw [Nat.not_le] at hempty
  obtain ⟨pre, b, post, heq, hle, hlt, hfirst⟩ := findIndex_spec h (k := startOffset) (by omega)
  obtain ⟨pre', b', post', heq', hle', hlt', hlast⟩ := findIndex_spec h (k := e - 1) (by omega)
  have hb : Piece b := h.mBuffers b (by simp [heq])
  have hb' : Piece b' := h.mBuffers b' (by simp [heq'])
  have horder : pre.length ≤ pre'.length := by
    by_contra hafter
    rcases append_cons_cases (heq'.symm.trans heq) (Nat.le_of_not_le hafter) with
      ⟨rfl, -, -⟩ | ⟨m, rfl, -⟩
    · exact hafter le_rfl
    · have := Buffer.length_contents hb'.1
      rw [bytesOf_append, bytesOf_cons, List.length_append, List.length_append] at hle
      omega
  simp only [Nat.not_le.2 hempty, if_false, hfirst, hlast, bind, Except.bind, pure, Except.pure]
  refine ⟨_, rfl, ?_⟩
  rcases append_cons_cases (heq.symm.trans heq') horder with ⟨rfl, rfl, rfl⟩ | ⟨m, rfl, rfl⟩
  · -- one buffer
    rw [Nat.add_sub_cancel_left, List.range'_one, List.map_singleton,
      sendBuffer_eq (b := b) (by simp [heq]), if_pos rfl, if_pos rfl,
      show e - 1 - (bytesOf pre).length + 1 - (startOffset - (bytesOf pre).length) = e - startOffset
        by omega]
    refine ⟨List.forall_mem_singleton.2 (hb.slice (by omega) (by omega)), ?_⟩
    rw [bytesOf_cons, bytesOf_nil, List.append_nil, contents, ← bytesOf, heq,
      contents_slice_inside hb hle (by omega)]
  · -- a first buffer, buffers in the middle, and a last one
    have hmiddle : ∀ x ∈ m, Piece x := fun x hx => h.mBuffers x (by simp [heq', hx])
    have hindex : (pre ++ b :: m).length = pre.length + m.length + 1 := by simp; omega
    have hbytes : (bytesOf (pre ++ b :: m)).length =
        (bytesOf pre).length + b.length + (bytesOf m).length := by
      simp [Buffer.length_contents hb.1, Nat.add_assoc]
    rw [hindex, show pre.length + m.length + 1 + 1 - pre.length = m.length + 2 by omega,
      map_sendBuffer heq hmiddle]
    rw [hbytes] at hle' hlt' ⊢
    refine ⟨fun x hx => ?_, ?_⟩
    · simp only [List.mem_cons, List.mem_append, List.not_mem_nil, or_false] at hx
      rcases hx with rfl | hx | rfl
      · exact hb.slice (by omega) (by omega)
      · exact hmiddle x hx
      · exact hb'.slice hb'.2 (by omega)
    · rw [contents, ← bytesOf, heq,
        @bytesOf_slices pre m post' b b' hb startOffset _ hle hlt hb' (by omega)]
      congr 1
      omega

/-- A substream holds the bytes between the offsets. -/
theorem subStream_spec (h : s.Valid) (startOffset : ℕ) (endOffset : Option ℕ) :
    ∃ t, s.subStream startOffset endOffset = .ok t ∧ t.Valid ∧
      t.contents = (s.contents.drop startOffset).take (s.clampEnd endOffset - startOffset) := by
  obtain ⟨bs, hbs, hpieces, hbytes⟩ := visitBuffers_spec h startOffset endOffset
  obtain ⟨t, ht, hvalid, hcontents⟩ :=
    foldlM_append_spec (fun b hb => (hpieces b hb).1) valid_empty
  refine ⟨t, by rw [subStream, hbs]; exact ht, hvalid, ?_⟩
  rw [hcontents, hbytes]
  rfl

/-! ### Searching -/

theorem memchrBuffers_spec {bs : List Buffer} (hbs : ∀ b ∈ bs, Piece b) (findThis : UInt8)
    (prev : ℕ) :
    memchrBuffers findThis prev bs = ((bytesOf bs).idxOf? findThis).map (prev + ·) := by
  induction bs generalizing prev with
  | nil => rfl
  | cons b bs ih =>
    have hlength := Buffer.length_contents (hbs b (by simp)).1
    have happend : (b.contents ++ bytesOf bs).idxOf? findThis = (b.contents.idxOf? findThis).or
        (((bytesOf bs).idxOf? findThis).map (· + b.contents.length)) := by
      simp only [List.idxOf?, List.findIdx?_append]
    rw [memchrBuffers, bytesOf_cons, happend]
    cases hfound : b.contents.idxOf? findThis with
    | some i => simp
    | none =>
      rw [ih fun b' hb' => hbs b' (by simp [hb']), hlength]
      cases (bytesOf bs).idxOf? findThis with
      | none => rfl
      | some i => simp [Nat.add_comm, Nat.add_left_comm]

/-- The first position of a byte, if it is between the offsets. -/
theorem firstIndexOfByte_spec (h : s.Valid) (findThis : UInt8) (startOffset : ℕ)
    (endOffset : Option ℕ) :
    s.firstIndexOfByte findThis startOffset endOffset =
      .ok ((Search.indexFrom? [findThis] s.contents startOffset).filter
        (· < s.clampEnd endOffset)) := by
  have hle := clampEnd_le h endOffset
  have hne : [findThis] ≠ [] := List.cons_ne_nil _ _
  rw [firstIndexOfByte]
  by_cases hempty : s.clampEnd endOffset ≤ startOffset
  · have hnone : (Search.indexFrom? [findThis] s.contents startOffset).filter
        (· < s.clampEnd endOffset) = none := by
      rw [Option.filter_eq_none_iff]
      intro m hm
      have hstart := ((Search.indexFrom?_eq_some hne).1 hm).1
      simp only [decide_eq_true_eq]
      omega
    rw [hnone]
    simp only [if_pos hempty]
  · obtain ⟨bs, hbs, hpieces, hbytes⟩ :=
      visitBuffers_spec h startOffset (some (s.clampEnd endOffset))
    rw [clampEnd_some h hle, ← List.drop_take] at hbytes
    simp only [if_neg hempty, hbs, bind, Except.bind, pure, Except.pure,
      memchrBuffers_spec hpieces, hbytes]
    have hwindow :=
      @Search.indexFrom?_take _ _ s.contents _ hne startOffset (s.clampEnd endOffset)
    rw [Search.indexFrom?, Search.indexOf?_singleton] at hwindow
    simp only [Nat.zero_add, Option.map_id'] at hwindow ⊢
    rw [hwindow]
    rfl

theorem equalsFrom_spec (h : s.Valid) {data : ByteString} {i : ℕ}
    (hi : i + data.length ≤ s.contents.length) :
    s.equalsFrom i data = .ok (decide (data <+: s.contents.drop i)) := by
  induction data generalizing i with
  | nil => simp [equalsFrom]
  | cons byte data ih =>
    rw [List.length_cons] at hi
    have hlt : i < s.contents.length := by omega
    simp only [equalsFrom, byteAt_spec h hlt, bind, Except.bind, pure, Except.pure]
    by_cases hbyte : byte = s.contents[i]
    · rw [if_neg (by simpa using hbyte), ih (by omega)]
      simp [Search.cons_prefix_drop_iff, List.getElem?_eq_getElem hlt, hbyte]
    · rw [if_pos hbyte]
      simp [Search.cons_prefix_drop_iff, List.getElem?_eq_getElem hlt, Ne.symm hbyte]

theorem equals_spec (h : s.Valid) (data : ByteString) {streamOffset : ℕ}
    (ho : streamOffset ≤ s.contents.length) :
    s.equals data streamOffset = .ok (decide (data <+: s.contents.drop streamOffset)) := by
  rw [equals, h.mSize]
  by_cases hlong : s.contents.length < streamOffset + data.length
  · have hnot : ¬ data <+: s.contents.drop streamOffset := by
      intro hstarts
      have := hstarts.length_le
      rw [List.length_drop] at this
      omega
    rw [if_pos hlong, decide_eq_false hnot]
  · rw [if_neg hlong, equalsFrom_spec h (by omega)]

theorem firstIndexOfLoop_spec (h : s.Valid) (first : UInt8) (rest : ByteString)
    {fuel start stop : ℕ} (hstop : stop ≤ s.contents.length) (hfuel : stop - start < fuel) :
    s.firstIndexOfLoop first rest stop fuel start =
      .ok ((Search.indexFrom? (first :: rest) s.contents start).filter (· < stop)) := by
  have hne : first :: rest ≠ [] := List.cons_ne_nil _ _
  have hne' : [first] ≠ [] := List.cons_ne_nil _ _
  -- where the pattern occurs, its first byte does
  have hbyteAt : ∀ {i}, first :: rest <+: s.contents.drop i → [first] <+: s.contents.drop i :=
    fun hstarts => (List.prefix_append [first] rest).trans hstarts
  induction fuel generalizing start with
  | zero => omega
  | succ fuel ih =>
    rw [firstIndexOfLoop, firstIndexOfByte_spec h, clampEnd_some h hstop]
    simp only [bind, Except.bind, pure, Except.pure]
    cases hbyte : (Search.indexFrom? [first] s.contents start).filter (· < stop) with
    | none =>
      simp only
      rw [Option.filter_eq_none_iff.2]
      intro m hm
      obtain ⟨hle, hstarts, -⟩ := (Search.indexFrom?_eq_some hne).1 hm
      obtain ⟨c, hc, hfound⟩ := Search.exists_indexFrom?_le hne' hle (hbyteAt hstarts)
      have hcstop := Option.filter_eq_none_iff.1 hbyte c hfound
      simp only [decide_eq_true_eq] at hcstop ⊢
      omega
    | some c =>
      obtain ⟨hfound, hcstop⟩ := Option.filter_eq_some_iff.1 hbyte
      rw [decide_eq_true_eq] at hcstop
      obtain ⟨hle, hget, hfirst⟩ := (Search.indexFrom?_eq_some hne').1 hfound
      have hiff : first :: rest <+: s.contents.drop c ↔ rest <+: s.contents.drop (c + 1) := by
        rw [Search.cons_prefix_drop_iff,
          and_iff_right (Search.cons_prefix_drop_iff.1 hget).1]
      simp only [equals_spec h rest (show c + 1 ≤ s.contents.length by omega)]
      by_cases hrest : rest <+: s.contents.drop (c + 1)
      · have hhere : Search.indexFrom? (first :: rest) s.contents start = some c :=
          (Search.indexFrom?_eq_some hne).2
            ⟨hle, hiff.2 hrest, fun i hi hlt hstarts => hfirst i hi hlt (hbyteAt hstarts)⟩
        rw [decide_eq_true hrest, if_pos rfl, hhere, Option.filter_some,
          if_pos (decide_eq_true hcstop)]
      · rw [decide_eq_false hrest, if_neg Bool.false_ne_true, ih (by omega),
          Search.indexFrom?_succ hne]
        rcases Nat.eq_or_lt_of_le hle with rfl | hlt
        · exact fun hstarts => hrest (hiff.1 hstarts)
        · exact fun hstarts => hfirst start le_rfl hlt (hbyteAt hstarts)

/-- **The first position of a pattern**, if the pattern begins between the offsets. -/
theorem firstIndexOf_eq (h : s.Valid) {findThis : ByteString} (hne : findThis ≠ [])
    (startOffset : ℕ) (endOffset : Option ℕ) :
    s.firstIndexOf findThis startOffset endOffset =
      .ok ((Search.indexFrom? findThis s.contents startOffset).filter
        (· < s.clampEnd endOffset)) := by
  cases findThis with
  | nil => exact absurd rfl hne
  | cons first rest =>
    simp only [firstIndexOf]
    by_cases hempty : s.clampEnd endOffset ≤ startOffset
    · rw [if_pos hempty, Option.filter_eq_none_iff.2]
      intro m hm
      have hstart := ((Search.indexFrom?_eq_some hne).1 hm).1
      simp only [decide_eq_true_eq]
      omega
    · rw [if_neg hempty, firstIndexOfLoop_spec h first rest (clampEnd_le h endOffset) (by omega)]

/-- The first position of a pattern. -/
theorem firstIndexOf_spec (h : s.Valid) {findThis : ByteString} (hne : findThis ≠ [])
    (startOffset : ℕ) {endOffset : Option ℕ} (hend : s.clampEnd endOffset = s.contents.length) :
    s.firstIndexOf findThis startOffset endOffset =
      .ok (Search.indexFrom? findThis s.contents startOffset) := by
  rw [firstIndexOf_eq h hne, hend]
  cases hm : Search.indexFrom? findThis s.contents startOffset with
  | none => rfl
  | some m =>
    have hfits := Search.add_length_le hne ((Search.indexFrom?_eq_some hne).1 hm).2.1
    have hpos := List.length_pos_iff.2 hne
    rw [Option.filter_some, if_pos (decide_eq_true (by omega))]

/-! ### Splitting and trimming -/

theorem splitLoop_spec (h : s.Valid) {separator : ByteString} (hne : separator ≠ [])
    (maxTokens : Option ℕ) (fuel fragmentIndex start cuts : ℕ) (hstart : start ≤ s.contents.length)
    (hfuel : s.contents.length - start < fuel)
    (hcuts : maxTokens = none ∧ s.contents.length - start ≤ cuts ∨
      maxTokens = some (fragmentIndex + 1 + cuts)) :
    ∃ fs, s.splitLoop separator maxTokens fuel fragmentIndex start = .ok fs ∧
      (∀ f ∈ fs, f.Valid) ∧
      fs.map contents = Search.splitAtMost separator cuts (s.contents.drop start) := by
  induction fuel generalizing fragmentIndex start cuts with
  | zero => omega
  | succ fuel ih =>
    -- the last fragment reaches to the end
    obtain ⟨last, hlast, hvalid, hcontents⟩ :=
      subStream_spec h start (some s.contents.length)
    rw [clampEnd_some h le_rfl, List.take_of_length_le (by rw [List.length_drop])] at hcontents
    by_cases htokens : maxTokens = some (fragmentIndex + 1)
    · obtain rfl : cuts = 0 := by
        rcases hcuts with ⟨hnone, -⟩ | hsome
        · simp [hnone] at htokens
        · rw [hsome] at htokens
          have := Option.some.inj htokens
          omega
      refine ⟨[last], ?_, by simpa using hvalid, by simpa [Search.splitAtMost] using hcontents⟩
      simp [splitLoop, htokens, bind, Except.bind, pure, Except.pure, h.mSize, hlast]
    · have hfind := firstIndexOf_spec h hne start (clampEnd_some h le_rfl)
      rw [splitLoop, if_neg htokens, h.mSize, hfind]
      simp only [bind, Except.bind, pure, Except.pure, Search.indexFrom?]
      cases hindex : Search.indexOf? separator (s.contents.drop start) with
      | none =>
        refine ⟨[last], by simp [hlast], by simpa using hvalid, ?_⟩
        cases cuts <;> simp [Search.splitAtMost, hindex, hcontents]
      | some n =>
        have hend := Search.add_length_le hne ((Search.indexOf?_eq_some hne).1 hindex).1
        have hpos := List.length_pos_iff.2 hne
        rw [List.length_drop] at hend
        obtain ⟨f, hf, hfvalid, hfcontents⟩ := subStream_spec h start (some (start + n))
        rw [clampEnd_some h (by omega), Nat.add_sub_cancel_left] at hfcontents
        obtain ⟨cuts', rfl⟩ : ∃ cuts', cuts = cuts' + 1 := by
          refine Nat.exists_eq_succ_of_ne_zero fun hzero => ?_
          rcases hcuts with ⟨-, hle⟩ | hsome
          · omega
          · exact htokens (by rw [hsome, hzero])
        obtain ⟨fs, hfs, hfsvalid, hfscontents⟩ :=
          ih (fragmentIndex + 1) (start + n + separator.length) cuts' (by omega) (by omega)
            (hcuts.imp (fun hnone => ⟨hnone.1, by omega⟩)
              fun hsome => hsome.trans (by congr 1; omega))
        refine ⟨f :: fs, ?_, ?_, ?_⟩
        · simp only [Option.map_some, Option.getD_some, hf, hfs]
          rw [if_neg (by omega)]
        · intro x hx
          rcases List.mem_cons.1 hx with rfl | hx
          · exact hfvalid
          · exact hfsvalid x hx
        · rw [List.map_cons, hfcontents, hfscontents]
          simp [Search.splitAtMost, hindex, List.drop_drop, Nat.add_assoc]

/-- **Splitting** cuts the contents at every separator, ... -/
theorem split_spec (h : s.Valid) {separator : ByteString} (hne : separator ≠ []) :
    ∃ fs, s.split separator = .ok fs ∧ (∀ f ∈ fs, f.Valid) ∧
      fs.map contents = Search.splitOn separator s.contents := by
  obtain ⟨fs, hfs, hvalid, hcontents⟩ := splitLoop_spec h hne none (s.mSize + 1) 0 0
    s.contents.length (Nat.zero_le _) (by rw [h.mSize]; omega) (.inl ⟨rfl, by omega⟩)
  refine ⟨fs, hfs, hvalid, ?_⟩
  rw [hcontents, List.drop_zero, Search.splitOn]

/-- ... or at the first ones, when there is a limit on the number of fragments. -/
theorem split_spec_of_maxTokens (h : s.Valid) {separator : ByteString} (hne : separator ≠ [])
    (cuts : ℕ) : ∃ fs, s.split separator (some (cuts + 1)) = .ok fs ∧ (∀ f ∈ fs, f.Valid) ∧
      fs.map contents = Search.splitAtMost separator cuts s.contents := by
  obtain ⟨fs, hfs, hvalid, hcontents⟩ := splitLoop_spec h hne (some (cuts + 1))
    (s.mSize + (cuts + 1) + 1) 0 0 cuts (Nat.zero_le _) (by rw [h.mSize]; omega)
    (.inr (by congr 1; omega))
  refine ⟨fs, hfs, hvalid, ?_⟩
  rw [hcontents, List.drop_zero]

theorem firstIndexNotLoop_spec (h : s.Valid) (set : ByteString) {count i : ℕ}
    (hcount : i + count = s.contents.length) :
    s.firstIndexNotLoop set count i =
      .ok (if (s.contents.drop i).all (· ∈ set) then none
        else some (i + ((s.contents.drop i).takeWhile (· ∈ set)).length)) := by
  induction count generalizing i with
  | zero => simp [firstIndexNotLoop, List.drop_eq_nil_of_le (by omega : s.contents.length ≤ i)]
  | succ count ih =>
    have hi : i < s.contents.length := by omega
    rw [firstIndexNotLoop, byteAt_spec h hi, List.drop_eq_getElem_cons hi, List.all_cons,
      List.takeWhile_cons]
    simp only [bind, Except.bind, pure, Except.pure]
    by_cases hmem : s.contents[i] ∈ set
    · rw [if_pos hmem, ih (by omega)]
      simp [hmem, Nat.add_assoc, Nat.add_comm]
    · simp [hmem]

theorem lastIndexNotLoop_spec (h : s.Valid) (set : ByteString) {count : ℕ}
    (hcount : count ≤ s.contents.length) :
    ∃ last, s.lastIndexNotLoop set 0 count = .ok last ∧
      (last.map (· + 1)).getD 0 = ((s.contents.take count).rdropWhile (· ∈ set)).length := by
  induction count with
  | zero => exact ⟨none, rfl, rfl⟩
  | succ count ih =>
    have hi : count < s.contents.length := by omega
    rw [lastIndexNotLoop, Nat.zero_add, byteAt_spec h hi]
    simp only [bind, Except.bind, pure, Except.pure, List.take_add_one, List.getElem?_eq_getElem hi,
      Option.toList_some]
    by_cases hmem : s.contents[count] ∈ set
    · rw [if_pos hmem, List.rdropWhile_concat_pos _ _ _ (by simpa using hmem)]
      exact ih (by omega)
    · rw [if_neg hmem, List.rdropWhile_concat_neg _ _ _ (by simpa using hmem)]
      exact ⟨some count, rfl, by simp; omega⟩

/-- **Trimming** drops the white space at both ends. -/
theorem trim_spec (h : s.Valid) : ∃ t, s.trim = .ok t ∧ t.Valid ∧
    t.contents = Search.trim (· ∈ whitespace) s.contents := by
  obtain ⟨last, hlast, hcount⟩ := lastIndexNotLoop_spec h whitespace le_rfl
  have hfirst := firstIndexNotLoop_spec h whitespace (Nat.zero_add s.contents.length)
  rw [List.drop_zero, Nat.zero_add] at hfirst
  rw [List.take_length] at hcount
  rw [trim, firstIndexNotOfAnyInSet, lastIndexNotOfAnyInSet, clampEnd_none h, Nat.sub_zero, hfirst,
    hlast, Search.trim_eq]
  simp only [bind, Except.bind, pure, Except.pure]
  by_cases hall : s.contents.all (· ∈ whitespace) = true
  · rw [if_pos hall]
    refine ⟨{}, rfl, valid_empty, ?_⟩
    rw [List.rdropWhile_eq_nil_iff.2 (List.all_eq_true.1 hall), List.drop_nil]
    rfl
  · rw [if_neg hall]
    obtain ⟨t, ht, hvalid, hcontents⟩ := subStream_spec h
      (s.contents.takeWhile (· ∈ whitespace)).length (some ((last.map (· + 1)).getD 0))
    refine ⟨t, ht, hvalid, ?_⟩
    have hstarts := List.rdropWhile_prefix (· ∈ whitespace) (l := s.contents)
    rw [hcontents, hcount, clampEnd_some h hstarts.length_le, ← List.drop_take,
      ← List.prefix_iff_eq_take.1 hstarts]

end MemoryStream

/-! ### Incoming packets -/

/-- The buffer of an incoming packet that is looked at. -/
def firstBuffer (incomingPacket : Packet) : Buffer := incomingPacket.buffers.headD {}

/-- The packet has a first buffer. -/
def HasBuffer (incomingPacket : Packet) : Prop :=
  incomingPacket.buffers ≠ [] ∧ (firstBuffer incomingPacket).Valid

instance : DecidablePred HasBuffer := fun _ => inferInstanceAs (Decidable (_ ∧ _))

/-- The packet has a first buffer, which may also be null with a length. -/
def HasFirstBuffer (incomingPacket : Packet) : Prop :=
  incomingPacket.buffers ≠ [] ∧
    ((firstBuffer incomingPacket).Valid ∨ (firstBuffer incomingPacket).data = none)

instance : DecidablePred HasFirstBuffer := fun _ => inferInstanceAs (Decidable (_ ∧ _))

/-- The bytes of the incoming packets. -/
def received (incomingPackets : List Packet) : ByteString :=
  MemoryStream.bytesOf (incomingPackets.map firstBuffer)

theorem received_take_append (packets : List Packet) (k : ℕ) :
    received (packets.take k) ++ received (packets.drop k) = received packets := by
  rw [received, received, ← MemoryStream.bytesOf_append, ← List.map_append, List.take_append_drop,
    received]

/-- All bytes at once. -/
theorem received_ofBytes (bs : ByteString) : received [{ buffers := [.ofBytes bs] }] = bs := by
  rw [received, List.map_singleton, MemoryStream.bytesOf_cons, MemoryStream.bytesOf_nil,
    List.append_nil]
  exact List.take_length

theorem hasBuffer_ofBytes (bs : ByteString) :
    ∀ packet ∈ [({ buffers := [.ofBytes bs] } : Packet)], HasBuffer packet :=
  List.forall_mem_singleton.2 ⟨List.cons_ne_nil _ _, le_rfl⟩

/-- What holds however the bytes are cut, if the cuts do not matter. -/
theorem forall_cuts_iff {P : List Packet → Prop} {C : Prop} {bs : ByteString}
    (h : ∀ packets, (∀ packet ∈ packets, HasBuffer packet) → received packets = bs →
      (P packets ↔ C)) :
    (∀ packets : List Packet, (∀ packet ∈ packets, HasBuffer packet) → received packets = bs →
      P packets) ↔ C := by
  constructor
  · intro hall
    have hone := hasBuffer_ofBytes bs
    exact (h _ hone (received_ofBytes bs)).1 (hall _ hone (received_ofBytes bs))
  · exact fun hC packets hpackets hreceived => (h packets hpackets hreceived).2 hC

end Maplang
