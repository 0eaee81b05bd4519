import Maplang.Stream.Concatenation

/-!
# Searching and reading a part of a memory stream

`firstIndexOf` looks for a string of bytes between two offsets.  It looks for the first byte there
and compares the rest with what follows, which may lie behind the end.  So it finds what begins
between the offsets, while a search of the substream finds what also ends there.

`read` copies bytes between two offsets that are clamped with sums that may wrap around.

## Main definitions

* `MemoryStream.SearchesWindow` : the search agrees with a search of the substream.
* `MemoryStream.Straddles` : the first occurrence begins before the end, and ends behind it.
* `MemoryStream.bigEndian` : the number that bytes stand for.

## Main results

* `MemoryStream.searchesWindow_iff` : the search agrees with a search of the substream exactly if
  the first occurrence does not straddle the end.
* `MemoryStream.read_spec` : `read` copies the bytes that are there, whatever the arguments are.
* `MemoryStream.readBigEndian_spec`, `MemoryStream.readBigEndian_short` : a number is read where its
  bytes are there, and nowhere else.
-/

namespace Maplang

namespace MemoryStream

variable {s : MemoryStream} {bs : ByteString}

/-! ### Searching -/

/-- The search between two offsets agrees with a search of the substream between them. -/
def SearchesWindow (s : MemoryStream) (needle : ByteString) (startOffset : ℕ)
    (endOffset : Option ℕ) : Prop :=
  ∃ window, s.subStream startOffset endOffset = .ok window ∧
    s.firstIndexOf needle startOffset endOffset =
      .ok ((Search.indexOf? needle window.contents).map (startOffset + ·))

/-- The first occurrence from the start on begins before the end, and ends behind it. -/
def Straddles (needle bs : ByteString) (startOffset endOffset : ℕ) : Prop :=
  ∃ i, Search.indexFrom? needle bs startOffset = some i ∧ i < endOffset ∧
    endOffset < i + needle.length

/-- A search of the substream finds the first occurrence if that ends before the end. -/
theorem subStream_indexOf? (h : s.Valid) {needle : ByteString} (hne : needle ≠ [])
    (startOffset : ℕ) (endOffset : Option ℕ) :
    ∃ window, s.subStream startOffset endOffset = .ok window ∧
      (Search.indexOf? needle window.contents).map (startOffset + ·) =
        (Search.indexFrom? needle s.contents startOffset).filter
          (· + needle.length ≤ s.clampEnd endOffset) := by
  obtain ⟨window, hwindow, -, hcontents⟩ := subStream_spec h startOffset endOffset
  refine ⟨window, hwindow, ?_⟩
  rw [hcontents, ← List.drop_take, ← Search.indexFrom?_take hne]
  rfl

/-- One byte is never cut off. -/
theorem firstIndexOfByte_eq (h : s.Valid) (findThis : UInt8) (startOffset : ℕ)
    (endOffset : Option ℕ) :
    s.firstIndexOfByte findThis startOffset endOffset =
      s.firstIndexOf [findThis] startOffset endOffset := by
  rw [firstIndexOfByte_spec h, firstIndexOf_eq h (List.cons_ne_nil _ _)]

/-- **The search agrees with a search of the substream** exactly if the first occurrence does not
straddle the end; the two searches for one byte agree. -/
theorem searchesWindow_iff (h : Built s bs) {needle : ByteString} (hne : needle ≠ [])
    (startOffset : ℕ) (endOffset : Option ℕ) :
    (SearchesWindow s needle startOffset endOffset ↔
      ¬ Straddles needle bs startOffset (min (endOffset.getD bs.length) bs.length)) ∧
    ∀ byte, s.firstIndexOfByte byte startOffset endOffset =
      s.firstIndexOf [byte] startOffset endOffset := by
  obtain ⟨hvalid, rfl⟩ := h.valid
  refine ⟨?_, fun byte => firstIndexOfByte_eq hvalid byte startOffset endOffset⟩
  have hclamp : s.clampEnd endOffset = min (endOffset.getD s.contents.length) s.contents.length :=
    by rw [clampEnd, hvalid.mSize]
  rw [← hclamp]
  generalize hstop : s.clampEnd endOffset = stop
  have hpos := List.length_pos_iff.2 hne
  obtain ⟨window, hwindow, hfound⟩ := subStream_indexOf? hvalid hne startOffset endOffset
  have hsearch := firstIndexOf_eq hvalid hne startOffset endOffset
  rw [hstop] at hfound hsearch
  constructor
  · rintro ⟨window', hwindow', heq⟩ ⟨i, hi, hbegins, hends⟩
    obtain rfl := Except.ok.inj (hwindow'.symm.trans hwindow)
    -- the search finds the occurrence, the substream does not have it
    rw [hsearch, hfound, hi, Option.filter_some, Option.filter_some,
      if_pos (decide_eq_true hbegins), if_neg (by rw [decide_eq_true_eq]; omega)] at heq
    cases heq
  · intro hinside
    refine ⟨window, hwindow, hsearch.trans ?_⟩
    rw [hfound]
    cases hi : Search.indexFrom? needle s.contents startOffset with
    | none => rfl
    | some i =>
      have hsame : i < stop ↔ i + needle.length ≤ stop :=
        ⟨fun hbegins => Nat.le_of_not_lt fun hends => hinside ⟨i, hi, hbegins, hends⟩,
          fun hends => by omega⟩
      rw [Option.filter_some, Option.filter_some, decide_eq_decide.2 hsame]

theorem built_abc : Built ⟨[.ofBytes (bytes "abc")], 3⟩ (bytes "abc") :=
  .append .empty (by decide : (Buffer.ofBytes (bytes "abc")).Valid) (by decide) rfl

/-- A needle that ends where the window does. -/
theorem searchesWindow_iff_abc :
    (SearchesWindow ⟨[.ofBytes (bytes "abc")], 3⟩ (bytes "ab") 0 (some 2) ↔
      ¬ Straddles (bytes "ab") (bytes "abc") 0 2) ∧
    ∀ byte, (⟨[.ofBytes (bytes "abc")], 3⟩ : MemoryStream).firstIndexOfByte byte 0 (some 2) =
      (⟨[.ofBytes (bytes "abc")], 3⟩ : MemoryStream).firstIndexOf [byte] 0 (some 2) :=
  searchesWindow_iff built_abc (by decide) 0 (some 2)

/-- The search finds what ends behind the window. -/
theorem not_searchesWindow :
    ¬ ∀ (s : MemoryStream) (bs needle : ByteString) (startOffset : ℕ) (endOffset : Option ℕ),
      Built s bs → needle ≠ [] → SearchesWindow s needle startOffset endOffset := by
  intro h
  obtain ⟨window, hwindow, hfound⟩ := h _ _ (bytes "bc") 0 (some 2) built_abc (by decide)
  cases hwindow
  exact absurd hfound (by decide)

/-! ### Reading -/

/-- The buffers are copied one behind the other. -/
theorem copyBuffers_spec {buffers : List Buffer} (hbuffers : ∀ b ∈ buffers, Piece b)
    {readByteCount : ℕ} {memory : List UInt8}
    (hfits : readByteCount + (bytesOf buffers).length ≤ memory.length) :
    copyBuffers readByteCount memory buffers =
      .ok (readByteCount + (bytesOf buffers).length, memory.take readByteCount ++
        bytesOf buffers ++ memory.drop (readByteCount + (bytesOf buffers).length)) := by
  induction buffers generalizing readByteCount memory with
  | nil => simp [copyBuffers]
  | cons b bs ih =>
    obtain ⟨hb, hbs⟩ := List.forall_mem_cons.1 hbuffers
    have hlength := Buffer.length_contents hb.1
    rw [bytesOf_cons, List.length_append, hlength] at hfits ⊢
    have hcopied : (memory.take readByteCount ++ b.contents).length =
        readByteCount + b.length := by
      rw [List.length_append, List.length_take, hlength]
      omega
    have hvalid : b.length ≤ b.memory.length := hb.1
    rw [copyBuffers, memcpy, if_neg (by omega), ← Buffer.contents]
    refine (ih hbs ?_).trans ?_
    · rw [List.length_append, hcopied, List.length_drop]
      omega
    · rw [← hcopied, List.take_left, List.drop_append, Nat.add_sub_cancel_left, List.drop_drop,
        List.drop_of_length_le (Nat.le_add_right _ _), List.nil_append, hcopied]
      simp only [List.append_assoc, Nat.add_assoc]

/-- The clamped sums of `read`: the wraps cancel. -/
theorem clamped_eq {size streamOffset numberOfBytesToRead bufferLength : ℕ}
    (hoffset : streamOffset < 2 ^ 64) (hsize : size < 2 ^ 64)
    (hnumber : numberOfBytesToRead < 2 ^ 64)
    (hfits : streamOffset + numberOfBytesToRead < 2 ^ 64 ∨ size + bufferLength < 2 ^ 64) :
    min (sizeAdd streamOffset (min
      (if size < sizeAdd streamOffset numberOfBytesToRead then sizeSub size streamOffset
        else numberOfBytesToRead) bufferLength)) size - streamOffset =
      min numberOfBytesToRead (min bufferLength (size - streamOffset)) := by
  unfold sizeAdd sizeSub
  rcases Nat.le_total size streamOffset with hbehind | hinside
  · -- nothing is there, and whatever the sum is, it is clamped
    omega
  · rw [if_pos hinside]
    rcases Nat.lt_or_ge (streamOffset + numberOfBytesToRead) (2 ^ 64) with hsum | hwrap
    · rw [Nat.mod_eq_of_lt hsum]
      split_ifs
      · rw [Nat.mod_eq_of_lt (by omega)]
        omega
      · rw [Nat.mod_eq_of_lt (by omega)]
        omega
    · -- the sum is smaller than the offset; then the number is larger than the buffer
      have hsum : (streamOffset + numberOfBytesToRead) % 2 ^ 64 =
          streamOffset + numberOfBytesToRead - 2 ^ 64 := by omega
      rw [hsum, if_neg (by omega), Nat.min_eq_right (by omega : bufferLength ≤ numberOfBytesToRead),
        Nat.mod_eq_of_lt (by omega)]
      omega

theorem read_eq (h : s.Valid) {streamOffset numberOfBytesToRead bufferLength n : ℕ}
    (hoffset : streamOffset < 2 ^ 64) (hsize : s.mSize < 2 ^ 64)
    (hnumber : numberOfBytesToRead < 2 ^ 64)
    (hfits : streamOffset + numberOfBytesToRead < 2 ^ 64 ∨ s.mSize + bufferLength < 2 ^ 64)
    {copyToBuffer : List UInt8} (hbuffer : bufferLength ≤ copyToBuffer.length)
    (hn : n = min numberOfBytesToRead (min bufferLength (s.mSize - streamOffset))) :
    s.read streamOffset numberOfBytesToRead copyToBuffer bufferLength =
      .ok (n, (s.contents.drop streamOffset).take n ++ copyToBuffer.drop n) := by
  obtain ⟨buffers, hvisited, hpieces, hbytes⟩ := visitBuffers_spec h streamOffset
    (some (sizeAdd streamOffset (min (if s.mSize < sizeAdd streamOffset numberOfBytesToRead
      then sizeSub s.mSize streamOffset else numberOfBytesToRead) bufferLength)))
  rw [clampEnd, Option.getD_some, clamped_eq hoffset hsize hnumber hfits, ← hn] at hbytes
  have hlength : (bytesOf buffers).length = n := by
    rw [hbytes, List.length_take, List.length_drop, ← h.mSize]
    omega
  have hcopied := @copyBuffers_spec buffers hpieces 0 copyToBuffer (by omega)
  rw [Nat.zero_add, List.take_zero, List.nil_append, hlength, hbytes] at hcopied
  rw [read, hvisited]
  exact hcopied

/-- **`read` copies exactly the bytes that are there**, as many as asked for and fit, whatever the
arguments are, and writes nothing behind them. -/
theorem read_spec (h : Built s bs) {streamOffset numberOfBytesToRead bufferLength n : ℕ}
    (hoffset : streamOffset < 2 ^ 64) (hnumber : numberOfBytesToRead < 2 ^ 64)
    (hfits : s.mSize + bufferLength < 2 ^ 64) {copyToBuffer : List UInt8}
    (hbuffer : bufferLength ≤ copyToBuffer.length)
    (hn : n = min numberOfBytesToRead (min bufferLength (s.mSize - streamOffset))) :
    ∃ copied, s.read streamOffset numberOfBytesToRead copyToBuffer bufferLength = .ok (n, copied) ∧
      copied.take n = (bs.take (streamOffset + n)).drop streamOffset ∧
      copied.drop n = copyToBuffer.drop n ∧
      copied.drop bufferLength = copyToBuffer.drop bufferLength := by
  obtain ⟨hvalid, rfl⟩ := h.valid
  have hslice : ((s.contents.drop streamOffset).take n).length = n := by
    rw [List.length_take, List.length_drop, ← hvalid.mSize]
    omega
  have hrest : ((s.contents.drop streamOffset).take n ++ copyToBuffer.drop n).drop n =
      copyToBuffer.drop n := List.drop_left' hslice
  refine ⟨_, read_eq hvalid hoffset (by omega) hnumber (.inr hfits) hbuffer hn, ?_, hrest, ?_⟩
  · rw [List.take_left' hslice, List.drop_take, Nat.add_sub_cancel_left]
  · -- nothing is written from `n` on, which is not behind `bufferLength`
    have hle : n + (bufferLength - n) = bufferLength := by omega
    rw [← hle, ← List.drop_drop, hrest, List.drop_drop]

/-- All but the first byte, with a sum that wraps around to zero. -/
theorem read_spec_wrap :
    ∃ copied, (⟨[.ofBytes (bytes "abc")], 3⟩ : MemoryStream).read 1 sizeMax [0, 0, 0, 0] 4 =
        .ok (2, copied) ∧
      copied.take 2 = ((bytes "abc").take (1 + 2)).drop 1 ∧
      copied.drop 2 = ([0, 0, 0, 0] : List UInt8).drop 2 ∧
      copied.drop 4 = ([0, 0, 0, 0] : List UInt8).drop 4 :=
  read_spec built_abc (by decide) (by decide) (by decide) (by decide) (by decide)

/-! ### Numbers -/

/-- The number that bytes stand for, the most significant one first. -/
def bigEndian (bs : ByteString) : ℕ :=
  bs.foldl (fun value byte => value * 2 ^ 8 % 2 ^ 64 + byte.toNat) 0

theorem bigEndian_lt (bs : ByteString) : bigEndian bs < 2 ^ 64 := by
  rcases List.eq_nil_or_concat bs with rfl | ⟨bs, byte, rfl⟩
  · decide
  · have hbyte := byte.toNat_lt
    rw [bigEndian, List.concat_eq_append, List.foldl_concat]
    -- the shifted value is a multiple of `2 ^ 8`
    omega

theorem readBigEndian_spec (h : s.Valid) (hsize : s.contents.length < 2 ^ 64) {streamOffset : ℕ}
    (hinside : streamOffset + 8 ≤ s.contents.length) :
    s.readBigEndian streamOffset = .ok (bigEndian ((s.contents.drop streamOffset).take 8)) := by
  have hmSize := h.mSize
  have hread : s.read streamOffset 8 (List.replicate 8 0) 8 =
      .ok (8, (s.contents.drop streamOffset).take 8 ++ (List.replicate 8 0).drop 8) :=
    read_eq h (by omega) (by omega) (by decide) (.inl (by omega)) (by simp) (by omega)
  rw [readBigEndian, if_neg (by rw [sizeAdd]; omega), hread]
  simp only [bind, Except.bind, List.drop_replicate, Nat.sub_self, List.replicate_zero,
    List.append_nil, lt_self_iff_false, if_false]
  rfl

theorem readBigEndian_short {streamOffset : ℕ} (hoffset : streamOffset + 8 < 2 ^ 64)
    (hshort : s.mSize < streamOffset + 8) :
    ∃ what, s.readBigEndian streamOffset = .error (.exception what) :=
  ⟨_, by rw [readBigEndian, if_pos (by rw [sizeAdd]; omega), throwRuntimeError]⟩

end MemoryStream

end Maplang
