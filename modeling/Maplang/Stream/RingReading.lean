import Maplang.Cpp.Logged
import Maplang.Machine.Service
import Maplang.Stream.RingStream

/-!
# Reading from a ring stream

`Peek` copies the bytes of a ring that is not overfull, from ranges that are all inside its buffer.
`Read` also takes them away.  `Skip` should do what `Read` does with a buffer that is thrown away,
but it moves the offset and leaves the length as it is, unless it skips all bytes.

## Main definitions

* `RingStream.PeekLogged` : `Peek`, with a log of the ranges it copies.
* `RingStream.Query`, `RingStream.query` : the calls that tell two rings apart.
* `RingStream.SkipsLikeRead` : to skip some bytes is to read them.

## Main results

* `RingStream.reading_exact` : what `Peek` and `Read` do.
* `RingStream.indistinguishable_iff` : rings with the same contents cannot be told apart.
* `RingStream.skipsLikeRead_iff` : the counts for which `Skip` does what `Read` does.
-/

namespace Maplang

namespace RingStream

variable {r r₁ r₂ : RingStream}

/-! ### The ranges that are copied -/

/-- The loop of `Peek`, with a log of the ranges it copies: where each begins, and how long it
is. -/
def peekLoopLogged (r : RingStream) : ℕ → ℕ → ℕ → Logged (ℕ × ℕ) ByteString
  | 0, _, remaining => if remaining = 0 then pure [] else .run (.error .nontermination)
  | fuel + 1, readFromOffset, remaining =>
    if remaining = 0 then pure []
    else do
      let byteCountToCopy := min (sizeSub r.mBuffer.length r.mOffset) remaining
      .tell (readFromOffset, byteCountToCopy)
      if r.mBuffer.memory.length < readFromOffset + byteCountToCopy ∨ r.mBuffer.length = 0 then
        .run (.error .undefinedBehaviour)
      else
        let copied := (r.mBuffer.memory.drop readFromOffset).take byteCountToCopy
        let rest ← peekLoopLogged r fuel
          (sizeAdd readFromOffset byteCountToCopy % r.mBuffer.length) (remaining - byteCountToCopy)
        return copied ++ rest

/-- `RingStream::Peek`, with a log. -/
def PeekLogged (r : RingStream) (bufferSize : ℕ) : Logged (ℕ × ℕ) ByteString :=
  let byteCountToRead := min r.mLength bufferSize
  r.peekLoopLogged byteCountToRead r.mOffset byteCountToRead

/-- A range is inside the buffer. -/
def InBuffer (r : RingStream) (range : ℕ × ℕ) : Prop := range.1 + range.2 ≤ r.mBuffer.length

theorem result_peekLoopLogged (r : RingStream) (fuel readFromOffset remaining : ℕ) :
    (r.peekLoopLogged fuel readFromOffset remaining).result =
      r.peekLoop fuel readFromOffset remaining := by
  induction fuel generalizing readFromOffset remaining with
  | zero =>
    rw [peekLoopLogged, peekLoop]
    split <;> rfl
  | succ fuel ih =>
    rw [peekLoopLogged, peekLoop]
    by_cases hdone : remaining = 0
    · rw [if_pos hdone, if_pos hdone]
      rfl
    rw [if_neg hdone, if_neg hdone, Logged.tell_bind]
    by_cases hrange : r.mBuffer.memory.length <
        readFromOffset + min (sizeSub r.mBuffer.length r.mOffset) remaining ∨ r.mBuffer.length = 0
    · simp only [if_pos hrange, Logged.result_run]
    · simp only [if_neg hrange, Logged.result_bind, ih]
      rfl

/-- The log does not change what `Peek` does. -/
theorem result_PeekLogged (r : RingStream) (bufferSize : ℕ) :
    (r.PeekLogged bufferSize).result = r.Peek bufferSize :=
  result_peekLoopLogged ..

/-- **No range leaves the buffer**: a range is not longer than the part of the buffer behind the
offset, and after the first one the loop is in front of the offset. -/
theorem peekLoopLogged_inBuffer (h : r.Valid) {count : ℕ} (hcount : count ≤ r.mLength) {fuel i : ℕ}
    (hi : i ≤ count) (hstart : i = 0 ∨ i = count ∨ r.mBuffer.length - r.mOffset ≤ i) :
    ∀ range ∈ (r.peekLoopLogged fuel ((r.mOffset + i) % r.mBuffer.length) (count - i)).log,
      r.InBuffer range := by
  induction fuel generalizing i with
  | zero =>
    rw [peekLoopLogged]
    split <;> exact List.forall_mem_nil _
  | succ fuel ih =>
    rw [peekLoopLogged]
    by_cases hdone : count - i = 0
    · rw [if_pos hdone]
      exact List.forall_mem_nil _
    rw [if_neg hdone, sizeSub_eq h.mOffset.le, Logged.tell_bind]
    have hcapacity := h.mOffset
    have hlength := h.mLength
    generalize hcopy : min (r.mBuffer.length - r.mOffset) (count - i) = copy
    obtain ⟨hend, hnext⟩ := h.peek_step hcount hi hstart hcopy
    rw [if_neg (by rw [h.memory]; omega), Logged.bind_pure, hnext,
      show count - i - copy = count - (i + copy) by omega]
    exact List.forall_mem_cons.2 ⟨hend, ih (by omega) (by omega)⟩

theorem PeekLogged_inBuffer (h : r.Valid) (bufferSize : ℕ) :
    ∀ range ∈ (r.PeekLogged bufferSize).log, r.InBuffer range := by
  have hranges := @peekLoopLogged_inBuffer r h _ (Nat.min_le_left r.mLength bufferSize)
    (min r.mLength bufferSize) 0 (Nat.zero_le _) (.inl rfl)
  rwa [Nat.add_zero, Nat.mod_eq_of_lt h.mOffset, Nat.sub_zero] at hranges

/-- **Reading is exact**: `Peek` copies the first bytes of the ring, from inside the buffer, and
leaves the ring as it is; `Read` takes the same bytes away. -/
theorem reading_exact (h : r.Valid) (bufferSize : ℕ) :
    r.Peek bufferSize = .ok (r.contents.take bufferSize) ∧
    (r.contents.take bufferSize).length = min bufferSize r.mLength ∧
    (r.PeekLogged bufferSize).result = r.Peek bufferSize ∧
    (∀ range ∈ (r.PeekLogged bufferSize).log, r.InBuffer range) ∧
    (∀ factory, r.step factory (.Peek bufferSize) =
      .ok ((r.contents.take bufferSize, r.mLength), r)) ∧
    ∃ r', r.Read bufferSize = .ok (r.contents.take bufferSize, r') ∧ r'.Valid ∧
      r'.mBuffer = r.mBuffer ∧ r'.contents = r.contents.drop bufferSize := by
  have hpeek := Peek_spec h bufferSize
  obtain ⟨r', hread, hvalid, hcontents⟩ := Read_spec h bufferSize
  refine ⟨hpeek, by rw [List.length_take, length_contents h], result_PeekLogged r bufferSize,
    PeekLogged_inBuffer h bufferSize, fun factory => ?_, r', hread, hvalid, Read_mBuffer hread,
    hcontents⟩
  rw [step, hpeek]
  rfl

/-- The bytes `[1, 2]` at the beginning of a buffer for four. -/
def twoOfFour : RingStream where
  mBuffer := Buffer.ofBytes [1, 2, 0, 0]
  mLength := 2

theorem valid_twoOfFour : twoOfFour.Valid := ⟨⟨rfl, by decide⟩, by decide, by decide, by decide⟩

/-- The bytes `[1, 2, 3]`, the last two of them at the beginning of the buffer. -/
def wrapped : RingStream where
  mBuffer := Buffer.ofBytes [2, 3, 0, 1]
  mOffset := 3
  mLength := 3

theorem valid_wrapped : wrapped.Valid := ⟨⟨rfl, by decide⟩, by decide, by decide, by decide⟩

/-- Three ranges of one byte are copied. -/
example : (wrapped.PeekLogged 9).log = [(3, 1), (0, 1), (1, 1)] := by decide

/-- Two bytes of a ring that wraps around. -/
theorem reading_exact_wrapped :
    wrapped.Peek 2 = .ok (wrapped.contents.take 2) ∧
    (wrapped.contents.take 2).length = min 2 wrapped.mLength ∧
    (wrapped.PeekLogged 2).result = wrapped.Peek 2 ∧
    (∀ range ∈ (wrapped.PeekLogged 2).log, wrapped.InBuffer range) ∧
    (∀ factory, wrapped.step factory (.Peek 2) =
      .ok ((wrapped.contents.take 2, wrapped.mLength), wrapped)) ∧
    ∃ r', wrapped.Read 2 = .ok (wrapped.contents.take 2, r') ∧ r'.Valid ∧
      r'.mBuffer = wrapped.mBuffer ∧ r'.contents = wrapped.contents.drop 2 :=
  reading_exact valid_wrapped 2

/-! ### Skipping -/

/-- The calls that tell something about a ring. -/
inductive Query where
  | Read (bufferSize : ℕ)
  | Peek (bufferSize : ℕ)
  | GetAvailableByteCount

/-- Make one of these calls: the bytes it copies to the caller, and the count it returns. -/
def query (r : RingStream) : Query → Code ((ByteString × ℕ) × RingStream)
  | .Read bufferSize => do
    let (copied, r) ← r.Read bufferSize
    return ((copied, copied.length), r)
  | .Peek bufferSize => do
    let copied ← r.Peek bufferSize
    return ((copied, copied.length), r)
  | .GetAvailableByteCount => .ok (([], r.GetAvailableByteCount), r)

/-- What a call tells about the bytes of a ring. -/
def queryContents (contents : ByteString) : Query → (ByteString × ℕ) × ByteString
  | .Read bufferSize =>
    ((contents.take bufferSize, (contents.take bufferSize).length), contents.drop bufferSize)
  | .Peek bufferSize =>
    ((contents.take bufferSize, (contents.take bufferSize).length), contents)
  | .GetAvailableByteCount => (([], contents.length), contents)

/-- No sequence of these calls tells two rings apart. -/
def Indistinguishable (r₁ r₂ : RingStream) : Prop := Service.Indistinguishable query r₁ r₂

/-- To skip some bytes is to read them: the same count, and rings that cannot be told apart. -/
def SkipsLikeRead (r : RingStream) (n : ℕ) : Prop :=
  ∃ copied skipped rest, r.Read n = .ok (copied, rest) ∧
    r.Skip n = .ok (copied.length, skipped) ∧ Indistinguishable skipped rest

theorem query_spec (h : r.Valid) (q : Query) : ∃ r',
    r.query q = .ok ((queryContents r.contents q).1, r') ∧ r'.Valid ∧
      r'.contents = (queryContents r.contents q).2 := by
  cases q with
  | Read bufferSize =>
    obtain ⟨r', hread, hvalid, hcontents⟩ := Read_spec h bufferSize
    refine ⟨r', ?_, hvalid, hcontents⟩
    rw [query, hread]
    rfl
  | Peek bufferSize =>
    refine ⟨r, ?_, h, rfl⟩
    rw [query, Peek_spec h]
    rfl
  | GetAvailableByteCount =>
    refine ⟨r, ?_, h, rfl⟩
    rw [query, queryContents, length_contents h]
    rfl

/-- **A ring is its bytes**: what can be found out about it are its contents, and nothing else. -/
theorem indistinguishable_iff (h₁ : r₁.Valid) (h₂ : r₂.Valid) :
    Indistinguishable r₁ r₂ ↔ r₁.contents = r₂.contents := by
  constructor
  · intro h
    -- all bytes are seen by one `Peek`
    have hpeek := h [.Peek (max r₁.mLength r₂.mLength)]
    have hall : ∀ {r : RingStream}, r.Valid → r.mLength ≤ max r₁.mLength r₂.mLength →
        Service.answers query r [.Peek (max r₁.mLength r₂.mLength)] =
          .ok [(r.contents, r.contents.length)] := by
      intro r hr hle
      rw [Service.answers, query, Peek_spec hr,
        List.take_of_length_le (by rwa [length_contents hr])]
      rfl
    rw [hall h₁ (Nat.le_max_left _ _), hall h₂ (Nat.le_max_right _ _)] at hpeek
    exact (Prod.mk.inj (List.cons.inj (Except.ok.inj hpeek)).1).1
  · exact Service.indistinguishable_of_eq (fun _ q hr => query_spec hr q) h₁ h₂

/-- All bytes are skipped, ... -/
theorem Skip_of_lt {n : ℕ} (h : r.mLength < n) :
    r.Skip n = .ok (r.mLength, { r with mOffset := 0, mLength := 0 }) := by
  rw [Skip, if_pos h]

/-- ... or the offset is moved over some of them. -/
theorem Skip_of_le (h : r.Valid) {n : ℕ} (hn : n ≤ r.mLength) :
    r.Skip n = .ok (n, { r with mOffset := (r.mOffset + n) % r.mBuffer.length }) := by
  have hcapacity := h.capacity
  rw [Skip, if_neg (by omega), if_neg (by omega),
    h.sizeAdd_eq h.mOffset.le (hn.trans h.mLength)]

/-- A ring keeps within its bounds when its offset moves. -/
theorem Valid.moveOffset (h : r.Valid) (n : ℕ) :
    Valid { r with mOffset := (r.mOffset + n) % r.mBuffer.length } where
  allocated := h.allocated
  capacity := h.capacity
  mOffset := Nat.mod_lt _ h.capacity
  mLength := h.mLength

theorem Valid.empty (h : r.Valid) : Valid { r with mOffset := 0, mLength := 0 } where
  allocated := h.allocated
  capacity := h.capacity
  mOffset := h.capacity
  mLength := Nat.zero_le _

/-- **The length is forgotten**: to skip bytes is to read them if there are none to be skipped, or
if more are to be skipped than there are. -/
theorem skipsLikeRead_iff (h : r.Valid) (n : ℕ) : SkipsLikeRead r n ↔ n = 0 ∨ r.mLength < n := by
  obtain ⟨rest, hread, hvalid, hcontents⟩ := Read_spec h n
  have hcopied : (r.contents.take n).length = min n r.mLength := by
    rw [List.length_take, length_contents h]
  constructor
  · rintro ⟨copied, skipped, rest', hread', hskip, hsame⟩
    obtain ⟨rfl, rfl⟩ := ok_pair_unique hread hread'
    by_contra hnot
    have hn : n ≤ r.mLength := by omega
    obtain ⟨-, rfl⟩ := ok_pair_unique (Skip_of_le h hn) hskip
    have heq := congrArg List.length ((indistinguishable_iff (h.moveOffset n) hvalid).1 hsame)
    rw [length_contents (h.moveOffset n), hcontents, List.length_drop, length_contents h] at heq
    change r.mLength = r.mLength - n at heq
    omega
  · rintro (rfl | hn)
    · refine ⟨_, _, rest, hread, (Skip_of_le h (Nat.zero_le _)).trans (by rw [hcopied]; rfl), ?_⟩
      rw [indistinguishable_iff (h.moveOffset 0) hvalid, hcontents, List.drop_zero, contents,
        Nat.add_zero, Nat.mod_eq_of_lt h.mOffset]
      rfl
    · refine ⟨_, _, rest, hread, (Skip_of_lt hn).trans (by rw [hcopied, Nat.min_eq_right hn.le]),
        ?_⟩
      rw [indistinguishable_iff h.empty hvalid, hcontents,
        List.drop_eq_nil_of_le (by rw [length_contents h]; exact hn.le)]
      rfl

/-- One byte more than there is. -/
theorem skipsLikeRead_iff_three :
    SkipsLikeRead twoOfFour 3 ↔ 3 = 0 ∨ twoOfFour.mLength < 3 :=
  skipsLikeRead_iff valid_twoOfFour 3

/-- One of two bytes is skipped, and two bytes are still available. -/
theorem not_skipsLikeRead :
    ¬ ∀ {r : RingStream}, r.Valid → ∀ n, SkipsLikeRead r n := by
  intro h
  obtain ⟨copied, skipped, rest, hread, hskip, hsame⟩ := h valid_twoOfFour 1
  have hreadOne : twoOfFour.Read 1 = .ok ([1], { twoOfFour with mOffset := 1, mLength := 1 }) := rfl
  have hskipOne : twoOfFour.Skip 1 = .ok (1, { twoOfFour with mOffset := 1 }) := rfl
  obtain ⟨-, rfl⟩ := ok_pair_unique hreadOne hread
  obtain ⟨-, rfl⟩ := ok_pair_unique hskipOne hskip
  have hcount := hsame [.GetAvailableByteCount]
  cases hcount

end RingStream

end Maplang
