import Maplang.Stream.Bounds
import Mathlib.Order.Bounds.Basic

/-!
# Searching a stream for the bytes of a set

Four loops look for the first or the last byte that is, or is not, in a set of bytes.  Those that go
down count an unsigned index and leave by an equality, before they would step below the start
offset.

## Main definitions

* `MemoryStream.searchUp`, `MemoryStream.searchDown` : the loops.
* `MemoryStream.hits` : the indices a search looks for.
* `MemoryStream.FindsFirst`, `MemoryStream.FindsLast` : what a search is meant to give.
* `MemoryStream.TrimsEnds` : what `trim` is meant to give.
* `MemoryStream.SetSearchesExact` : both, for a set and a range.

## Main results

* `MemoryStream.searchUp_spec`, `MemoryStream.searchDown_spec` : the loops.
* `MemoryStream.firstIndexNotOfAnyInSet_eq`, `MemoryStream.lastIndexNotOfAnyInSet_eq` : the counting
  loops that `trim` is modelled with are these.
* `MemoryStream.setSearches_exact` : all four searches, and `trim`.
-/

namespace Maplang

namespace MemoryStream

/-! ### The loops -/

/-- `for (size_t i = startOffset; i < endOffset; i++)`, which returns `i` if the byte is what is
looked for. -/
def searchUp (s : MemoryStream) (found : UInt8 → Bool) (endOffset : ℕ) :
    ℕ → ℕ → Code (Option ℕ)
  | 0, _ => .error .nontermination
  | fuel + 1, i =>
    if i < endOffset then do
      if found (← s.byteAt i) then return some i
      else searchUp s found endOffset fuel (sizeAdd i 1)
    else .ok none

/-- `for (size_t i = endOffset - 1;; i--)`, which returns `i` if the byte is what is looked for, and
`kNotFound` after the start offset. -/
def searchDown (s : MemoryStream) (found : UInt8 → Bool) (startOffset : ℕ) :
    ℕ → ℕ → Code (Option ℕ)
  | 0, _ => .error .nontermination
  | fuel + 1, i => do
    if found (← s.byteAt i) then return some i
    else if i = startOffset then return none
    else searchDown s found startOffset fuel (sizeSub i 1)

/-- The searches that go up. -/
def firstIndex (s : MemoryStream) (found : UInt8 → Bool) (startOffset : ℕ)
    (endOffset : Option ℕ) : Code (Option ℕ) :=
  let endOffset := s.clampEnd endOffset
  if endOffset ≤ startOffset then .ok none
  else s.searchUp found endOffset (endOffset - startOffset + 1) startOffset

/-- The searches that go down. -/
def lastIndex (s : MemoryStream) (found : UInt8 → Bool) (startOffset : ℕ)
    (endOffset : Option ℕ) : Code (Option ℕ) :=
  let endOffset := s.clampEnd endOffset
  if endOffset ≤ startOffset then .ok none
  else s.searchDown found startOffset (endOffset - startOffset) (endOffset - 1)

/-- `MemoryStream::firstIndexOfAnyInSet`. -/
def firstIndexOfAnyInSet (s : MemoryStream) (findAnyOfTheseBytes : ByteString)
    (startOffset : ℕ := 0) (endOffset : Option ℕ := none) : Code (Option ℕ) :=
  s.firstIndex (· ∈ findAnyOfTheseBytes) startOffset endOffset

/-- `MemoryStream::lastIndexOfAnyInSet`. -/
def lastIndexOfAnyInSet (s : MemoryStream) (findAnyOfTheseBytes : ByteString)
    (startOffset : ℕ := 0) (endOffset : Option ℕ := none) : Code (Option ℕ) :=
  s.lastIndex (· ∈ findAnyOfTheseBytes) startOffset endOffset

/-! ### What a search is meant to give -/

/-- The indices from `start` on and below `stop` whose byte is what is looked for. -/
def hits (bs : ByteString) (found : UInt8 → Bool) (start stop : ℕ) : Set ℕ :=
  {i | start ≤ i ∧ i < stop ∧ ∃ byte ∈ bs[i]?, found byte = true}

/-- A search gives the least index, and `kNotFound` if there is none. -/
def FindsFirst (search : Code (Option ℕ)) (indices : Set ℕ) : Prop :=
  ∃ index, search = .ok index ∧ (index = none ↔ indices = ∅) ∧ ∀ i ∈ index, IsLeast indices i

/-- A search gives the greatest index, and `kNotFound` if there is none. -/
def FindsLast (search : Code (Option ℕ)) (indices : Set ℕ) : Prop :=
  ∃ index, search = .ok index ∧ (index = none ↔ indices = ∅) ∧ ∀ i ∈ index, IsGreatest indices i

/-- Trimming takes the longest white space off both ends, leaves nothing only of white space, and
leaves nothing to trim. -/
def TrimsEnds (s : MemoryStream) : Prop :=
  ∃ t, s.trim = .ok t ∧
    t.contents = (s.contents.dropWhile (· ∈ whitespace)).rdropWhile (· ∈ whitespace) ∧
    (t.mSize = 0 ↔ ∀ byte ∈ s.contents, byte ∈ whitespace) ∧
    ∃ u, t.trim = .ok u ∧ u.contents = t.contents

/-- All four searches give what they are meant to, in the range cut at the end of the stream, and
trimming does. -/
structure SetSearchesExact (s : MemoryStream) (bs set : ByteString) (start : ℕ)
    (endOffset : Option ℕ) : Prop where
  firstIndexOfAnyInSet : FindsFirst (s.firstIndexOfAnyInSet set start endOffset)
    (hits bs (· ∈ set) start (min (endOffset.getD s.mSize) s.mSize))
  firstIndexNotOfAnyInSet : FindsFirst (s.firstIndexNotOfAnyInSet set start endOffset)
    (hits bs (· ∉ set) start (min (endOffset.getD s.mSize) s.mSize))
  lastIndexOfAnyInSet : FindsLast (s.lastIndexOfAnyInSet set start endOffset)
    (hits bs (· ∈ set) start (min (endOffset.getD s.mSize) s.mSize))
  lastIndexNotOfAnyInSet : FindsLast (s.lastIndexNotOfAnyInSet set start endOffset)
    (hits bs (· ∉ set) start (min (endOffset.getD s.mSize) s.mSize))
  /-- The two searches of `trim` are the loops that step an index, too. -/
  loops : s.firstIndexNotOfAnyInSet set start endOffset =
      s.firstIndex (· ∉ set) start endOffset ∧
    s.lastIndexNotOfAnyInSet set start endOffset = s.lastIndex (· ∉ set) start endOffset
  trim : s.TrimsEnds

variable {s : MemoryStream} {found : UInt8 → Bool} {bs : ByteString} {start stop i : ℕ}

/-! ### The indices in a range -/

theorem hits_eq_empty (h : stop ≤ start) : hits bs found start stop = ∅ :=
  Set.eq_empty_iff_forall_notMem.2 fun i ⟨hstart, hstop, _⟩ => by omega

theorem mem_hits (hstart : start ≤ i) (hstop : i < stop) (hi : i < bs.length)
    (hfound : found bs[i] = true) : i ∈ hits bs found start stop :=
  ⟨hstart, hstop, bs[i], List.getElem?_eq_getElem hi, hfound⟩

/-- A byte that is not looked for is no hit, whatever the range. -/
theorem not_mem_hits (hi : i < bs.length) (hfound : ¬ found bs[i] = true) :
    i ∉ hits bs found start stop := by
  rintro ⟨-, -, byte, hbyte, hfound'⟩
  rw [List.getElem?_eq_getElem hi] at hbyte
  obtain rfl := Option.some.inj hbyte
  exact hfound hfound'

/-- A byte that is not looked for can be left out at the beginning of the range, ... -/
theorem hits_succ_left (hi : i < bs.length) (hfound : ¬ found bs[i] = true) :
    hits bs found i stop = hits bs found (i + 1) stop := by
  ext j
  constructor
  · intro hj
    have hne : j ≠ i := fun heq => not_mem_hits hi hfound (heq ▸ hj)
    exact ⟨by have := hj.1; omega, hj.2⟩
  · rintro ⟨hstart, hj⟩
    exact ⟨by omega, hj⟩

/-- ... and at its end. -/
theorem hits_succ_right (hi : i < bs.length) (hfound : ¬ found bs[i] = true) :
    hits bs found start (i + 1) = hits bs found start i := by
  ext j
  constructor
  · intro hj
    have hne : j ≠ i := fun heq => not_mem_hits hi hfound (heq ▸ hj)
    exact ⟨hj.1, by have := hj.2.1; omega, hj.2.2⟩
  · rintro ⟨hstart, hstop, hj⟩
    exact ⟨hstart, by omega, hj⟩

/-! ### The loops find what they look for -/

theorem findsFirst_none {indices : Set ℕ} (h : indices = ∅) : FindsFirst (.ok none) indices :=
  ⟨none, rfl, iff_of_true rfl h, by simp⟩

theorem findsFirst_some {indices : Set ℕ} (h : IsLeast indices i) :
    FindsFirst (.ok (some i)) indices :=
  ⟨some i, rfl, iff_of_false (by simp) (Set.nonempty_iff_ne_empty.1 ⟨i, h.1⟩), by simpa using h⟩

theorem findsLast_none {indices : Set ℕ} (h : indices = ∅) : FindsLast (.ok none) indices :=
  ⟨none, rfl, iff_of_true rfl h, by simp⟩

theorem findsLast_some {indices : Set ℕ} (h : IsGreatest indices i) :
    FindsLast (.ok (some i)) indices :=
  ⟨some i, rfl, iff_of_false (by simp) (Set.nonempty_iff_ne_empty.1 ⟨i, h.1⟩), by simpa using h⟩

/-- **The loop that goes up** finds the first hit from its index on. -/
theorem searchUp_spec (h : s.Valid) (hsize : s.contents.length < 2 ^ 64)
    (hstop : stop ≤ s.contents.length) {fuel : ℕ} (hfuel : stop - i < fuel) :
    FindsFirst (s.searchUp found stop fuel i) (hits s.contents found i stop) := by
  induction fuel generalizing i with
  | zero => omega
  | succ fuel ih =>
    rw [searchUp]
    by_cases hlt : i < stop
    · have hi : i < s.contents.length := by omega
      rw [if_pos hlt, byteAt_spec h hi]
      simp only [bind, Except.bind, pure, Except.pure]
      by_cases hfound : found s.contents[i] = true
      · rw [if_pos hfound]
        exact findsFirst_some ⟨mem_hits le_rfl hlt hi hfound, fun j hj => hj.1⟩
      · rw [if_neg hfound, sizeAdd_eq (by unfold sizeMax; omega), hits_succ_left hi hfound]
        exact ih (by omega)
    · rw [if_neg hlt]
      exact findsFirst_none (hits_eq_empty (by omega))

/-- **The loop that goes down** finds the last hit up to its index, which never gets below the
start offset. -/
theorem searchDown_spec (h : s.Valid) (hi : i < s.contents.length) (hstart : start ≤ i) {fuel : ℕ}
    (hfuel : i - start < fuel) :
    FindsLast (s.searchDown found start fuel i) (hits s.contents found start (i + 1)) := by
  induction fuel generalizing i with
  | zero => omega
  | succ fuel ih =>
    rw [searchDown, byteAt_spec h hi]
    simp only [bind, Except.bind, pure, Except.pure]
    by_cases hfound : found s.contents[i] = true
    · rw [if_pos hfound]
      exact findsLast_some
        ⟨mem_hits hstart (Nat.lt_succ_self i) hi hfound, fun j hj => Nat.le_of_lt_succ hj.2.1⟩
    · rw [if_neg hfound, hits_succ_right hi hfound]
      by_cases hlast : i = start
      · rw [if_pos hlast]
        exact findsLast_none (hits_eq_empty hlast.le)
      · have hnext := @ih (i - 1) (by omega) (by omega) (by omega)
        rw [Nat.sub_add_cancel (by omega)] at hnext
        rw [if_neg hlast, sizeSub_eq (by omega)]
        exact hnext

variable (found start) (endOffset : Option ℕ)

theorem firstIndex_spec (h : s.Valid) (hsize : s.contents.length < 2 ^ 64) :
    FindsFirst (s.firstIndex found start endOffset)
      (hits s.contents found start (s.clampEnd endOffset)) := by
  rw [firstIndex]
  by_cases hempty : s.clampEnd endOffset ≤ start
  · simp only [if_pos hempty]
    exact findsFirst_none (hits_eq_empty hempty)
  · simp only [if_neg hempty]
    exact searchUp_spec h hsize (clampEnd_le h endOffset) (Nat.lt_succ_self _)

theorem lastIndex_spec (h : s.Valid) :
    FindsLast (s.lastIndex found start endOffset)
      (hits s.contents found start (s.clampEnd endOffset)) := by
  have hend := clampEnd_le h endOffset
  rw [lastIndex]
  by_cases hempty : s.clampEnd endOffset ≤ start
  · simp only [if_pos hempty]
    exact findsLast_none (hits_eq_empty hempty)
  · have hsearch := @searchDown_spec s found start (s.clampEnd endOffset - 1) h (by omega)
      (by omega) (s.clampEnd endOffset - start) (by omega)
    rw [Nat.sub_add_cancel (by omega)] at hsearch
    simp only [if_neg hempty]
    exact hsearch

/-! ### The loops that count -/

theorem firstIndexNotLoop_eq (set : ByteString) {count : ℕ} (hsize : i + count < 2 ^ 64) :
    s.firstIndexNotLoop set count i = s.searchUp (· ∉ set) (i + count) (count + 1) i := by
  induction count generalizing i with
  | zero => rw [firstIndexNotLoop, searchUp, if_neg (by omega)]
  | succ count ih =>
    rw [firstIndexNotLoop, searchUp, if_pos (by omega), sizeAdd_eq (by unfold sizeMax; omega),
      ih (by omega), Nat.add_right_comm, Nat.add_assoc]
    refine congrArg (s.byteAt i).bind (funext fun byte => ?_)
    by_cases hmem : byte ∈ set
    · rw [if_pos hmem, if_neg (by simpa using hmem)]
    · rw [if_neg hmem, if_pos (by simpa using hmem)]

theorem lastIndexNotLoop_eq (set : ByteString) (count : ℕ) :
    s.lastIndexNotLoop set start (count + 1) =
      s.searchDown (· ∉ set) start (count + 1) (start + count) := by
  induction count with
  | zero =>
    rw [lastIndexNotLoop, searchDown]
    refine congrArg (s.byteAt _).bind (funext fun byte => ?_)
    by_cases hmem : byte ∈ set
    · rw [if_pos hmem, if_neg (by simpa using hmem), if_pos (Nat.add_zero start)]
      rfl
    · rw [if_neg hmem, if_pos (by simpa using hmem)]
  | succ count ih =>
    rw [lastIndexNotLoop, searchDown, ih, sizeSub_eq (by omega)]
    refine congrArg (s.byteAt _).bind (funext fun byte => ?_)
    by_cases hmem : byte ∈ set
    · rw [if_pos hmem, if_neg (by simpa using hmem), if_neg (by omega)]
      rfl
    · rw [if_neg hmem, if_pos (by simpa using hmem)]

/-- The loop that counts is the loop that goes up, ... -/
theorem firstIndexNotOfAnyInSet_eq (h : s.Valid) (hsize : s.contents.length < 2 ^ 64)
    (set : ByteString) : s.firstIndexNotOfAnyInSet set start endOffset =
      s.firstIndex (· ∉ set) start endOffset := by
  have hend := clampEnd_le h endOffset
  rw [firstIndexNotOfAnyInSet, firstIndex]
  by_cases hempty : s.clampEnd endOffset ≤ start
  · simp only [if_pos hempty, Nat.sub_eq_zero_of_le hempty]
    rfl
  · simp only [if_neg hempty]
    rw [firstIndexNotLoop_eq set (by omega), Nat.add_sub_cancel' (by omega)]

/-- ... or down. -/
theorem lastIndexNotOfAnyInSet_eq (set : ByteString) :
    s.lastIndexNotOfAnyInSet set start endOffset = s.lastIndex (· ∉ set) start endOffset := by
  rw [lastIndexNotOfAnyInSet, lastIndex]
  by_cases hempty : s.clampEnd endOffset ≤ start
  · simp only [if_pos hempty, Nat.sub_eq_zero_of_le hempty]
    rfl
  · obtain ⟨count, hcount⟩ := Nat.exists_eq_add_of_lt (Nat.lt_of_not_le hempty)
    simp only [if_neg hempty]
    rw [show s.clampEnd endOffset - start = count + 1 by omega, lastIndexNotLoop_eq,
      show s.clampEnd endOffset - 1 = start + count by omega]

/-! ### All searches, and trimming -/

/-- **Trimming** takes the white space off both ends. -/
theorem trimsEnds (h : s.Valid) : s.TrimsEnds := by
  obtain ⟨t, ht, hvalid, hcontents⟩ := trim_spec h
  obtain ⟨u, hu, -, hucontents⟩ := trim_spec hvalid
  refine ⟨t, ht, hcontents, ?_, u, hu, ?_⟩
  · rw [hvalid.mSize, List.length_eq_zero_iff, hcontents, Search.trim_eq_nil_iff]
    simp
  · rw [hucontents, hcontents, Search.trim_trim]

/-- **The searches are exact**: those that go up give the least index and those that go down the
greatest one, in the range cut at the end of the stream, and trimming takes the white space off both
ends. -/
theorem setSearches_exact (h : Built s bs) (set : ByteString) :
    SetSearchesExact s bs set start endOffset := by
  have hsize := h.length_lt
  obtain ⟨hvalid, rfl⟩ := h.valid
  have hfirst := firstIndexNotOfAnyInSet_eq start endOffset hvalid hsize set
  have hlast := @lastIndexNotOfAnyInSet_eq s start endOffset set
  refine ⟨firstIndex_spec _ start endOffset hvalid hsize, ?_,
    lastIndex_spec _ start endOffset hvalid, ?_, ⟨hfirst, hlast⟩, trimsEnds hvalid⟩
  · rw [hfirst]
    exact firstIndex_spec _ start endOffset hvalid hsize
  · rw [hlast]
    exact lastIndex_spec _ start endOffset hvalid

/-- Two bytes are looked for in a range that goes past the end. -/
theorem setSearches_exact_abc :
    SetSearchesExact ⟨[.ofBytes (bytes "abc")], 3⟩ (bytes "abc") (bytes "cb") 0 (some 5) :=
  setSearches_exact 0 (some 5) built_abc (bytes "cb")

end MemoryStream

end Maplang
