import Maplang.Stream.Concatenation

/-!
# Splitting a memory stream is exact

`split` hands the fragments between separators to a callback, the last one with everything that is
left when there may be no more tokens.  Nothing gets lost: the fragments and the separators make up
the contents of the stream, and there are as many fragments as a scan from left to right finds
separators, and one more.

## Main definitions

* `MemoryStream.splitWith` : `split` with its callback.
* `MemoryStream.splitIntoStrings`, `MemoryStream.splitIntoMemoryStreams` : the fragments in a
  vector.
* `CutAt separator maxTokens bs fragments` : the fragments are what splitting the bytes should give.

## Main results

* `MemoryStream.splitWith_eq` : the callback gets the fragments of `split`, with consecutive
  indices.
* `MemoryStream.split_exact` : the fragments are what they should be.
-/

namespace Maplang

namespace MemoryStream

variable {σ : Type}

/-- `MemoryStream::OnFragment`, which has a state of its own and may throw.  What it returns is not
looked at. -/
abbrev OnFragment (σ : Type) := ℕ → MemoryStream → σ → Code σ

section

variable (s : MemoryStream) (separator : ByteString)

/-- `endOffset` in the loop of `split`. -/
def fragmentEnd (maxTokens : Option ℕ) (fragmentIndex startOffset : ℕ) : Code ℕ :=
  if maxTokens = some (fragmentIndex + 1) then .ok s.mSize
  else do
    let found ← s.firstIndexOf separator startOffset (some s.mSize)
    return found.getD s.mSize

/-- The loop of `split`, with its callback. -/
def splitLoopWith (onFragment : OnFragment σ) (maxTokens : Option ℕ) : ℕ → ℕ → ℕ → σ → Code σ
  | 0, _, _, _ => .error .nontermination
  | fuel + 1, fragmentIndex, startOffset, state => do
    let endOffset ← s.fragmentEnd separator maxTokens fragmentIndex startOffset
    let fragment ← s.subStream startOffset (some endOffset)
    let state ← onFragment fragmentIndex fragment state
    if endOffset = s.mSize then return state
    else
      splitLoopWith onFragment maxTokens fuel (fragmentIndex + 1) (endOffset + separator.length)
        state

/-- `MemoryStream::split`, with its callback. -/
def splitWith (onFragment : OnFragment σ) (maxTokens : Option ℕ) (state : σ) : Code σ :=
  s.splitLoopWith separator onFragment maxTokens (s.mSize + maxTokens.getD 0 + 1) 0 0 state

/-- `MemoryStream::splitIntoStrings`. -/
def splitIntoStrings (maxTokens : Option ℕ := none) : Code (List ByteString) :=
  s.splitWith separator (fun _ stream tokens => do return tokens ++ [← stream.asString])
    maxTokens []

/-- `MemoryStream::splitIntoMemoryStreams`. -/
def splitIntoMemoryStreams (maxTokens : Option ℕ := none) : Code (List MemoryStream) :=
  s.splitWith separator (fun _ stream tokens => .ok (tokens ++ [stream])) maxTokens []

end

/-! ### What the callback gets -/

/-- Fragments are handed to a callback one after the other, with consecutive indices. -/
def handFragments (onFragment : OnFragment σ) : ℕ → List MemoryStream → σ → Code σ
  | _, [], state => .ok state
  | fragmentIndex, fragment :: fragments, state => do
    handFragments onFragment (fragmentIndex + 1) fragments
      (← onFragment fragmentIndex fragment state)

section

variable {s : MemoryStream} {separator bs : ByteString}

/-- One round of the loop of `split`. -/
theorem splitLoop_succ (maxTokens : Option ℕ) (fuel fragmentIndex startOffset : ℕ) :
    s.splitLoop separator maxTokens (fuel + 1) fragmentIndex startOffset =
      (s.fragmentEnd separator maxTokens fragmentIndex startOffset).bind fun endOffset =>
        (s.subStream startOffset (some endOffset)).bind fun fragment =>
          if endOffset = s.mSize then .ok [fragment]
          else
            (s.splitLoop separator maxTokens fuel (fragmentIndex + 1)
                (endOffset + separator.length)).bind fun fragments =>
              .ok (fragment :: fragments) := by
  rw [splitLoop, fragmentEnd]
  by_cases hlast : maxTokens = some (fragmentIndex + 1)
  · rw [if_pos hlast, if_pos hlast]
    rfl
  · rw [if_neg hlast, if_neg hlast]
    cases s.firstIndexOf separator startOffset (some s.mSize) <;> rfl

theorem splitLoopWith_eq (onFragment : OnFragment σ) (maxTokens : Option ℕ)
    {fuel fragmentIndex startOffset : ℕ} {fragments : List MemoryStream}
    (h : s.splitLoop separator maxTokens fuel fragmentIndex startOffset = .ok fragments)
    (state : σ) :
    s.splitLoopWith separator onFragment maxTokens fuel fragmentIndex startOffset state =
      handFragments onFragment fragmentIndex fragments state := by
  induction fuel generalizing fragmentIndex startOffset fragments state with
  | zero => cases h
  | succ fuel ih =>
    rw [splitLoop_succ] at h
    obtain ⟨endOffset, hend, h⟩ := bind_eq_ok.1 h
    obtain ⟨fragment, hfragment, h⟩ := bind_eq_ok.1 h
    simp only [splitLoopWith, hend, bind, Except.bind, hfragment]
    by_cases hlast : endOffset = s.mSize
    · rw [if_pos hlast] at h
      cases h
      simp only [if_pos hlast]
      rfl
    · rw [if_neg hlast] at h
      simp only [if_neg hlast]
      obtain ⟨rest, hrest, h⟩ := bind_eq_ok.1 h
      cases h
      rw [handFragments]
      exact bind_congr fun state' => ih hrest state'

/-- **The callback gets the fragments of `split`**, with consecutive indices. -/
theorem splitWith_eq (onFragment : OnFragment σ) {maxTokens : Option ℕ}
    {fragments : List MemoryStream} (h : s.split separator maxTokens = .ok fragments) (state : σ) :
    s.splitWith separator onFragment maxTokens state =
      handFragments onFragment 0 fragments state :=
  splitLoopWith_eq onFragment maxTokens h state

theorem handFragments_push {α : Type} {f : MemoryStream → Code α} {g : MemoryStream → α}
    {fragments : List MemoryStream} (hf : ∀ fragment ∈ fragments, f fragment = .ok (g fragment))
    (fragmentIndex : ℕ) (tokens : List α) :
    handFragments (fun _ fragment tokens => do return tokens ++ [← f fragment]) fragmentIndex
      fragments tokens = .ok (tokens ++ fragments.map g) := by
  induction fragments generalizing fragmentIndex tokens with
  | nil => rw [List.map_nil, List.append_nil]; rfl
  | cons fragment fragments ih =>
    obtain ⟨hfragment, hfragments⟩ := List.forall_mem_cons.1 hf
    rw [handFragments, hfragment, List.map_cons, List.append_cons]
    exact ih hfragments (fragmentIndex + 1) (tokens ++ [g fragment])

/-! ### Exactness -/

/-- What splitting bytes at a separator gives, with at most so many tokens. -/
structure CutAt (separator : ByteString) (maxTokens : ℕ) (bs : ByteString)
    (fragments : List ByteString) : Prop where
  /-- Nothing gets lost, ... -/
  joined : separator.intercalate fragments = bs
  /-- ... there are no more tokens than allowed, ... -/
  length_le : fragments.length ≤ maxTokens
  /-- ... only the last one allowed may contain a separator, ... -/
  free : ∀ i < maxTokens - 1, ∀ fragment, fragments[i]? = some fragment →
    ¬ separator <:+: fragment
  /-- ... and no separator is left out. -/
  length_eq : fragments.length = min maxTokens (1 + Search.occurrences separator bs)

theorem cutAt_splitAtMost (hs : separator ≠ []) (cuts : ℕ) (bs : ByteString) :
    CutAt separator (cuts + 1) bs (Search.splitAtMost separator cuts bs) where
  joined := Search.intercalate_splitAtMost hs cuts bs
  length_le := by
    rw [Search.length_splitAtMost hs]
    exact Nat.min_le_left _ _
  free i hi fragment hfragment :=
    (Search.indexOf?_eq_none_iff_infix hs).1 (Search.indexOf?_getElem_splitAtMost hs hi hfragment)
  length_eq := Search.length_splitAtMost hs cuts bs

/-- What `split` gives; the default number of tokens is `SIZE_MAX`. -/
theorem split_cutAt (h : Built s bs) (hs : separator ≠ []) {maxTokens : Option ℕ}
    (hpos : 1 ≤ maxTokens.getD sizeMax) (hdefault : maxTokens = none → bs.length < sizeMax) :
    ∃ fragments, s.split separator maxTokens = .ok fragments ∧ (∀ f ∈ fragments, f.Valid) ∧
      CutAt separator (maxTokens.getD sizeMax) bs (fragments.map contents) := by
  obtain ⟨hvalid, rfl⟩ := h.valid
  cases maxTokens with
  | some maxTokens =>
    obtain ⟨cuts, rfl⟩ : ∃ cuts, maxTokens = cuts + 1 := Nat.exists_eq_succ_of_ne_zero
      (Nat.ne_of_gt hpos)
    obtain ⟨fragments, hsplit, hfragments, hcontents⟩ := split_spec_of_maxTokens hvalid hs cuts
    exact ⟨fragments, hsplit, hfragments, hcontents ▸ cutAt_splitAtMost hs cuts s.contents⟩
  | none =>
    obtain ⟨fragments, hsplit, hfragments, hcontents⟩ := split_spec hvalid hs
    refine ⟨fragments, hsplit, hfragments, ?_⟩
    -- there cannot be more separators than bytes
    have hfits := hdefault rfl
    have hcuts : Search.splitOn separator s.contents =
        Search.splitAtMost separator (sizeMax - 1) s.contents :=
      Search.splitAtMost_stable hs le_rfl (by omega)
    rw [hcontents, hcuts]
    exact cutAt_splitAtMost hs (sizeMax - 1) s.contents

/-- **Splitting is exact**: the callback gets the fragments between the separators, with consecutive
indices, and so do the vectors. -/
theorem split_exact (h : Built s bs) (hs : separator ≠ []) (maxTokens : Option ℕ)
    (hpos : 1 ≤ maxTokens.getD sizeMax) (hdefault : maxTokens = none → bs.length < sizeMax) :
    ∃ fragments : List MemoryStream,
      (∀ {σ : Type} (onFragment : OnFragment σ) (state : σ),
        s.splitWith separator onFragment maxTokens state =
          handFragments onFragment 0 fragments state) ∧
      CutAt separator (maxTokens.getD sizeMax) bs (fragments.map contents) ∧
      s.splitIntoStrings separator maxTokens = .ok (fragments.map contents) ∧
      s.splitIntoMemoryStreams separator maxTokens = .ok fragments := by
  obtain ⟨fragments, hsplit, hfragments, hcut⟩ := split_cutAt h hs hpos hdefault
  refine ⟨fragments, fun onFragment state => splitWith_eq onFragment hsplit state, hcut, ?_, ?_⟩
  · rw [splitIntoStrings, splitWith_eq _ hsplit]
    exact handFragments_push (fun f hf => asString_spec (hfragments f hf)) 0 []
  · rw [splitIntoMemoryStreams, splitWith_eq _ hsplit]
    have hpushed := @handFragments_push _ .ok id fragments (fun _ _ => rfl) 0 []
    rwa [List.map_id] at hpushed

end

/-- A separator that overlaps itself, at the end of a stream whose buffers it straddles. -/
theorem split_exact_overlapping :
    ∃ fragments : List MemoryStream,
      (∀ {σ : Type} (onFragment : OnFragment σ) (state : σ),
        (⟨[.ofBytes (bytes "xaa"), .ofBytes (bytes "aaa")], 6⟩ : MemoryStream).splitWith
          (bytes "aa") onFragment (some 3) state = handFragments onFragment 0 fragments state) ∧
      CutAt (bytes "aa") 3 (bytes "xaaaaa") (fragments.map contents) ∧
      (⟨[.ofBytes (bytes "xaa"), .ofBytes (bytes "aaa")], 6⟩ : MemoryStream).splitIntoStrings
        (bytes "aa") (some 3) = .ok (fragments.map contents) ∧
      (⟨[.ofBytes (bytes "xaa"), .ofBytes (bytes "aaa")], 6⟩ : MemoryStream).splitIntoMemoryStreams
        (bytes "aa") (some 3) = .ok fragments := by
  have hfirst : (Buffer.ofBytes (bytes "xaa")).Valid := by decide
  have hsecond : (Buffer.ofBytes (bytes "aaa")).Valid := by decide
  have hone : Built ⟨[.ofBytes (bytes "xaa")], 3⟩ (bytes "xaa") :=
    .append .empty hfirst (by decide) rfl
  have htwo : Built ⟨[.ofBytes (bytes "xaa"), .ofBytes (bytes "aaa")], 6⟩ (bytes "xaaaaa") :=
    .append hone hsecond (by decide) rfl
  exact split_exact htwo (by decide) (some 3) (by decide) nofun

end MemoryStream

end Maplang
