import Maplang.Http.Progress

/-!
# Requests without a content length

How the bytes of a request are cut into packets must not matter.  It does not for a header block of
four bytes or more; a shorter one is missed, because the search for the empty line starts at the
fifth byte.

## Main definitions

* `ChunkingIndependent` : what is asked of a request that is cut into given packets.

## Main results

* `chunkingIndependent_iff` : it holds exactly for header blocks of at least four bytes.
* `not_chunkingIndependent_empty` : it fails for an empty header block.
-/

namespace Maplang

open Http

namespace HttpRequestExtractor

/-- The New Request packets. -/
def newRequests (pushes : List Push) : List Packet :=
  (pushes.filter (·.channel = "New Request")).map Push.packet

/-- The bytes of the Body Data packets. -/
def bodyData (pushes : List Push) : ByteString :=
  ((pushes.filter (·.channel = "Body Data")).map fun push =>
    MemoryStream.bytesOf push.packet.buffers).flatten

/-- The header block: the bytes before the first empty line. -/
def headerBlock? (input : ByteString) : Option ByteString :=
  (Search.indexOf? kDoubleCrLf input).map input.take

/-- Chunking independence, for a header block and the packets a request arrives in. -/
structure ChunkingIndependent (random : ℕ → ℕ) (block : ByteString) (packets : List Packet) :
    Prop where
  /-- There is one New Request packet, with fields of the header block, and no Body Data packet
  comes before it. -/
  request : ∃ pushes x requestId, (construct random).run random packets = .ok (pushes, x) ∧
    newRequests pushes = [{ parameters := requestParameters block requestId }] ∧
    ∀ before push after, pushes = before ++ push :: after → push.channel = "Body Data" →
      ∃ earlier ∈ before, earlier.channel = "New Request"
  /-- At every point, the body bytes passed on are those received after the empty line. -/
  body : ∀ k, ∃ pushes x, (construct random).run random (packets.take k) = .ok (pushes, x) ∧
    bodyData pushes = (received (packets.take k)).drop (block.length + kDoubleCrLfLength)
  /-- `bodyStart - bufferSizeBeforeAppending` does not underflow, for any next buffer. -/
  noUnderflow : ∀ k pushes x, (construct random).run random (packets.take k) = .ok (pushes, x) →
    x.mSentHeaders = false → ∀ buffer mHeaderData headersEnd, buffer.Valid →
      x.mHeaderData.append buffer = .ok mHeaderData →
      mHeaderData.firstIndexOfCString kDoubleCrLf kDoubleCrLfLength = .ok (some headersEnd) →
      x.mHeaderData.mSize ≤ headersEnd + kDoubleCrLfLength

variable {requestId input : ByteString} {pushes : List Push} {x : HttpRequestExtractor}

@[simp] theorem filter_bodyPush (bodies : List Buffer) :
    (bodies.map (bodyPush requestId)).filter (·.channel = "Body Data") =
      bodies.map (bodyPush requestId) :=
  List.filter_eq_self.2 fun push hpush => by
    obtain ⟨b, -, rfl⟩ := List.mem_map.1 hpush
    rfl

@[simp] theorem filter_bodyPush_newRequest (bodies : List Buffer) :
    (bodies.map (bodyPush requestId)).filter (·.channel = "New Request") = [] :=
  List.filter_eq_nil_iff.2 fun push hpush => by
    obtain ⟨b, -, rfl⟩ := List.mem_map.1 hpush
    simp [bodyPush]

theorem bodyData_body (block : ByteString) (bodies : List Buffer) :
    bodyData (requestPush block requestId :: bodies.map (bodyPush requestId)) =
      MemoryStream.bytesOf bodies := by
  rw [bodyData, List.filter_cons_of_neg (by simp [requestPush]), filter_bodyPush, flatten_bodyPush]

theorem newRequests_body (block : ByteString) (bodies : List Buffer) :
    newRequests (requestPush block requestId :: bodies.map (bodyPush requestId)) =
      [{ parameters := requestParameters block requestId }] := by
  rw [newRequests, List.filter_cons_of_pos (by simp [requestPush]), filter_bodyPush_newRequest]
  rfl

theorem newRequests_errors (h : ∀ push ∈ pushes, push = sendErrorPacket contentLengthWhat) :
    newRequests pushes = [] := by
  rw [newRequests, List.filter_eq_nil_iff.2, List.map_nil]
  intro push hpush
  rw [h push hpush]
  decide

/-- A line that is no content length is not seen as one. -/
theorem not_contentLengthLast {block : ByteString}
    (h : ∀ line ∈ (lines block).tail, fieldName line ≠ kHttpHeaderNormalized_ContentLength) :
    ¬ ContentLengthLast block := by
  rcases lastLine_mem block with hempty | hmem
  · rw [ContentLengthLast, hempty]
    decide
  · exact h _ hmem

/-- A header block of four bytes or more is where the search from the fifth byte looks. -/
theorem indexFrom?_of_headerBlock? {block : ByteString} (h : headerBlock? input = some block)
    (hlong : 4 ≤ block.length) :
    Search.indexFrom? kDoubleCrLf input kDoubleCrLfLength = some block.length ∧
      input.take block.length = block := by
  obtain ⟨n, hn, rfl⟩ := Option.map_eq_some_iff.1 h
  have hend := Search.add_length_le kDoubleCrLf_ne_nil
    ((Search.indexOf?_eq_some kDoubleCrLf_ne_nil).1 hn).1
  have hlength : (input.take n).length = n := by
    rw [List.length_take]
    omega
  rw [hlength] at hlong ⊢
  exact ⟨Search.indexFrom?_of_le kDoubleCrLf_ne_nil hn hlong, rfl⟩

/-- What a long enough header block leads to: it fails, or all bytes after it are the body. -/
theorem progress_of_block {block : ByteString} (hblock : headerBlock? input = some block)
    (hlong : 4 ≤ block.length) (h : Progress requestId input pushes x) :
    (ContentLengthLast block ∧ x.mSentHeaders = false ∧
      ∀ push ∈ pushes, push = sendErrorPacket contentLengthWhat) ∨
    (¬ ContentLengthLast block ∧ x.mSentHeaders = true ∧ x.mRequestId = requestId ∧
      ∃ bodies, pushes = requestPush block requestId :: bodies.map (bodyPush requestId) ∧
        MemoryStream.bytesOf bodies = input.drop (block.length + kDoubleCrLfLength)) := by
  obtain ⟨hfound, htake⟩ := indexFrom?_of_headerBlock? hblock hlong
  cases h with
  | headers gathering missing =>
    rw [hfound] at missing
    cases missing
  | failed gathering found last nonempty errors =>
    obtain rfl := Option.some.inj (hfound.symm.trans found)
    rw [htake] at last
    exact .inl ⟨last, gathering.mSentHeaders, errors⟩
  | @body _ n bodies hid hlength hsent found last passed =>
    obtain rfl := Option.some.inj (hfound.symm.trans found)
    rw [htake] at last
    exact .inr ⟨last, hsent, hid, bodies, by rw [htake], passed⟩

section

variable {random : ℕ → ℕ} {block : ByteString} {packets : List Packet}

/-- At every point of a run with a long enough header block without content length, the extractor
gathers headers or passes on the body. -/
theorem progress_cases (hblock : headerBlock? (received packets) = some block)
    (hlines : ∀ line ∈ (lines block).tail, fieldName line ≠ kHttpHeaderNormalized_ContentLength)
    (hlong : 4 ≤ block.length) {k : ℕ}
    (h : Progress requestId (received (packets.take k)) pushes x) :
    (pushes = [] ∧ Gathering requestId (received (packets.take k)) x ∧
      Search.indexFrom? kDoubleCrLf (received (packets.take k)) kDoubleCrLfLength = none ∧
      (received (packets.take k)).drop (block.length + kDoubleCrLfLength) = []) ∨
    ∃ bodies, pushes = requestPush block requestId :: bodies.map (bodyPush requestId) ∧
      x.mSentHeaders = true ∧ MemoryStream.bytesOf bodies =
        (received (packets.take k)).drop (block.length + kDoubleCrLfLength) := by
  obtain ⟨hfull, htake⟩ := indexFrom?_of_headerBlock? hblock hlong
  rw [← received_take_append packets k] at hfull htake
  -- what is found at this point is the header block
  have hsame : ∀ {n : ℕ}, Search.indexFrom? kDoubleCrLf (received (packets.take k))
      kDoubleCrLfLength = some n →
      n = block.length ∧ (received (packets.take k)).take n = block := by
    intro n hn
    have hn' := Search.indexFrom?_append kDoubleCrLf_ne_nil hn (received (packets.drop k))
    obtain rfl : block.length = n := Option.some.inj (hfull.symm.trans hn')
    exact ⟨rfl, by rw [← (take_of_found (m := received (packets.drop k)) hn).2.1, htake]⟩
  cases h with
  | headers gathering missing =>
    have hlt := Search.length_lt_of_append kDoubleCrLf_ne_nil missing hfull
    exact .inl ⟨rfl, gathering, missing, List.drop_eq_nil_of_le hlt.le⟩
  | failed gathering found last nonempty errors =>
    rw [(hsame found).2] at last
    exact absurd last (not_contentLengthLast hlines)
  | @body _ n bodies hid hlength hsent found last passed =>
    obtain ⟨rfl, hn⟩ := hsame found
    exact .inr ⟨bodies, by rw [hn], hsent, passed⟩

theorem chunkingIndependent_of_long (hpackets : ∀ packet ∈ packets, HasBuffer packet)
    (hblock : headerBlock? (received packets) = some block)
    (hlines : ∀ line ∈ (lines block).tail, fieldName line ≠ kHttpHeaderNormalized_ContentLength)
    (hlong : 4 ≤ block.length) : ChunkingIndependent random block packets := by
  have hprogress : ∀ k, ∃ pushes x, (construct random).run random (packets.take k) =
      .ok (pushes, x) ∧ Progress _ (received (packets.take k)) pushes x := fun k =>
    progress_of_construct random fun packet hpacket =>
      hpackets packet (List.mem_of_mem_take hpacket)
  refine ⟨?_, fun k => ?_, fun k pushes x hrun hsent b s n hb happend hfind => ?_⟩
  -- the New Request packet
  · obtain ⟨pushes, x, hrun, h⟩ := hprogress packets.length
    obtain ⟨hfull, -⟩ := indexFrom?_of_headerBlock? hblock hlong
    rcases progress_cases hblock hlines hlong h with ⟨-, -, hmissing, -⟩ | ⟨bodies, rfl, -, -⟩
    · rw [List.take_length, hfull] at hmissing
      cases hmissing
    · rw [List.take_length] at hrun
      refine ⟨_, x, _, hrun, newRequests_body _ _, fun before push after hsplit hchannel => ?_⟩
      cases before with
      | nil =>
        obtain ⟨rfl, -⟩ := List.cons.inj hsplit
        simp [requestPush] at hchannel
      | cons earlier before =>
        obtain ⟨rfl, -⟩ := List.cons.inj hsplit
        exact ⟨requestPush block _, List.mem_cons_self, rfl⟩
  -- the body after `k` packets
  · obtain ⟨pushes, x, hrun, h⟩ := hprogress k
    refine ⟨pushes, x, hrun, ?_⟩
    rcases progress_cases hblock hlines hlong h with ⟨rfl, -, -, hnone⟩ | ⟨bodies, rfl, -, hbodies⟩
    · rw [hnone]; rfl
    · rw [bodyData_body, hbodies]
  -- the place at which the last buffer is cut
  · obtain ⟨pushes', x', hrun', h⟩ := hprogress k
    obtain ⟨rfl, rfl⟩ := ok_pair_unique hrun hrun'
    rcases progress_cases hblock hlines hlong h with
      ⟨-, hgathering, hmissing, -⟩ | ⟨-, -, hsent', -⟩
    · obtain ⟨s', hs', hgathering'⟩ := hgathering.append hb
      obtain rfl := Except.ok.inj (happend.symm.trans hs')
      rw [firstIndexOfCString_spec hgathering'.mHeaderData, hgathering'.contents] at hfind
      exact mSize_le_of_found hgathering hmissing (Except.ok.inj hfind)
    · rw [hsent] at hsent'
      cases hsent'

theorem long_of_chunkingIndependent (hpackets : ∀ packet ∈ packets, HasBuffer packet)
    (h : ChunkingIndependent random block packets) : 4 ≤ block.length := by
  obtain ⟨pushes, x, hrun, hprogress⟩ := progress_of_construct random hpackets
  obtain ⟨pushes', x', requestId, hrun', hrequests, -⟩ := h.request
  obtain ⟨rfl, rfl⟩ := ok_pair_unique hrun' hrun
  cases hprogress with
  | headers gathering missing => cases hrequests
  | failed gathering found last nonempty errors =>
    rw [newRequests_errors errors] at hrequests
    cases hrequests
  | @body _ n bodies hid hlength hsent found last passed =>
    obtain ⟨pushes'', x'', hrun'', hbody⟩ := h.body packets.length
    rw [List.take_length] at hrun'' hbody
    obtain ⟨rfl, rfl⟩ := ok_pair_unique hrun hrun''
    -- the body starts after an empty line from the fifth byte on, and is the one asked for
    have hstart : 4 ≤ n := ((Search.indexFrom?_eq_some kDoubleCrLf_ne_nil).1 found).1
    have hend := (take_of_found (m := []) found).1
    have hlengths := congrArg List.length hbody
    rw [bodyData_body, passed, List.length_drop, List.length_drop] at hlengths
    omega

end

/-- **Chunking independence holds exactly for header blocks of at least four bytes**, whatever the
cuts: here for a header block without a content length line. -/
theorem chunkingIndependent_iff (random : ℕ → ℕ) (block : ByteString) (packets : List Packet)
    (hpackets : ∀ packet ∈ packets, HasBuffer packet)
    (hblock : headerBlock? (received packets) = some block)
    (hlines : ∀ line ∈ (lines block).tail, fieldName line ≠ kHttpHeaderNormalized_ContentLength) :
    ChunkingIndependent random block packets ↔ 4 ≤ block.length :=
  ⟨long_of_chunkingIndependent hpackets, chunkingIndependent_of_long hpackets hblock hlines⟩

/-- A request whose empty line is cut in two. -/
theorem chunkingIndependent_cut : ChunkingIndependent (fun _ => 0) (bytes "GET / HTTP/1.1\r\nA: b")
    [{ buffers := [.ofBytes (bytes "GET / HTTP/1.1\r\nA: b\r\n")] },
      { buffers := [.ofBytes (bytes "\r\nHi")] }] :=
  (chunkingIndependent_iff _ _ _ (by decide) (by decide) (by decide)).2 (by decide)

/-- **An empty header block is missed.** -/
theorem not_chunkingIndependent_empty :
    let packets : List Packet := [{ buffers := [.ofBytes (bytes "\r\n\r\nHi")] }]
    (∀ packet ∈ packets, HasBuffer packet) ∧ headerBlock? (received packets) = some [] ∧
      (∀ line ∈ (lines []).tail, fieldName line ≠ kHttpHeaderNormalized_ContentLength) ∧
      ¬ ChunkingIndependent (fun _ => 0) [] packets := by
  intro packets
  have hpackets : ∀ packet ∈ packets, HasBuffer packet := by decide
  exact ⟨hpackets, by decide, by decide,
    fun h => absurd (long_of_chunkingIndependent hpackets h) (by decide)⟩

end HttpRequestExtractor

end Maplang
