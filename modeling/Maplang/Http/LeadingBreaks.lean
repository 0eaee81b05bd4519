import Maplang.Http.Chunking

/-!
# Line breaks in front of a request

A request may be preceded by line breaks, which are to be ignored.  `createHeaderPacket` looks for
the first byte that is no line break and cuts the stream there, and then goes on with the stream
that is not cut.  So a request line behind line breaks is not the first line, or begins with them.

## Main definitions

* `Http.BreaksBefore` : line breaks, and a head behind them.
* `HttpRequestExtractor.SameRequest` : with and without the line breaks there is one New Request
  packet, and the two say the same.
* `HttpRequestExtractor.SameRequests` : the same, or there is no such packet in either case.

## Main results

* `HttpRequestExtractor.newRequests_of_block` : the New Request packets of a head, wherever its
  bytes are cut.
* `HttpRequestExtractor.sameRequest_iff` : line breaks are ignored exactly if there are none.
-/

namespace Maplang

namespace Http

/-- Line breaks, and the bytes of a head in front of its empty line.  The empty line behind the head
is the first one, with and without the line breaks. -/
structure BreaksBefore (breaks block : ByteString) : Prop where
  lineBreaks : ∀ c ∈ breaks, c ∈ crLf
  start : ∃ c rest, block = c :: rest ∧ c ∉ crLf
  alone : HttpRequestExtractor.headerBlock? (block ++ kDoubleCrLf) = some block
  behind : HttpRequestExtractor.headerBlock? (breaks ++ block ++ kDoubleCrLf) =
    some (breaks ++ block)

/-- The tokens of the first line. -/
def firstTokens (block : ByteString) : List ByteString :=
  Search.splitOn (bytes " ") ((lines block).headD [])

/-- What a New Request packet says of its method, path, version and headers. -/
def requestFields (packet : Packet) : List (Option Json) :=
  [kParameter_HttpMethod, kParameter_HttpPath, kParameter_HttpVersion, kParameter_HttpHeaders].map
    packet.parameters.find

theorem requestFields_eq (block requestId : ByteString) :
    requestFields { parameters := requestParameters block requestId } =
      [(firstTokens block)[0]?.map .string, (firstTokens block)[1]?.map .string,
        (firstTokens block)[2]?.map .string, some (requestHeaders block)] := by
  obtain ⟨hmethod, hpath, hversion, hheaders⟩ :=
    @lookup_tokens kParameter_HttpMethod kParameter_HttpPath kParameter_HttpVersion
      (requestHeaders block) (by decide) (firstTokens block)
  rw [← hmethod, ← hpath, ← hversion, ← hheaders, requestFields, requestParameters,
    headerParameters]
  simp only [List.map_cons, List.map_nil, Json.find_object, Json.lookup_setMember]
  rw [if_neg (by decide), if_neg (by decide), if_neg (by decide), if_neg (by decide)]
  rfl

/-! ### The first line -/

/-- A block that begins with a line break has an empty first line. -/
theorem firstTokens_of_crLf {block : ByteString} (h : crLf <+: block) :
    firstTokens block = [[]] := by
  rw [firstTokens, lines, Search.splitOn_of_prefix (by decide) h]
  rfl

/-- Otherwise the first line begins as the block does, and so does its first token, ... -/
theorem firstTokens_cons {c : UInt8} {rest : ByteString} (h : ¬ crLf <+: c :: rest)
    (hc : c ∉ bytes " ") : ∃ token tokens, firstTokens (c :: rest) = (c :: token) :: tokens := by
  obtain ⟨line, more, hlines⟩ := Search.splitOn_cons (by decide) h
  rw [firstTokens, lines, hlines, List.headD_cons]
  refine Search.splitOn_cons (by decide) fun hprefix => hc ?_
  exact (List.cons_prefix_cons.1 hprefix).1 ▸ List.mem_cons_self

/-- ... unless that is a space; then the first token is empty, and there is a second one. -/
theorem firstTokens_space {c : UInt8} {rest : ByteString} (h : ¬ crLf <+: c :: rest)
    (hc : c ∈ bytes " ") : ∃ token tokens, firstTokens (c :: rest) = [] :: token :: tokens := by
  obtain ⟨line, more, hlines⟩ := Search.splitOn_cons (by decide) h
  obtain rfl : c = 32 := List.mem_singleton.1 hc
  have hstart : bytes " " <+: 32 :: line := List.cons_prefix_cons.2 ⟨rfl, List.nil_prefix⟩
  rw [firstTokens, lines, hlines, List.headD_cons, Search.splitOn_of_prefix (by decide) hstart]
  obtain ⟨token, tokens, htokens⟩ :=
    List.exists_cons_of_ne_nil (Search.splitAtMost_ne_nil (bytes " ") _ _)
  exact ⟨token, tokens, congrArg _ htokens⟩

theorem crLf_not_first {c : UInt8} (hc : c ∉ crLf) (rest : ByteString) :
    ¬ crLf <+: c :: rest :=
  fun hprefix => hc ((List.cons_prefix_cons.1 hprefix).1 ▸ List.mem_cons_self)

/-- **Line breaks change the method or the path.** -/
theorem requestFields_eq_iff {breaks block : ByteString} (h : BreaksBefore breaks block)
    (requestId requestId' : ByteString) :
    requestFields { parameters := requestParameters (breaks ++ block) requestId } =
      requestFields { parameters := requestParameters block requestId' } ↔ breaks = [] := by
  refine ⟨fun hfields => by_contra fun hne => ?_, ?_⟩
  swap
  · rintro rfl
    rw [List.nil_append, requestFields_eq, requestFields_eq]
  obtain ⟨c, rest, rfl, hc⟩ := h.start
  obtain ⟨b, more, rfl⟩ := List.exists_cons_of_ne_nil hne
  have hb : b ∈ crLf := h.lineBreaks b List.mem_cons_self
  have hspace : b ∉ bytes " " := forall_mem_of_all (p := (· ∉ bytes " ")) (by decide) b hb
  rw [requestFields_eq, requestFields_eq] at hfields
  obtain ⟨hmethod, hfields⟩ := List.cons.inj hfields
  obtain ⟨hpath, -⟩ := List.cons.inj hfields
  by_cases hcrLf : crLf <+: b :: more ++ c :: rest
  · -- an empty method, and no path
    rw [firstTokens_of_crLf hcrLf] at hmethod hpath
    by_cases hcspace : c ∈ bytes " "
    · obtain ⟨token, tokens, htokens⟩ := firstTokens_space (crLf_not_first hc rest) hcspace
      rw [htokens] at hpath
      cases hpath
    · obtain ⟨token, tokens, htokens⟩ := firstTokens_cons (crLf_not_first hc rest) hcspace
      rw [htokens] at hmethod
      cases hmethod
  · -- the method begins with a line break
    rw [List.cons_append] at hcrLf hmethod
    obtain ⟨token, tokens, htokens⟩ := firstTokens_cons hcrLf hspace
    rw [htokens] at hmethod
    by_cases hcspace : c ∈ bytes " "
    · obtain ⟨token', tokens', htokens'⟩ := firstTokens_space (crLf_not_first hc rest) hcspace
      rw [htokens'] at hmethod
      cases hmethod
    · obtain ⟨token', tokens', htokens'⟩ := firstTokens_cons (crLf_not_first hc rest) hcspace
      rw [htokens'] at hmethod
      cases hmethod
      exact hc hb

end Http

open Http

namespace HttpRequestExtractor

/-- The bytes in front of the first empty line lead to a New Request packet: the search gets to the
empty line, and the last line is no content length. -/
def LeadsToRequest (block : ByteString) : Prop := 4 ≤ block.length ∧ ¬ ContentLengthLast block

instance (block : ByteString) : Decidable (LeadsToRequest block) :=
  inferInstanceAs (Decidable (_ ∧ _))

/-- **The New Request packets of a head**, wherever its bytes are cut. -/
theorem newRequests_of_block (random : ℕ → ℕ) {block : ByteString}
    (hblock : headerBlock? (block ++ kDoubleCrLf) = some block) {packets : List Packet}
    (hpackets : ∀ packet ∈ packets, HasBuffer packet)
    (hreceived : received packets = block ++ kDoubleCrLf) :
    ∃ pushes x, (construct random).run random packets = .ok (pushes, x) ∧
      newRequests pushes = if LeadsToRequest block then
        [{ parameters := requestParameters block (bytes (toString (random 0))) }] else [] := by
  obtain ⟨pushes, x, hrun, hprogress⟩ := progress_of_construct random hpackets
  rw [hreceived] at hprogress
  refine ⟨pushes, x, hrun, ?_⟩
  by_cases hlong : 4 ≤ block.length
  · rcases progress_of_block hblock hlong hprogress with
      ⟨last, -, errors⟩ | ⟨last, -, -, bodies, rfl, -⟩
    · rw [newRequests_errors errors, if_neg fun hleads => hleads.2 last]
    · rw [newRequests_body, if_pos ⟨hlong, last⟩]
  · -- the empty line begins before the fifth byte
    have hnone : ∀ n, Search.indexFrom? kDoubleCrLf (block ++ kDoubleCrLf) kDoubleCrLfLength ≠
        some n := by
      intro n hn
      have hstart := ((Search.indexFrom?_eq_some kDoubleCrLf_ne_nil).1 hn).1
      have hend := (@take_of_found _ [] _ hn).1
      rw [List.length_append, show kDoubleCrLf.length = kDoubleCrLfLength from rfl] at hend
      rw [kDoubleCrLfLength] at hstart
      omega
    rw [if_neg fun hleads => hlong hleads.1]
    cases hprogress with
    | headers gathering missing => rfl
    | failed gathering found last nonempty errors => exact absurd found (hnone _)
    | body hid hlength hsent found last passed => exact absurd found (hnone _)

/-- The runs with and without line breaks in front of the head. -/
structure TwoRuns (breaks block : ByteString) (packets packets' : List Packet) : Prop where
  head : BreaksBefore breaks block
  hasBuffer : ∀ packet ∈ packets, HasBuffer packet
  fed : received packets = breaks ++ block ++ kDoubleCrLf
  hasBuffer' : ∀ packet ∈ packets', HasBuffer packet
  fed' : received packets' = block ++ kDoubleCrLf

/-- There is one New Request packet with the line breaks and one without, and the two say the
same. -/
def SameRequest (random random' : ℕ → ℕ) (packets packets' : List Packet) : Prop :=
  ∃ pushes x pushes' x' packet packet', (construct random).run random packets = .ok (pushes, x) ∧
    (construct random').run random' packets' = .ok (pushes', x') ∧
    newRequests pushes = [packet] ∧ newRequests pushes' = [packet'] ∧
    requestFields packet = requestFields packet'

/-- The New Request packets, if there are any, say the same with the line breaks and without. -/
def SameRequests (random random' : ℕ → ℕ) (packets packets' : List Packet) : Prop :=
  ∃ pushes x pushes' x', (construct random).run random packets = .ok (pushes, x) ∧
    (construct random').run random' packets' = .ok (pushes', x') ∧
    (newRequests pushes).map requestFields = (newRequests pushes').map requestFields

section

variable {random random' : ℕ → ℕ} {breaks block : ByteString} {packets packets' : List Packet}

/-- What the two runs lead to. -/
theorem exists_runs (random random' : ℕ → ℕ) (h : TwoRuns breaks block packets packets') :
    ∃ pushes x pushes' x' request request',
      (construct random).run random packets = .ok (pushes, x) ∧
      (construct random').run random' packets' = .ok (pushes', x') ∧
      newRequests pushes = (if LeadsToRequest (breaks ++ block) then [request] else []) ∧
      newRequests pushes' = (if LeadsToRequest block then [request'] else []) ∧
      (requestFields request = requestFields request' ↔ breaks = []) := by
  obtain ⟨pushes, x, hrun, hnew⟩ := newRequests_of_block random h.head.behind h.hasBuffer h.fed
  obtain ⟨pushes', x', hrun', hnew'⟩ :=
    newRequests_of_block random' h.head.alone h.hasBuffer' h.fed'
  exact ⟨pushes, x, pushes', x', _, _, hrun, hrun', hnew, hnew', requestFields_eq_iff h.head _ _⟩

theorem sameRequest_iff_nil (h : TwoRuns breaks block packets packets') :
    SameRequest random random' packets packets' ↔ breaks = [] ∧ LeadsToRequest block := by
  obtain ⟨pushes, x, pushes', x', request, request', hrun, hrun', hnew, hnew', hfields⟩ :=
    exists_runs random random' h
  constructor
  · rintro ⟨_, _, _, _, packet, packet', hrun₁, hrun₁', hone, hone', hsame⟩
    obtain ⟨rfl, -⟩ := ok_pair_unique hrun₁ hrun
    obtain ⟨rfl, -⟩ := ok_pair_unique hrun₁' hrun'
    rw [hone] at hnew
    rw [hone'] at hnew'
    split_ifs at hnew hnew' with hleads hleads'
    obtain rfl := List.singleton_inj.1 hnew
    obtain rfl := List.singleton_inj.1 hnew'
    exact ⟨hfields.1 hsame, hleads'⟩
  · rintro ⟨rfl, hleads⟩
    rw [List.nil_append, if_pos hleads] at hnew
    rw [if_pos hleads] at hnew'
    exact ⟨_, _, _, _, _, _, hrun, hrun', hnew, hnew', hfields.2 rfl⟩

theorem sameRequests_iff_nil (h : TwoRuns breaks block packets packets') :
    SameRequests random random' packets packets' ↔ breaks = [] ∨
      ¬ LeadsToRequest block ∧ ¬ LeadsToRequest (breaks ++ block) := by
  obtain ⟨pushes, x, pushes', x', request, request', hrun, hrun', hnew, hnew', hfields⟩ :=
    exists_runs random random' h
  constructor
  · rintro ⟨_, _, _, _, hrun₁, hrun₁', hsame⟩
    obtain ⟨rfl, -⟩ := ok_pair_unique hrun₁ hrun
    obtain ⟨rfl, -⟩ := ok_pair_unique hrun₁' hrun'
    rw [hnew, hnew'] at hsame
    split_ifs at hsame with hbehind halone
    · exact .inl (hfields.1 (List.singleton_inj.1 hsame))
    · cases hsame
    · cases hsame
    · exact .inr ⟨‹_›, hbehind⟩
  · intro hcondition
    refine ⟨_, _, _, _, hrun, hrun', ?_⟩
    rw [hnew, hnew']
    rcases hcondition with rfl | ⟨halone, hbehind⟩
    · rw [List.nil_append]
      split_ifs
      · exact congrArg (fun fields => [fields]) (hfields.2 rfl)
      · rfl
    · rw [if_neg halone, if_neg hbehind]

end

/-- **Line breaks in front of a request are ignored exactly if there are none**, unless nothing is
extracted with them and without them. -/
theorem sameRequest_iff (random random' : ℕ → ℕ) {breaks block : ByteString}
    {packets packets' : List Packet} (h : TwoRuns breaks block packets packets') :
    (SameRequest random random' packets packets' ↔ breaks = [] ∧ LeadsToRequest block) ∧
    (SameRequests random random' packets packets' ↔ breaks = [] ∨
      ¬ LeadsToRequest block ∧ ¬ LeadsToRequest (breaks ++ block)) :=
  ⟨sameRequest_iff_nil h, sameRequests_iff_nil h⟩

/-- A line break in front of a request. -/
theorem twoRuns_crLf : TwoRuns crLf (bytes "GET / HTTP/1.1\r\nHost: a")
    [{ buffers := [.ofBytes (bytes "\r\nGET / HTTP/1.1\r\nHost: a\r\n\r\n")] }]
    [{ buffers := [.ofBytes (bytes "GET / HTTP/1.1\r\nHost: a\r\n\r\n")] }] where
  head := ⟨forall_mem_of_all (by decide),
    ⟨71, bytes "ET / HTTP/1.1\r\nHost: a", rfl, by decide⟩, by decide, by decide⟩
  hasBuffer := by decide
  fed := by decide
  hasBuffer' := by decide
  fed' := by decide

theorem sameRequest_iff_crLf :
    (SameRequest (fun _ => 0) (fun _ => 0)
      [{ buffers := [.ofBytes (bytes "\r\nGET / HTTP/1.1\r\nHost: a\r\n\r\n")] }]
      [{ buffers := [.ofBytes (bytes "GET / HTTP/1.1\r\nHost: a\r\n\r\n")] }] ↔
        crLf = [] ∧ LeadsToRequest (bytes "GET / HTTP/1.1\r\nHost: a")) ∧
    (SameRequests (fun _ => 0) (fun _ => 0)
      [{ buffers := [.ofBytes (bytes "\r\nGET / HTTP/1.1\r\nHost: a\r\n\r\n")] }]
      [{ buffers := [.ofBytes (bytes "GET / HTTP/1.1\r\nHost: a\r\n\r\n")] }] ↔
        crLf = [] ∨ ¬ LeadsToRequest (bytes "GET / HTTP/1.1\r\nHost: a") ∧
          ¬ LeadsToRequest (crLf ++ bytes "GET / HTTP/1.1\r\nHost: a")) :=
  sameRequest_iff _ _ twoRuns_crLf

/-- **Line breaks in front of a request are not ignored.** -/
theorem not_sameRequest : ¬ ∀ (random random' : ℕ → ℕ) (breaks block : ByteString)
    (packets packets' : List Packet), TwoRuns breaks block packets packets' →
      LeadsToRequest block → SameRequest random random' packets packets' := by
  intro h
  have hleads : LeadsToRequest (bytes "GET / HTTP/1.1\r\nHost: a") := by decide
  have hsame := h (fun _ => 0) (fun _ => 0) _ _ _ _ twoRuns_crLf hleads
  exact absurd ((sameRequest_iff_nil twoRuns_crLf).1 hsame).1 (by decide)

end HttpRequestExtractor

end Maplang
