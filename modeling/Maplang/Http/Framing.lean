import Maplang.Http.Chunking
import Mathlib.Tactic.MkIffOfInductiveProp

/-!
# Requests with a content length

On a connection that carries one request after the other, the content length says where a request
ends.  The extractor never keeps it: a content length on the last header line makes it fail, and
one on another line is not looked at.

## Main definitions

* `Http.Request`, `Http.Request.encode` : a request, and its bytes.
* `ContentLengthFramed` : what is asked of a sequence of requests.

## Main results

* `progress_of_request` : what the first request leads to.
* `contentLengthFramed_iff` : the only sequences that are framed are the empty one and, once the
  extractor is destroyed, a single request whose content length is not the last header.
* `not_contentLengthFramed_oneByte` : a request with a content length and one body byte fails.
-/

namespace Maplang

namespace Http

/-- A request: its first line, its headers and its body. -/
structure Request where
  requestLine : ByteString
  /-- The names, and what follows the colons. -/
  headers : List (ByteString × ByteString)
  body : ByteString

/-- The line of a header. -/
def headerLine (header : ByteString × ByteString) : ByteString := header.1 ++ bytes ":" ++ header.2

/-- The header is a content length. -/
def IsContentLength (header : ByteString × ByteString) : Prop :=
  toLower header.1 = kHttpHeaderNormalized_ContentLength

instance : DecidablePred IsContentLength := fun _ => inferInstanceAs (Decidable (_ = _))

namespace Request

/-- The header block of a request. -/
def block (request : Request) : ByteString :=
  crLf.intercalate (request.requestLine :: request.headers.map headerLine)

/-- The bytes of a request. -/
def encode (request : Request) : ByteString := request.block ++ (kDoubleCrLf ++ request.body)

/-- No line is empty or has a line break inside, names are free of white space and colons, and the
content length is the length of the body. -/
@[mk_iff]
structure WellFormed (request : Request) : Prop where
  requestLine : request.requestLine ≠ [] ∧ ∀ c ∈ request.requestLine, c ∉ crLf
  headers : ∀ header ∈ request.headers,
    (∀ c ∈ header.1, c ∉ bytes ": \r\n\t") ∧ ∀ c ∈ header.2, c ∉ crLf
  contentLength : (∃ header ∈ request.headers, IsContentLength header) ∧
    ∀ header ∈ request.headers, IsContentLength header →
      Search.trim (· ∈ MemoryStream.whitespace) header.2 = bytes (toString request.body.length)

/-- The last header line is the content length. -/
def ContentLengthLast (request : Request) : Prop :=
  ∃ header ∈ request.headers.getLast?, IsContentLength header

/-- Well-formedness is checked byte by byte. -/
instance (request : Request) : Decidable request.WellFormed :=
  decidable_of_iff
    ((request.requestLine ≠ [] ∧ request.requestLine.all (· ∉ crLf)) ∧
      (request.headers.all fun header =>
        header.1.all (· ∉ bytes ": \r\n\t") ∧ header.2.all (· ∉ crLf)) ∧
      request.headers.any IsContentLength ∧
      request.headers.all fun header => IsContentLength header →
        Search.trim (· ∈ MemoryStream.whitespace) header.2 = bytes (toString request.body.length))
    (by simp [wellFormed_iff, ← imp_iff_not_or])

instance (request : Request) : Decidable request.ContentLengthLast :=
  inferInstanceAs (Decidable (∃ header ∈ request.headers.getLast?, IsContentLength header))

end Request

/-! ### The bytes of a request -/

theorem crLf_eq : crLf = [13, 10] := by decide

theorem kDoubleCrLf_eq : kDoubleCrLf = [13, 10, 13, 10] := by decide

/-- A line break before a line that is not empty is no empty line. -/
theorem indexOf?_crLf_append {c : UInt8} (hc : c ≠ 13) (xs : ByteString) :
    Search.indexOf? kDoubleCrLf (crLf ++ c :: xs) =
      (Search.indexOf? kDoubleCrLf (c :: xs)).map (2 + ·) := by
  have hfirst : ¬ kDoubleCrLf <+: 13 :: 10 :: c :: xs := by
    rw [kDoubleCrLf_eq]
    simp [List.cons_prefix_cons, hc.symm]
  rw [crLf_eq, List.cons_append, List.cons_append, List.nil_append, Search.indexOf?, if_neg hfirst,
    kDoubleCrLf_eq, Search.indexOf?_cons_of_ne (by decide), Option.map_map]
  congr 1
  funext n
  simp only [Function.comp_apply]
  omega

/-- **The first empty line of a request ends its header block.** -/
theorem indexOf?_kDoubleCrLf {lines : List ByteString} (hne : lines ≠ [])
    (h : ∀ line ∈ lines, line ≠ [] ∧ 13 ∉ line) (rest : ByteString) :
    Search.indexOf? kDoubleCrLf (crLf.intercalate lines ++ (kDoubleCrLf ++ rest)) =
      some (crLf.intercalate lines).length := by
  have hskip : ∀ line ∈ lines, ∀ ys : ByteString, Search.indexOf? kDoubleCrLf (line ++ ys) =
      (Search.indexOf? kDoubleCrLf ys).map (line.length + ·) := fun line hline ys => by
    rw [kDoubleCrLf_eq]
    exact Search.indexOf?_append_of_notMem (h line hline).2 ys
  induction lines with
  | nil => exact absurd rfl hne
  | cons line lines ih =>
    cases lines with
    | nil =>
      have hsingle : crLf.intercalate [line] = line := by simp [List.intercalate]
      have hhere : Search.indexOf? kDoubleCrLf (kDoubleCrLf ++ rest) = some 0 :=
        (Search.indexOf?_eq_some HttpRequestExtractor.kDoubleCrLf_ne_nil).2
          ⟨List.prefix_append _ _, fun i hi => absurd hi (Nat.not_lt_zero i)⟩
      rw [hsingle, hskip line (by simp), hhere]
      rfl
    | cons line' lines =>
      -- the next line starts with a byte that is no carriage return
      obtain ⟨c, cs, hcs⟩ := List.exists_cons_of_ne_nil (h line' (by simp)).1
      have hc : c ≠ 13 := by
        rintro rfl
        exact (h line' (by simp)).2 (by rw [hcs]; simp)
      have hstart : ∃ xs, crLf.intercalate (line' :: lines) ++ (kDoubleCrLf ++ rest) = c :: xs := by
        cases lines with
        | nil => exact ⟨cs ++ (kDoubleCrLf ++ rest), by simp [List.intercalate, hcs]⟩
        | cons line'' lines =>
          rw [List.intercalate_cons_cons, hcs]
          exact ⟨_, rfl⟩
      obtain ⟨xs, hxs⟩ := hstart
      have hrest := ih (List.cons_ne_nil _ _) (fun l hl => h l (by simp [hl]))
        fun l hl => hskip l (by simp [hl])
      rw [List.intercalate_cons_cons, List.append_assoc, List.append_assoc, hskip line (by simp),
        hxs, indexOf?_crLf_append hc, ← hxs, hrest]
      simp [crLf_eq]
      omega

namespace Request

variable {request : Request}

/-- No line of the header block is empty, and none has a line break inside. -/
def HasLines (request : Request) : Prop :=
  ∀ line ∈ request.requestLine :: request.headers.map headerLine, line ≠ [] ∧ 13 ∉ line

theorem WellFormed.lines (h : request.WellFormed) : request.HasLines := by
  intro line hline
  rcases List.mem_cons.1 hline with rfl | hline
  · exact ⟨h.requestLine.1, fun hmem => h.requestLine.2 13 hmem (by decide)⟩
  · obtain ⟨header, hheader, rfl⟩ := List.mem_map.1 hline
    obtain ⟨hname, hvalue⟩ := h.headers header hheader
    refine ⟨by simp [headerLine, bytes], fun hmem => ?_⟩
    simp only [headerLine, List.mem_append] at hmem
    rcases hmem with (hmem | hmem) | hmem
    · exact hname 13 hmem (by decide)
    · exact absurd hmem (by decide)
    · exact hvalue 13 hmem (by decide)

/-- The lines of the header block are those of the request. -/
theorem lines_block (h : request.HasLines) :
    Http.lines request.block = request.requestLine :: request.headers.map headerLine := by
  rw [Http.lines, block, crLf_eq]
  exact Search.splitOn_intercalate (List.cons_ne_nil _ _) fun line hline => (h line hline).2

/-- The last header line, if there is a header. -/
theorem lastLine_block (h : request.HasLines) {last : ByteString × ByteString}
    (hlast : request.headers.getLast? = some last) :
    lastLine request.block = headerLine last := by
  rw [lastLine, lines_block h, List.tail_cons, List.getLastD_eq_getLast?, List.getLast?_map, hlast]
  rfl

/-- A header line is cut at the first colon. -/
theorem splitAtMost_headerLine {header : ByteString × ByteString}
    (hcolon : (58 : UInt8) ∉ header.1) :
    Search.splitAtMost (bytes ":") 1 (headerLine header) = [header.1, header.2] := by
  rw [headerLine, show bytes ":" = [58] by decide, List.append_assoc, List.singleton_append,
    Search.splitAtMost_one_append hcolon]

theorem fieldName_headerLine {header : ByteString × ByteString} (hcolon : (58 : UInt8) ∉ header.1) :
    fieldName (headerLine header) =
      toLower (Search.trim (· ∈ MemoryStream.whitespace) header.1) := by
  rw [fieldName, splitAtMost_headerLine hcolon, List.headD_cons]

theorem fieldValue_headerLine {header : ByteString × ByteString}
    (hcolon : (58 : UInt8) ∉ header.1) :
    fieldValue (headerLine header) = Search.trim (· ∈ MemoryStream.whitespace) header.2 := by
  rw [fieldValue, splitAtMost_headerLine hcolon]
  rfl

/-- The name of a header of a well-formed request. -/
theorem WellFormed.fieldName (h : request.WellFormed) {header : ByteString × ByteString}
    (hheader : header ∈ request.headers) : fieldName (headerLine header) = toLower header.1 := by
  obtain ⟨hname, -⟩ := h.headers header hheader
  rw [fieldName_headerLine fun hmem => hname 58 hmem (by decide), Search.trim_of_forall_not]
  intro c hc hmem
  have hsub : MemoryStream.whitespace ⊆ bytes ": \r\n\t" := by decide
  exact hname c hc (hsub (by simpa using hmem))

/-- The last header decides whether the content length is looked at. -/
theorem contentLengthLast_block (h : request.WellFormed) :
    HttpRequestExtractor.ContentLengthLast request.block ↔ request.ContentLengthLast := by
  obtain ⟨⟨header, hheader, -⟩, -⟩ := h.contentLength
  obtain ⟨last, hlast⟩ : ∃ last, request.headers.getLast? = some last :=
    ⟨_, List.getLast?_eq_some_getLast (List.ne_nil_of_mem hheader)⟩
  have hname := h.fieldName (List.mem_of_getLast? hlast)
  rw [HttpRequestExtractor.ContentLengthLast, lastLine_block h.lines hlast, hname]
  simp [ContentLengthLast, hlast, IsContentLength]

/-- The header block of a request is found, whatever follows the request. -/
theorem headerBlock?_encode (h : request.HasLines) (rest : ByteString) :
    HttpRequestExtractor.headerBlock? (request.encode ++ rest) = some request.block := by
  have hfound := indexOf?_kDoubleCrLf (List.cons_ne_nil _ _) h (request.body ++ rest)
  rw [HttpRequestExtractor.headerBlock?, encode, List.append_assoc, List.append_assoc, block,
    hfound]
  simp

theorem four_le_length_block (h : request.WellFormed) : 4 ≤ request.block.length := by
  obtain ⟨⟨header, hheader, -⟩, -⟩ := h.contentLength
  obtain ⟨line, lines, hlines⟩ := List.exists_cons_of_ne_nil
    (show request.headers.map headerLine ≠ [] from List.ne_nil_of_mem (List.mem_map_of_mem hheader))
  have hfirst := List.length_pos_iff.2 h.requestLine.1
  have hsecond : 0 < (crLf.intercalate (line :: lines)).length := by
    have hline := List.length_pos_iff.2 (h.lines line (by simp [hlines])).1
    cases lines with
    | nil => simpa [List.intercalate] using hline
    | cons line' lines =>
      rw [List.intercalate_cons_cons, List.length_append, List.length_append]
      omega
  rw [block, hlines, List.intercalate_cons_cons, List.length_append, List.length_append, crLf_eq]
  simp only [List.length_cons, List.length_nil]
  rw [crLf_eq] at hsecond
  omega

end Request

end Http

namespace HttpRequestExtractor

open Http

/-! ### Framing -/

/-- The packet carries a request id. -/
def Carries (requestId : ByteString) (push : Push) : Prop :=
  push.packet.parameters.find kParameter_HttpRequestId = some (.string requestId)

/-- The pushes for one request: a New Request packet, the body, and one Request Ended packet. -/
def Frames (request : Request) (pushes : List Push) : Prop :=
  ∃ requestId head bodies ended, pushes = head :: (bodies ++ [ended]) ∧
    head.channel = "New Request" ∧ (∀ push ∈ bodies, push.channel = "Body Data") ∧
    ended.channel = "Request Ended" ∧ (∀ push ∈ pushes, Carries requestId push) ∧
    (bodies.map fun push => MemoryStream.bytesOf push.packet.buffers).flatten = request.body

/-- The pushes for one request after the other, and no others. -/
def Framed (requests : List Request) (pushes : List Push) : Prop :=
  ∃ parts : List (List Push), pushes = parts.flatten ∧ List.Forall₂ Frames requests parts

/-- Content-length framing, for the packets the requests arrive in.  When the connection is closed,
the extractor is destroyed, and what that pushes counts. -/
structure ContentLengthFramed (random : ℕ → ℕ) (requests : List Request) (packets : List Packet)
    (closed : Bool) : Prop where
  framed : ∃ pushes x, (construct random).run random packets = .ok (pushes, x) ∧
    Framed requests (pushes ++ if closed then x.destroy else [])
  /-- `mBodyLength - mSentBodyDataByteCount` does not underflow where it is computed. -/
  noUnderflow : ∀ k pushes x, (construct random).run random (packets.take k) = .ok (pushes, x) →
    x.mBodyLength ≠ sizeMax → x.mSentBodyDataByteCount ≤ x.mBodyLength

/-- Every request is ended once. -/
theorem Framed.countP_ended {requests : List Request} {pushes : List Push}
    (h : Framed requests pushes) :
    pushes.countP (·.channel = "Request Ended") = requests.length := by
  obtain ⟨parts, rfl, hparts⟩ := h
  induction hparts with
  | nil => rfl
  | @cons request part requests parts hpart _ ih =>
    obtain ⟨requestId, head, bodies, ended, rfl, hhead, hbodies, hended, -⟩ := hpart
    have hnone : bodies.countP (·.channel = "Request Ended") = 0 :=
      List.countP_eq_zero.2 fun push hpush => by rw [hbodies push hpush]; decide
    rw [List.flatten_cons, List.countP_append, ih, List.countP_cons, List.countP_append, hnone]
    simp [hhead, hended, Nat.add_comm]

section

variable {requestId input : ByteString} {pushes : List Push} {x : HttpRequestExtractor}

/-- No content length is ever kept. -/
theorem Progress.mBodyLength (h : Progress requestId input pushes x) : x.mBodyLength = sizeMax := by
  cases h with
  | headers gathering missing => exact gathering.mBodyLength
  | failed gathering found last nonempty errors => exact gathering.mBodyLength
  | body hid hlength hsent found last passed => exact hlength

/-- A Request Ended packet only comes from the destructor, once a request has been found. -/
theorem Progress.countP_ended (h : Progress requestId input pushes x) (closed : Bool) :
    (pushes ++ if closed then x.destroy else []).countP (·.channel = "Request Ended") =
      if closed ∧ x.mSentHeaders = true then 1 else 0 := by
  have hnone : pushes.countP (·.channel = "Request Ended") = 0 := by
    refine List.countP_eq_zero.2 fun push hpush => ?_
    cases h with
    | headers gathering missing => simp at hpush
    | failed gathering found last nonempty errors => rw [errors push hpush]; decide
    | body hid hlength hsent found last passed =>
      rcases List.mem_cons.1 hpush with rfl | hpush
      · simp [requestPush]
      · obtain ⟨b, -, rfl⟩ := List.mem_map.1 hpush
        simp [bodyPush]
  rw [List.countP_append, hnone, Nat.zero_add]
  cases closed <;> cases hsent : x.mSentHeaders <;>
    simp [destroy, sendEndOfRequestPacketIfRequestPending, hsent]

/-- What a request leads to: it fails, or all bytes after its headers are its body. -/
theorem progress_of_lines {request : Request} (hlines : request.HasLines)
    (hlong : 4 ≤ request.block.length) {rest : ByteString}
    (h : Progress requestId (request.encode ++ rest) pushes x) :
    (HttpRequestExtractor.ContentLengthLast request.block ∧ x.mSentHeaders = false ∧
      ∀ push ∈ pushes, push = sendErrorPacket contentLengthWhat) ∨
    (¬ HttpRequestExtractor.ContentLengthLast request.block ∧ x.mSentHeaders = true ∧
      x.mRequestId = requestId ∧
      ∃ bodies, pushes = requestPush request.block requestId :: bodies.map (bodyPush requestId) ∧
        MemoryStream.bytesOf bodies = request.body ++ rest) := by
  have hsplit : request.encode ++ rest =
      (request.block ++ kDoubleCrLf) ++ (request.body ++ rest) := by
    simp [Request.encode]
  rcases progress_of_block (Request.headerBlock?_encode hlines rest) hlong h with
    hfailed | ⟨last, hsent, hid, bodies, hpushes, passed⟩
  · exact .inl hfailed
  · refine .inr ⟨last, hsent, hid, bodies, hpushes, ?_⟩
    rw [passed, hsplit, List.drop_left' (by simp [kDoubleCrLf_eq, kDoubleCrLfLength])]

/-- What the first well-formed request leads to. -/
theorem progress_of_request {request : Request} (hrequest : request.WellFormed) {rest : ByteString}
    (h : Progress requestId (request.encode ++ rest) pushes x) :
    (request.ContentLengthLast ∧ x.mSentHeaders = false) ∨
    (¬ request.ContentLengthLast ∧ x.mSentHeaders = true ∧ x.mRequestId = requestId ∧
      ∃ bodies, pushes = requestPush request.block requestId :: bodies.map (bodyPush requestId) ∧
        MemoryStream.bytesOf bodies = request.body ++ rest) := by
  rw [← Request.contentLengthLast_block hrequest]
  rcases progress_of_lines hrequest.lines (Request.four_le_length_block hrequest) h with
    ⟨hlast, hsent, -⟩ | hbody
  · exact .inl ⟨hlast, hsent⟩
  · exact .inr hbody

/-- A Request Ended packet. -/
def endedPush (requestId : ByteString) : Push where
  packet := { parameters := .object [(kParameter_HttpRequestId, .string requestId)] }
  channel := "Request Ended"

/-- A single request is framed by the destructor. -/
theorem frames_of_body {request : Request} {bodies : List Buffer}
    (hbodies : MemoryStream.bytesOf bodies = request.body) (hid : x.mRequestId = requestId)
    (hsent : x.mSentHeaders = true) :
    Frames request (requestPush request.block requestId :: bodies.map (bodyPush requestId) ++
      x.destroy) := by
  have hended : x.destroy = [endedPush requestId] := by
    rw [destroy, sendEndOfRequestPacketIfRequestPending, if_pos hsent, hid, endedPush]
  have hfind : (Json.object [(kParameter_HttpRequestId, .string requestId)]).find
      kParameter_HttpRequestId = some (.string requestId) := by
    rw [Json.find_object, Json.lookup_cons, if_pos rfl]
  refine ⟨requestId, requestPush request.block requestId, bodies.map (bodyPush requestId),
    endedPush requestId, by rw [hended]; rfl, rfl, fun push hpush => ?_, rfl,
    fun push hpush => ?_, ?_⟩
  · obtain ⟨b, -, rfl⟩ := List.mem_map.1 hpush
    rfl
  · simp only [hended, List.cons_append, List.mem_cons, List.mem_append, List.mem_map,
      List.not_mem_nil, or_false] at hpush
    rcases hpush with rfl | ⟨b, -, rfl⟩ | rfl
    · exact find_requestParameters _ _
    · exact hfind
    · exact hfind
  · rw [flatten_bodyPush, hbodies]

end

section

variable {random : ℕ → ℕ} {requests : List Request} {packets : List Packet} {closed : Bool}

theorem noUnderflow_of_run (hpackets : ∀ packet ∈ packets, HasBuffer packet) (k : ℕ)
    {pushes : List Push} {x : HttpRequestExtractor}
    (hrun : (construct random).run random (packets.take k) = .ok (pushes, x)) :
    x.mBodyLength = sizeMax := by
  obtain ⟨pushes', x', hrun', h⟩ := progress_of_construct random
    fun packet hpacket => hpackets packet (List.mem_of_mem_take (i := k) hpacket)
  obtain ⟨rfl, rfl⟩ := ok_pair_unique hrun hrun'
  exact h.mBodyLength

theorem of_contentLengthFramed (hrequests : ∀ request ∈ requests, request.WellFormed)
    (hpackets : ∀ packet ∈ packets, HasBuffer packet)
    (hreceived : received packets = (requests.map Request.encode).flatten)
    (h : ContentLengthFramed random requests packets closed) :
    requests = [] ∨
      closed = true ∧ ∃ request, requests = [request] ∧ ¬ request.ContentLengthLast := by
  cases requests with
  | nil => exact .inl rfl
  | cons request rest =>
    obtain ⟨pushes, x, hrun, hprogress⟩ := progress_of_construct random hpackets
    obtain ⟨pushes', x', hrun', hframed⟩ := h.framed
    obtain ⟨rfl, rfl⟩ := ok_pair_unique hrun' hrun
    -- there is one Request Ended packet for each request, and at most one from the destructor
    have hcount := (hframed.countP_ended).symm.trans (hprogress.countP_ended closed)
    rw [List.length_cons] at hcount
    split_ifs at hcount with hended
    · have hrest : rest = [] := List.length_eq_zero_iff.1 (by omega)
      subst hrest
      rw [hreceived, List.map_cons, List.map_nil, List.flatten_cons] at hprogress
      rcases progress_of_request (hrequests request (by simp)) hprogress with
        ⟨-, hsent⟩ | ⟨hlast, -⟩
      · rw [hended.2] at hsent
        cases hsent
      · exact .inr ⟨hended.1, request, rfl, hlast⟩

theorem contentLengthFramed_of (hrequests : ∀ request ∈ requests, request.WellFormed)
    (hpackets : ∀ packet ∈ packets, HasBuffer packet)
    (hreceived : received packets = (requests.map Request.encode).flatten)
    (h : requests = [] ∨
      closed = true ∧ ∃ request, requests = [request] ∧ ¬ request.ContentLengthLast) :
    ContentLengthFramed random requests packets closed := by
  refine ⟨?_, fun k pushes x hrun hne => absurd (noUnderflow_of_run hpackets k hrun) hne⟩
  obtain ⟨pushes, x, hrun, hprogress⟩ := progress_of_construct random hpackets
  refine ⟨pushes, x, hrun, ?_⟩
  rcases h with rfl | ⟨rfl, request, rfl, hlast⟩
  · -- no bytes, no packets
    rw [hreceived] at hprogress
    have hmissing : Search.indexFrom? kDoubleCrLf [] kDoubleCrLfLength = none := by decide
    cases hprogress with
    | headers gathering missing =>
      refine ⟨[], ?_, .nil⟩
      cases closed <;>
        simp [destroy, sendEndOfRequestPacketIfRequestPending, gathering.mSentHeaders]
    | failed gathering found last nonempty errors => cases hmissing.symm.trans found
    | body hid hlength hsent found last passed => cases hmissing.symm.trans found
  · rw [hreceived, List.map_cons, List.map_nil, List.flatten_cons] at hprogress
    rcases progress_of_request (hrequests request (by simp)) hprogress with
      ⟨hlast', -⟩ | ⟨-, hsent, hid, bodies, rfl, hbodies⟩
    · exact absurd hlast' hlast
    · rw [List.flatten_nil, List.append_nil] at hbodies
      exact ⟨[_], by simp, .cons (frames_of_body hbodies hid hsent) .nil⟩

end

/-- **Content lengths frame nothing.**  A sequence of requests, however cut into packets, comes
out as asked only if it is empty, or if it is one request whose content length is not the last
header and which the destructor ends. -/
theorem contentLengthFramed_iff (random : ℕ → ℕ) (requests : List Request) (packets : List Packet)
    (closed : Bool) (hrequests : ∀ request ∈ requests, request.WellFormed)
    (hpackets : ∀ packet ∈ packets, HasBuffer packet)
    (hreceived : received packets = (requests.map Request.encode).flatten) :
    ContentLengthFramed random requests packets closed ↔
      requests = [] ∨
        closed = true ∧ ∃ request, requests = [request] ∧ ¬ request.ContentLengthLast :=
  ⟨of_contentLengthFramed hrequests hpackets hreceived,
    contentLengthFramed_of hrequests hpackets hreceived⟩

/-- A request whose content length is not the last header. -/
def hostLastRequest : Request where
  requestLine := bytes "POST / HTTP/1.1"
  headers := [(bytes "Content-Length", bytes " 1"), (bytes "Host", bytes " a")]
  body := bytes "x"

/-- Such a request comes out as asked, in two packets, on a connection that is closed afterwards. -/
theorem contentLengthFramed_closed : ContentLengthFramed (fun _ => 0) [hostLastRequest]
    [{ buffers := [.ofBytes (bytes "POST / HTTP/1.1\r\nContent-Length: 1\r\n")] },
      { buffers := [.ofBytes (bytes "Host: a\r\n\r\nx")] }] true :=
  (contentLengthFramed_iff _ _ _ _
    (List.forall_mem_singleton.2 (show hostLastRequest.WellFormed by decide)) (by decide)
    (by decide)).2 (.inr ⟨rfl, _, rfl, by decide⟩)

/-- A request with one body byte. -/
def oneByteRequest : Request where
  requestLine := bytes "POST / HTTP/1.1"
  headers := [(bytes "Content-Length", bytes " 1")]
  body := bytes "x"

/-- **A request with a content length and one body byte fails**, open or closed. -/
theorem not_contentLengthFramed_oneByte :
    oneByteRequest.WellFormed ∧ ∀ closed, ¬ ContentLengthFramed (fun _ => 0) [oneByteRequest]
      [{ buffers := [.ofBytes oneByteRequest.encode] }] closed := by
  have hrequest : oneByteRequest.WellFormed := by decide
  refine ⟨hrequest, fun closed h => ?_⟩
  have hpackets : ∀ packet ∈ [({ buffers := [.ofBytes oneByteRequest.encode] } : Packet)],
      HasBuffer packet := by decide
  rcases of_contentLengthFramed (List.forall_mem_singleton.2 hrequest) hpackets (by decide) h with
    hnil | ⟨-, request, hone, hlast⟩
  · cases hnil
  · obtain rfl := List.singleton_inj.1 hone
    exact hlast ⟨_, rfl, by decide⟩

end HttpRequestExtractor

end Maplang
