import Maplang.Http.Framing

/-!
# Extracting HTTP responses

`HttpResponseExtractor` is `HttpRequestExtractor` with other names: the tokens of the first line are
the version, the status code and the status reason, and the header packet goes to the channel
*Reponse Headers Received*.  So what is known of requests is carried over by a simulation.

## Main definitions

* `HttpResponseExtractor` and its functions, under their names in the code.
* `HttpResponseExtractor.ofRequest` : the response extractor in the state of a request extractor.
* `HttpResponseExtractor.answer` : what it pushes where the request extractor pushes something.

## Main results

* `createHeaderPacket_spec` : the parameters are those of the header block.
* `handlePacket_ofRequest`, `run_ofRequest` : the simulation, for a packet and for a run.
* `responds_of_lines` : what a whole response leads to.
-/

namespace Maplang

namespace Http

def kParameter_HttpStatusCode : ByteString := bytes "httpStatusCode"
def kParameter_HttpStatusReason : ByteString := bytes "httpStatusReason"

/-- The parameters of the header packet of a response. -/
def responseParameters (block requestId : ByteString) : Json :=
  headerParameters
    [kParameter_HttpVersion, kParameter_HttpStatusCode, kParameter_HttpStatusReason] block requestId

end Http

open Http

/-! ### The code -/

/-- `class HttpResponseExtractor`, less its factories and its packet pusher. -/
structure HttpResponseExtractor where
  mReceivedHeaders : Bool := false
  mHeaderData : MemoryStream := {}
  mRequestId : ByteString := []
  mBodyLength : ℕ := 0
  mSentBodyDataByteCount : ℕ := 0
  /-- How many numbers the random device has drawn. -/
  drawn : ℕ := 0

namespace HttpResponseExtractor

/-- `HttpResponseExtractor::parseHeaders`, word for word that of requests. -/
def parseHeaders (headers : MemoryStream) : Code Json := HttpRequestExtractor.parseHeaders headers

/-- The callback of `split` for the first line. -/
def parseToken (parameters : Json) : MemoryStream × ℕ → Code Json
  | (token, 0) => parameters.set kParameter_HttpVersion (.string token.contents)
  | (token, 1) => parameters.set kParameter_HttpStatusCode (.string token.contents)
  | (token, 2) => parameters.set kParameter_HttpStatusReason (.string token.contents)
  | (_, _) => .ok parameters

/-- `HttpResponseExtractor::createHeaderPacket`.  It also computes `trimmedStream`, and never uses
it. -/
def createHeaderPacket (x : HttpResponseExtractor) (memoryStream : MemoryStream) : Code Packet := do
  let (firstLine, headersStream) :=
    HttpRequestExtractor.firstLineAndHeaders (← memoryStream.split crLf)
  let parameters ← Json.null.set kParameter_HttpHeaders (← parseHeaders headersStream)
  let parameters ← (← firstLine.split (bytes " ")).zipIdx.foldlM parseToken parameters
  let parameters ← parameters.set kParameter_HttpRequestId (.string x.mRequestId)
  return { parameters }

/-- `HttpResponseExtractor::reset`, with the numbers the random device draws. -/
def reset (random : ℕ → ℕ) (x : HttpResponseExtractor) : HttpResponseExtractor where
  mReceivedHeaders := false
  mHeaderData := x.mHeaderData.clear
  mRequestId := bytes (toString (random x.drawn))
  mBodyLength := sizeMax
  mSentBodyDataByteCount := 0
  drawn := x.drawn + 1

/-- The constructor. -/
def construct (random : ℕ → ℕ) : HttpResponseExtractor := reset random {}

/-- `HttpResponseExtractor::createBodyPacket`. -/
def createBodyPacket (x : HttpResponseExtractor) (bodyBuffer : Buffer) : Packet where
  parameters := .object [(kParameter_HttpRequestId, .string x.mRequestId)]
  buffers := [bodyBuffer]

/-- `HttpResponseExtractor::sendEndOfRequestPacketIfRequestPending`, with a packet pusher. -/
def sendEndOfRequestPacketIfRequestPending (x : HttpResponseExtractor) : List Push :=
  if x.mReceivedHeaders then
    [{ packet := { parameters := .object [(kParameter_HttpRequestId, .string x.mRequestId)] }
       channel := "Request Ended" }]
  else []

/-- The destructor. -/
def destroy (x : HttpResponseExtractor) : List Push := x.sendEndOfRequestPacketIfRequestPending

/-- The body part of `handlePacket`, once the headers have been received. -/
def handleBody (random : ℕ → ℕ) (x : HttpResponseExtractor) (incomingBuffer : Buffer) :
    List Push × HttpResponseExtractor :=
  let remainingBodyLength := sizeSub x.mBodyLength x.mSentBodyDataByteCount
  let knownLastBufferInRequest :=
    x.mBodyLength ≠ sizeMax ∧ incomingBuffer.length ≤ remainingBodyLength
  let bodyPacket := x.createBodyPacket
    (if knownLastBufferInRequest then { incomingBuffer with length := remainingBodyLength }
      else incomingBuffer)
  if knownLastBufferInRequest then
    (⟨bodyPacket, "Body Data"⟩ :: x.sendEndOfRequestPacketIfRequestPending, x.reset random)
  else ([⟨bodyPacket, "Body Data"⟩], x)

/-- The header packet, and the content length, which is looked at and not kept. -/
def createResponsePacket (x : HttpResponseExtractor) (headersEnd : ℕ) : Code Packet := do
  let headerPacket ← x.createHeaderPacket (← x.mHeaderData.subStream 0 (some headersEnd))
  let httpHeaders ← headerPacket.parameters.get kParameter_HttpHeaders
  match httpHeaders.find kHttpHeaderNormalized_ContentLength with
  | some value =>
    -- header values are strings, so this throws
    let _contentLength ← value.getUInt64
    return headerPacket
  | none => return headerPacket

/-- What has been pushed, the state left, and what was thrown, at the end of the `try` block. -/
structure Attempt where
  pushes : List Push
  extractor : HttpResponseExtractor
  thrown : Option Fault := none

/-- The header part of `handlePacket`, with the same call of `firstIndexOf` as for requests. -/
def handleHeaders (x : HttpResponseExtractor) (incomingBuffer : Buffer) : Attempt :=
  let bufferSizeBeforeAppending := x.mHeaderData.mSize
  match x.mHeaderData.append incomingBuffer with
  | .error fault => ⟨[], x, some fault⟩
  | .ok mHeaderData =>
    let x := { x with mHeaderData }
    match mHeaderData.firstIndexOfCString kDoubleCrLf kDoubleCrLfLength with
    | .error fault => ⟨[], x, some fault⟩
    | .ok none => ⟨[], x, none⟩
    | .ok (some headersEnd) =>
      match x.createResponsePacket headersEnd with
      | .error fault => ⟨[], x, some fault⟩
      | .ok headerPacket =>
        let bodyStart := headersEnd + kDoubleCrLfLength
        let availableBodyLength := sizeSub mHeaderData.mSize bodyStart
        let bodyBuffer := incomingBuffer.slice (sizeSub bodyStart bufferSizeBeforeAppending)
        let x := { x with mReceivedHeaders := true, mHeaderData := mHeaderData.clear }
        if 0 < availableBodyLength then
          ⟨[⟨headerPacket, "Reponse Headers Received"⟩,
              ⟨x.createBodyPacket bodyBuffer, "Body Data"⟩],
            { x with mSentBodyDataByteCount := x.mSentBodyDataByteCount + bodyBuffer.length }, none⟩
        else ⟨[⟨headerPacket, "Reponse Headers Received"⟩], x, none⟩

/-- `HttpResponseExtractor::handlePacket`.  An error packet goes to the pusher that comes with the
packet, all others to the one that has been set. -/
def handlePacket (random : ℕ → ℕ) (x : HttpResponseExtractor) (incomingPacket : Packet) :
    Code (List Push × HttpResponseExtractor) :=
  match incomingPacket.buffers with
  | [] => .error .undefinedBehaviour
  | incomingBuffer :: _ =>
    if x.mReceivedHeaders then .ok (x.handleBody random incomingBuffer)
    else
      let attempt := x.handleHeaders incomingBuffer
      match attempt.thrown with
      | none => .ok (attempt.pushes, attempt.extractor)
      | some (.exception what) => .ok (attempt.pushes ++ [sendErrorPacket what], attempt.extractor)
      | some fault => .error fault

/-- Handle one packet after the other. -/
def run (random : ℕ → ℕ) (x : HttpResponseExtractor) :
    List Packet → Code (List Push × HttpResponseExtractor)
  | [] => .ok ([], x)
  | incomingPacket :: incomingPackets => do
    let (pushes, x') ← x.handlePacket random incomingPacket
    let (pushes', x'') ← x'.run random incomingPackets
    return (pushes ++ pushes', x'')

/-! ### The header packet -/

/-- **The header packet is determined by the bytes of the header block.** -/
theorem createHeaderPacket_spec (x : HttpResponseExtractor) {memoryStream : MemoryStream}
    (h : memoryStream.Valid) : x.createHeaderPacket memoryStream =
      .ok { parameters := responseParameters memoryStream.contents x.mRequestId } := by
  obtain ⟨fs, ts, hfs, hheaders, hts, htokens⟩ := HttpRequestExtractor.split_block h
  have htoken := HttpRequestExtractor.foldlM_tokens parseToken (fun _ _ => rfl)
    (fun _ _ => rfl) (fun _ _ => rfl) fun _ _ _ => rfl
  simp only [createHeaderPacket, hfs, bind, Except.bind,
    HttpRequestExtractor.firstLineAndHeaders_eq, parseHeaders, hheaders, hts, Json.set, htoken,
    htokens, pure, Except.pure]
  rfl

open HttpRequestExtractor (ContentLengthLast contentLengthWhat Gathering Progress bodyPush)

/-- A content length on the last line makes the response fail, too. -/
theorem createResponsePacket_spec {x : HttpResponseExtractor} (h : x.mHeaderData.Valid) {n : ℕ}
    (hn : n ≤ x.mHeaderData.contents.length) :
    x.createResponsePacket n =
      if ContentLengthLast (x.mHeaderData.contents.take n) then
        .error (.exception contentLengthWhat)
      else .ok
        { parameters := responseParameters (x.mHeaderData.contents.take n) x.mRequestId } := by
  obtain ⟨t, ht, hvalid, hcontents⟩ := MemoryStream.subStream_spec h 0 (some n)
  rw [MemoryStream.clampEnd_some h hn, List.drop_zero, Nat.sub_zero] at hcontents
  have hget := get_headerParameters
    [kParameter_HttpVersion, kParameter_HttpStatusCode, kParameter_HttpStatusReason] (by decide)
    (x.mHeaderData.contents.take n) x.mRequestId
  simp only [createResponsePacket, ht, bind, Except.bind, createHeaderPacket_spec x hvalid,
    hcontents, responseParameters, hget, HttpRequestExtractor.find_requestHeaders]
  by_cases hlast : ContentLengthLast (x.mHeaderData.contents.take n)
  · simp only [if_pos hlast]
    rfl
  · simp only [if_neg hlast]
    rfl

/-! ### The simulation -/

/-- The header packet of a response. -/
def responsePush (block requestId : ByteString) : Push where
  packet := { parameters := responseParameters block requestId }
  channel := "Reponse Headers Received"

/-- What is pushed where a request extractor pushes something, for a header block. -/
def answer (block requestId : ByteString) (push : Push) : Push :=
  if push.channel = "New Request" then responsePush block requestId else push

theorem map_answer_of_ne {block requestId : ByteString} {pushes : List Push}
    (h : ∀ push ∈ pushes, push.channel ≠ "New Request") :
    pushes.map (answer block requestId) = pushes :=
  (List.map_congr_left fun push hpush => if_neg (h push hpush)).trans (List.map_id' pushes)

/-- The response extractor in the state of a request extractor. -/
def ofRequest (y : HttpRequestExtractor) : HttpResponseExtractor where
  mReceivedHeaders := y.mSentHeaders
  mHeaderData := y.mHeaderData
  mRequestId := y.mRequestId
  mBodyLength := y.mBodyLength
  mSentBodyDataByteCount := y.mSentBodyDataByteCount
  drawn := y.drawn

section

variable {requestId input block : ByteString} {y : HttpRequestExtractor}

theorem handleBody_ofRequest (random : ℕ → ℕ) (y : HttpRequestExtractor) (b : Buffer) :
    (ofRequest y).handleBody random b =
      ((y.handleBody random b).1, ofRequest (y.handleBody random b).2) := by
  by_cases hlast : y.mBodyLength ≠ sizeMax ∧
      b.length ≤ sizeSub y.mBodyLength y.mSentBodyDataByteCount
  · have hlast' : (ofRequest y).mBodyLength ≠ sizeMax ∧
        b.length ≤ sizeSub (ofRequest y).mBodyLength (ofRequest y).mSentBodyDataByteCount := hlast
    simp only [handleBody, HttpRequestExtractor.handleBody, if_pos hlast, if_pos hlast']
    rfl
  · have hlast' : ¬ ((ofRequest y).mBodyLength ≠ sizeMax ∧
        b.length ≤ sizeSub (ofRequest y).mBodyLength (ofRequest y).mSentBodyDataByteCount) := hlast
    simp only [handleBody, HttpRequestExtractor.handleBody, if_neg hlast, if_neg hlast']
    rfl

theorem ne_of_mem_handleBody {random : ℕ → ℕ} {b : Buffer} {push : Push}
    (h : push ∈ (y.handleBody random b).1) : push.channel ≠ "New Request" := by
  unfold HttpRequestExtractor.handleBody
    HttpRequestExtractor.sendEndOfRequestPacketIfRequestPending at h
  dsimp only at h
  split_ifs at h <;> simp only [List.mem_cons, List.not_mem_nil, or_false] at h
  · rcases h with rfl | rfl <;> simp
  · rw [h]
    simp
  · rw [h]
    simp

/-- The header part, for the header block of the bytes received. -/
theorem handleHeaders_ofRequest (h : Gathering requestId input y) {b : Buffer} (hb : b.Valid)
    (hblock : ∀ n, Search.indexFrom? kDoubleCrLf (input ++ b.contents) kDoubleCrLfLength = some n →
      (input ++ b.contents).take n = block) :
    (ofRequest y).handleHeaders b =
      ⟨(y.handleHeaders b).pushes.map (answer block requestId),
        ofRequest (y.handleHeaders b).extractor, (y.handleHeaders b).thrown⟩ := by
  obtain ⟨s, hs, hgathering⟩ := h.append hb
  have hs' : (ofRequest y).mHeaderData.append b = .ok s := hs
  have hsearch := HttpRequestExtractor.firstIndexOfCString_spec hgathering.mHeaderData
  rw [hgathering.contents] at hsearch
  simp only [handleHeaders, HttpRequestExtractor.handleHeaders, hs, hs', hsearch]
  cases hfound : Search.indexFrom? kDoubleCrLf (input ++ b.contents) kDoubleCrLfLength with
  | none => rfl
  | some n =>
    have hend := (HttpRequestExtractor.take_of_found (m := []) hfound).1
    have hrequest := HttpRequestExtractor.createRequestPacket_spec hgathering.mHeaderData (n := n)
      (by rw [hgathering.contents]; omega)
    have hresponse := createResponsePacket_spec (x := { ofRequest y with mHeaderData := s })
      hgathering.mHeaderData (n := n) (by rw [hgathering.contents]; omega)
    rw [hgathering.contents, hblock n hfound] at hrequest hresponse
    simp only [hrequest, hresponse]
    obtain rfl : y.mRequestId = requestId := h.mRequestId
    by_cases hlast : ContentLengthLast block
    · simp only [if_pos hlast]
      rfl
    · simp only [if_neg hlast]
      split
      · rfl
      · rfl

/-- **One packet.** -/
theorem handlePacket_ofRequest {random : ℕ → ℕ} {packet : Packet} (hpacket : HasBuffer packet)
    {pushes new : List Push} {y' : HttpRequestExtractor} (h : Progress requestId input pushes y)
    (hblock : ∀ n, Search.indexFrom? kDoubleCrLf (input ++ (firstBuffer packet).contents)
      kDoubleCrLfLength = some n → (input ++ (firstBuffer packet).contents).take n = block)
    (hhandle : y.handlePacket random packet = .ok (new, y')) :
    (ofRequest y).handlePacket random packet =
      .ok (new.map (answer block requestId), ofRequest y') := by
  obtain ⟨b, bs, hbuffers⟩ := List.exists_cons_of_ne_nil hpacket.1
  have hfirst : firstBuffer packet = b := by rw [firstBuffer, hbuffers]; rfl
  rw [hfirst] at hblock
  simp only [HttpRequestExtractor.handlePacket, hbuffers] at hhandle
  simp only [handlePacket, hbuffers]
  have hgathering : y.mSentHeaders = false → Gathering requestId input y := by
    intro hsent
    cases h with
    | headers gathering missing => exact gathering
    | failed gathering found last nonempty errors => exact gathering
    | body hid hlength hsent' found last passed => cases hsent.symm.trans hsent'
  cases hsent : y.mSentHeaders with
  | true =>
    rw [hsent, if_pos rfl] at hhandle
    have hreceived : (ofRequest y).mReceivedHeaders = true := hsent
    rw [if_pos hreceived, handleBody_ofRequest, map_answer_of_ne]
    · rw [Except.ok.inj hhandle]
    · obtain rfl : _ = new := congrArg Prod.fst (Except.ok.inj hhandle)
      exact fun push => ne_of_mem_handleBody
  | false =>
    rw [hsent, if_neg (by decide)] at hhandle
    have hreceived : ¬ (ofRequest y).mReceivedHeaders = true := by
      rw [show (ofRequest y).mReceivedHeaders = false from hsent]
      decide
    rw [if_neg hreceived,
      handleHeaders_ofRequest (hgathering hsent) (by rw [← hfirst]; exact hpacket.2) hblock]
    have herror : ∀ what, answer block requestId (sendErrorPacket what) = sendErrorPacket what :=
      fun _ => if_neg (by simp [sendErrorPacket])
    split at hhandle
    · rename_i hthrown
      obtain ⟨rfl, rfl⟩ := Prod.mk.inj (Except.ok.inj hhandle)
      simp only [hthrown]
    · rename_i what hthrown
      obtain ⟨rfl, rfl⟩ := Prod.mk.inj (Except.ok.inj hhandle)
      simp only [hthrown, List.map_append, List.map_singleton, herror]
    · cases hhandle

/-- **Any number of packets.** -/
theorem run_ofRequest {random : ℕ → ℕ} {packets : List Packet}
    (hpackets : ∀ packet ∈ packets, HasBuffer packet) {pushes new : List Push}
    {y' : HttpRequestExtractor} (h : Progress requestId input pushes y)
    (hblock : ∀ n, Search.indexFrom? kDoubleCrLf (input ++ received packets)
      kDoubleCrLfLength = some n → (input ++ received packets).take n = block)
    (hrun : y.run random packets = .ok (new, y')) :
    (ofRequest y).run random packets = .ok (new.map (answer block requestId), ofRequest y') := by
  induction packets generalizing input pushes new y with
  | nil =>
    obtain ⟨rfl, rfl⟩ := Prod.mk.inj (Except.ok.inj hrun)
    rfl
  | cons packet packets ih =>
    obtain ⟨hpacket, hpackets⟩ := List.forall_mem_cons.1 hpackets
    obtain ⟨first, z, hhandle, hprogress⟩ := HttpRequestExtractor.progress_step random hpacket h
    have hreceived : input ++ received (packet :: packets) =
        input ++ (firstBuffer packet).contents ++ received packets := by
      simp [received]
    rw [hreceived] at hblock
    -- the header block stays where it has been found
    have hfound : ∀ n, Search.indexFrom? kDoubleCrLf (input ++ (firstBuffer packet).contents)
        kDoubleCrLfLength = some n → (input ++ (firstBuffer packet).contents).take n = block := by
      intro n hn
      rw [← hblock n (Search.indexFrom?_append HttpRequestExtractor.kDoubleCrLf_ne_nil hn _),
        (HttpRequestExtractor.take_of_found hn).2.1]
    have hfirst := handlePacket_ofRequest hpacket h hfound hhandle
    obtain ⟨more, w, hmore, -⟩ := HttpRequestExtractor.progress_run random hpackets hprogress
    simp only [HttpRequestExtractor.run, bind, Except.bind, hhandle, hmore, pure,
      Except.pure] at hrun
    obtain ⟨rfl, rfl⟩ := Prod.mk.inj (Except.ok.inj hrun)
    have hrest := ih hpackets hprogress hblock hmore
    simp only [run, bind, Except.bind, hfirst, hrest, pure, Except.pure, List.map_append]

/-- **What a response leads to**, wherever its bytes are cut: it fails, or all bytes after its
headers are its body. -/
theorem responds_of_lines (random : ℕ → ℕ) {response : Request} (hlines : response.HasLines)
    (hlong : 4 ≤ response.block.length) {packets : List Packet}
    (hpackets : ∀ packet ∈ packets, HasBuffer packet)
    (hreceived : received packets = response.encode) :
    ∃ pushes x, (construct random).run random packets = .ok (pushes, x) ∧
      ((ContentLengthLast response.block ∧
          ∀ push ∈ pushes, push = sendErrorPacket contentLengthWhat) ∨
        ¬ ContentLengthLast response.block ∧ ∃ responseId bodies,
          pushes = responsePush response.block responseId :: bodies.map (bodyPush responseId) ∧
          MemoryStream.bytesOf bodies = response.body) := by
  obtain ⟨pushes, y, hrun, hprogress⟩ :=
    HttpRequestExtractor.progress_of_construct random hpackets
  have hblock : ∀ n, Search.indexFrom? kDoubleCrLf ([] ++ received packets) kDoubleCrLfLength =
      some n → ([] ++ received packets).take n = response.block := by
    intro n hn
    have hheader := Request.headerBlock?_encode hlines []
    rw [List.append_nil, ← hreceived] at hheader
    obtain ⟨hfound, htake⟩ := HttpRequestExtractor.indexFrom?_of_headerBlock? hheader hlong
    obtain rfl := Option.some.inj (hfound.symm.trans hn)
    exact htake
  refine ⟨_, _, run_ofRequest hpackets (HttpRequestExtractor.progress_construct random) hblock hrun,
    ?_⟩
  rw [hreceived, ← List.append_nil response.encode] at hprogress
  rcases HttpRequestExtractor.progress_of_lines hlines hlong hprogress with
    ⟨hlast, -, herrors⟩ | ⟨hlast, -, -, bodies, rfl, hbodies⟩
  · refine .inl ⟨hlast, fun push hpush => ?_⟩
    rw [map_answer_of_ne fun push hpush => by rw [herrors push hpush]; simp [sendErrorPacket]]
      at hpush
    exact herrors push hpush
  · refine .inr ⟨hlast, bytes (toString (random 0)), bodies, ?_, by rw [hbodies, List.append_nil]⟩
    rw [List.map_cons, map_answer_of_ne]
    · rfl
    · rintro _ hpush
      obtain ⟨b, -, rfl⟩ := List.mem_map.1 hpush
      simp [bodyPush]

end

end HttpResponseExtractor

end Maplang
