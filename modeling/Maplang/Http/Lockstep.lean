import Maplang.Http.ResponseExtractor
import Maplang.Http.Grammar
import Mathlib.Data.List.Forall2

/-!
# The two extractors run in lockstep

`HttpRequestExtractor` and `HttpResponseExtractor` are written twice.  Fed the same packets, they
push the same packets up to the names: of the channel of the header packet, of the three tokens of
the first line, and the request ids, which each extractor draws for itself.

## Main definitions

* `Same` : the states agree, up to the request ids.
* `Corresponds` : what a request extractor pushes, and what a response extractor pushes for it.

## Main results

* `alike_handlePacket`, `alike_run` : one packet, and any number of them; nothing is asked of the
  packets, or of the states they meet.
* `corresponds_of_construct` : two new extractors, up to their destruction.
-/

namespace Maplang

open Http

namespace HttpResponseExtractor

/-- The names of the tokens of a request line, ... -/
def requestNames : List ByteString :=
  [kParameter_HttpMethod, kParameter_HttpPath, kParameter_HttpVersion]

/-- ... and of a status line. -/
def responseNames : List ByteString :=
  [kParameter_HttpVersion, kParameter_HttpStatusCode, kParameter_HttpStatusReason]

/-- The states agree, up to the request ids. -/
structure Same (y : HttpRequestExtractor) (x : HttpResponseExtractor) : Prop where
  mReceivedHeaders : x.mReceivedHeaders = y.mSentHeaders
  mHeaderData : x.mHeaderData = y.mHeaderData
  mBodyLength : x.mBodyLength = y.mBodyLength
  mSentBodyDataByteCount : x.mSentBodyDataByteCount = y.mSentBodyDataByteCount

/-- The channel of a response extractor for a channel of a request extractor. -/
def channelFor (channel : String) : String :=
  if channel = "New Request" then "Reponse Headers Received" else channel

/-- What a response extractor pushes where a request extractor pushes something. -/
structure Corresponds (request response : Push) : Prop where
  known : request.channel ∈ ["New Request", "Body Data", "Request Ended", "error"]
  channel : response.channel = channelFor request.channel
  buffers : response.packet.buffers = request.packet.buffers
  httpHeaders : response.packet.parameters.find kParameter_HttpHeaders =
    request.packet.parameters.find kParameter_HttpHeaders
  /-- The first token of the first line, ... -/
  method : response.packet.parameters.find kParameter_HttpVersion =
    request.packet.parameters.find kParameter_HttpMethod
  /-- ... the second one, ... -/
  path : response.packet.parameters.find kParameter_HttpStatusCode =
    request.packet.parameters.find kParameter_HttpPath
  /-- ... and the third one. -/
  version : response.packet.parameters.find kParameter_HttpStatusReason =
    request.packet.parameters.find kParameter_HttpVersion

/-! ### The header packet -/

/-- A header packet, by the names of the tokens. -/
def headPacket (names : List ByteString) (httpHeaders : Json) (tokens : List ByteString)
    (requestId : ByteString) : Packet where
  parameters := .object (Json.setMember ((names.zip tokens).foldl
    (fun members t => Json.setMember members t.1 (.string t.2))
    [(kParameter_HttpHeaders, httpHeaders)]) kParameter_HttpRequestId (.string requestId))

theorem find_headPacket {a b c : ByteString} (httpHeaders : Json) (tokens : List ByteString)
    (requestId : ByteString)
    (hnames : [kParameter_HttpRequestId, c, b, a, kParameter_HttpHeaders].Nodup) :
    (headPacket [a, b, c] httpHeaders tokens requestId).parameters.find a =
        tokens[0]?.map .string ∧
      (headPacket [a, b, c] httpHeaders tokens requestId).parameters.find b =
        tokens[1]?.map .string ∧
      (headPacket [a, b, c] httpHeaders tokens requestId).parameters.find c =
        tokens[2]?.map .string ∧
      (headPacket [a, b, c] httpHeaders tokens requestId).parameters.find kParameter_HttpHeaders =
        some httpHeaders := by
  obtain ⟨hid, hnames⟩ := List.nodup_cons.1 hnames
  simp only [List.mem_cons, List.not_mem_nil, or_false, not_or] at hid
  obtain ⟨hidc, hidb, hida, hidh⟩ := hid
  simp only [headPacket, Json.find_object, Json.lookup_setMember, if_neg (Ne.symm hida),
    if_neg (Ne.symm hidb), if_neg (Ne.symm hidc), if_neg (Ne.symm hidh)]
  exact lookup_tokens httpHeaders hnames tokens

/-- Header packets made of the same headers and tokens. -/
structure SameHead (request response : Packet) : Prop where
  made : ∃ httpHeaders tokens requestId responseId,
    request = headPacket requestNames httpHeaders tokens requestId ∧
      response = headPacket responseNames httpHeaders tokens responseId

section

variable {request response : Packet} {y : HttpRequestExtractor} {x : HttpResponseExtractor}

theorem SameHead.corresponds (h : SameHead request response) :
    Corresponds ⟨request, "New Request"⟩ ⟨response, "Reponse Headers Received"⟩ := by
  obtain ⟨httpHeaders, tokens, requestId, responseId, rfl, rfl⟩ := h.made
  obtain ⟨hmethod, hpath, hversion, hheaders⟩ :=
    find_headPacket (a := kParameter_HttpMethod) (b := kParameter_HttpPath)
      (c := kParameter_HttpVersion) httpHeaders tokens requestId (by decide)
  obtain ⟨hmethod', hpath', hversion', hheaders'⟩ :=
    find_headPacket (a := kParameter_HttpVersion) (b := kParameter_HttpStatusCode)
      (c := kParameter_HttpStatusReason) httpHeaders tokens responseId (by decide)
  exact ⟨by simp, rfl, rfl, hheaders'.trans hheaders.symm, hmethod'.trans hmethod.symm,
    hpath'.trans hpath.symm, hversion'.trans hversion.symm⟩

/-- The headers are read back from both. -/
theorem SameHead.get (h : SameHead request response) :
    ∃ httpHeaders, request.parameters.get kParameter_HttpHeaders = .ok httpHeaders ∧
      response.parameters.get kParameter_HttpHeaders = .ok httpHeaders := by
  obtain ⟨httpHeaders, tokens, requestId, responseId, rfl, rfl⟩ := h.made
  exact ⟨httpHeaders,
    Json.get_of_find (find_headPacket httpHeaders tokens requestId (by decide)).2.2.2,
    Json.get_of_find (find_headPacket httpHeaders tokens responseId (by decide)).2.2.2⟩

theorem alike_createHeaderPacket (y : HttpRequestExtractor) (x : HttpResponseExtractor)
    (memoryStream : MemoryStream) :
    Alike SameHead (y.createHeaderPacket memoryStream) (x.createHeaderPacket memoryStream) := by
  have hrequest := HttpRequestExtractor.foldlM_tokens HttpRequestExtractor.parseToken
    (fun _ _ => rfl) (fun _ _ => rfl) (fun _ _ => rfl) fun _ _ _ => rfl
  have hresponse := HttpRequestExtractor.foldlM_tokens parseToken
    (fun _ _ => rfl) (fun _ _ => rfl) (fun _ _ => rfl) fun _ _ _ => rfl
  refine (Alike.refl (memoryStream.split crLf)).bind fun fragments _ hfragments => ?_
  subst hfragments
  refine (Alike.refl (HttpRequestExtractor.parseHeaders
    (HttpRequestExtractor.firstLineAndHeaders fragments).2)).bind fun httpHeaders _ hheaders => ?_
  subst hheaders
  refine (Alike.refl ((HttpRequestExtractor.firstLineAndHeaders fragments).1.split
    (bytes " "))).bind fun tokens _ htokens => ?_
  subst htokens
  rw [hrequest, hresponse]
  exact .ok ⟨httpHeaders, tokens.map MemoryStream.contents, y.mRequestId, x.mRequestId, rfl, rfl⟩

theorem alike_createRequestPacket (h : Same y x) (headersEnd : ℕ) :
    Alike SameHead (y.createRequestPacket headersEnd) (x.createResponsePacket headersEnd) := by
  unfold HttpRequestExtractor.createRequestPacket createResponsePacket
  rw [h.mHeaderData]
  refine (Alike.refl (y.mHeaderData.subStream 0 (some headersEnd))).bind fun block _ hblock => ?_
  subst hblock
  refine (alike_createHeaderPacket y x block).bind fun request response hhead => ?_
  obtain ⟨httpHeaders, hrequest, hresponse⟩ := hhead.get
  rw [hrequest, hresponse]
  simp only [bind, Except.bind]
  cases httpHeaders.find kHttpHeaderNormalized_ContentLength with
  | none => exact .ok hhead
  | some value => exact (Alike.refl value.getUInt64).bind fun _ _ _ => .ok hhead

/-! ### The other packets -/

/-- Besides the request id, nothing is found. -/
theorem find_id (requestId responseId key key' : ByteString) (h : key ≠ kParameter_HttpRequestId)
    (h' : key' ≠ kParameter_HttpRequestId) :
    (Json.object [(kParameter_HttpRequestId, .string requestId)]).find key =
      (Json.object [(kParameter_HttpRequestId, .string responseId)]).find key' := by
  rw [Json.find_object, Json.find_object, Json.lookup_cons, Json.lookup_cons, if_neg h, if_neg h',
    List.lookup_nil, List.lookup_nil]

/-- Packets with a request id and nothing else. -/
theorem corresponds_id {channel : String} (hknown : channel ∈ ["Body Data", "Request Ended"])
    (requestId responseId : ByteString) (buffers : List Buffer) :
    Corresponds ⟨⟨.object [(kParameter_HttpRequestId, .string requestId)], buffers⟩, channel⟩
      ⟨⟨.object [(kParameter_HttpRequestId, .string responseId)], buffers⟩, channel⟩ where
  known := List.subset_cons_of_subset _ (List.prefix_append _ ["error"]).subset hknown
  channel := by
    rw [channelFor, if_neg]
    rintro rfl
    exact absurd hknown (by decide)
  buffers := rfl
  httpHeaders := (find_id requestId responseId _ _ (by decide) (by decide)).symm
  method := (find_id requestId responseId _ _ (by decide) (by decide)).symm
  path := (find_id requestId responseId _ _ (by decide) (by decide)).symm
  version := (find_id requestId responseId _ _ (by decide) (by decide)).symm

theorem corresponds_error (what : String) :
    Corresponds (sendErrorPacket what) (sendErrorPacket what) where
  known := by simp [sendErrorPacket]
  channel := rfl
  buffers := rfl
  httpHeaders := rfl
  method := rfl
  path := rfl
  version := rfl

theorem corresponds_ended (h : Same y x) :
    List.Forall₂ Corresponds y.sendEndOfRequestPacketIfRequestPending
      x.sendEndOfRequestPacketIfRequestPending := by
  rw [HttpRequestExtractor.sendEndOfRequestPacketIfRequestPending,
    sendEndOfRequestPacketIfRequestPending, h.mReceivedHeaders]
  cases y.mSentHeaders with
  | false => exact .nil
  | true => exact .cons (corresponds_id (by decide) y.mRequestId x.mRequestId []) .nil

/-! ### Lockstep -/

theorem Same.reset (h : Same y x) (random random' : ℕ → ℕ) :
    Same (y.reset random) (x.reset random') :=
  ⟨rfl, congrArg MemoryStream.clear h.mHeaderData, rfl, rfl⟩

/-- What has been pushed corresponds, and the states left agree. -/
def Together (p : List Push × HttpRequestExtractor) (q : List Push × HttpResponseExtractor) :
    Prop :=
  List.Forall₂ Corresponds p.1 q.1 ∧ Same p.2 q.2

theorem together_handleBody (h : Same y x) (random random' : ℕ → ℕ) (b : Buffer) :
    Together (y.handleBody random b) (x.handleBody random' b) := by
  unfold HttpRequestExtractor.handleBody handleBody
  rw [h.mBodyLength, h.mSentBodyDataByteCount]
  by_cases hlast : y.mBodyLength ≠ sizeMax ∧
      b.length ≤ sizeSub y.mBodyLength y.mSentBodyDataByteCount
  · simp only [if_pos hlast]
    exact ⟨.cons (corresponds_id (by decide) _ _ _) (corresponds_ended h), h.reset random random'⟩
  · simp only [if_neg hlast]
    exact ⟨.cons (corresponds_id (by decide) _ _ _) .nil, h⟩

/-- The header parts end alike. -/
structure SameAttempt (a : HttpRequestExtractor.Attempt) (a' : Attempt) : Prop where
  together : Together (a.pushes, a.extractor) (a'.pushes, a'.extractor)
  thrown : a'.thrown = a.thrown

theorem sameAttempt_handleHeaders (h : Same y x) (b : Buffer) :
    SameAttempt (y.handleHeaders b) (x.handleHeaders b) := by
  unfold HttpRequestExtractor.handleHeaders handleHeaders
  rw [h.mHeaderData]
  cases y.mHeaderData.append b with
  | error fault => exact ⟨⟨.nil, h⟩, rfl⟩
  | ok mHeaderData =>
    have hsame : Same { y with mHeaderData } { x with mHeaderData } :=
      ⟨h.mReceivedHeaders, rfl, h.mBodyLength, h.mSentBodyDataByteCount⟩
    simp only
    cases mHeaderData.firstIndexOfCString kDoubleCrLf kDoubleCrLfLength with
    | error fault => exact ⟨⟨.nil, hsame⟩, rfl⟩
    | ok found =>
      cases found with
      | none => exact ⟨⟨.nil, hsame⟩, rfl⟩
      | some headersEnd =>
        simp only
        have hhead := alike_createRequestPacket hsame headersEnd
        generalize HttpRequestExtractor.createRequestPacket _ headersEnd = code at hhead
        generalize createResponsePacket _ headersEnd = code' at hhead
        cases hhead with
        | error fault => exact ⟨⟨.nil, hsame⟩, rfl⟩
        | ok hhead =>
          simp only
          split_ifs
          · refine ⟨⟨.cons hhead.corresponds (.cons (corresponds_id (by decide) _ _ _) .nil), ?_⟩,
              rfl⟩
            exact ⟨rfl, rfl, h.mBodyLength, by rw [h.mSentBodyDataByteCount]⟩
          · exact ⟨⟨.cons hhead.corresponds .nil,
              ⟨rfl, rfl, h.mBodyLength, h.mSentBodyDataByteCount⟩⟩, rfl⟩

/-- **One packet.** -/
theorem alike_handlePacket (h : Same y x) (random random' : ℕ → ℕ) (packet : Packet) :
    Alike Together (y.handlePacket random packet) (x.handlePacket random' packet) := by
  unfold HttpRequestExtractor.handlePacket handlePacket
  cases packet.buffers with
  | nil => exact .error _
  | cons b bs =>
    rw [h.mReceivedHeaders]
    cases y.mSentHeaders with
    | true => exact .ok (together_handleBody h random random' b)
    | false =>
      obtain ⟨⟨hpushes, hsame⟩, hthrown⟩ := sameAttempt_handleHeaders h b
      simp only [Bool.false_eq_true, if_false, hthrown]
      cases (y.handleHeaders b).thrown with
      | none => exact .ok ⟨hpushes, hsame⟩
      | some fault =>
        cases fault with
        | exception what =>
          exact .ok ⟨List.rel_append hpushes (.cons (corresponds_error what) .nil), hsame⟩
        | nontermination => exact .error _
        | undefinedBehaviour => exact .error _

/-- **Any number of packets.** -/
theorem alike_run (h : Same y x) (random random' : ℕ → ℕ) (packets : List Packet) :
    Alike Together (y.run random packets) (x.run random' packets) := by
  induction packets generalizing y x with
  | nil => exact .ok ⟨.nil, h⟩
  | cons packet packets ih =>
    refine (alike_handlePacket h random random' packet).bind fun p q hpq => ?_
    refine (ih hpq.2).bind fun p' q' hpq' => ?_
    exact .ok ⟨List.rel_append hpq.1 hpq'.1, hpq'.2⟩

end

/-- **The two extractors are the same machine**: what they push corresponds one to one, up to their
destruction, whatever the packets are. -/
theorem corresponds_of_construct (random random' : ℕ → ℕ) {packets : List Packet}
    (hpackets : ∀ packet ∈ packets, HasFirstBuffer packet) :
    ∃ requests y responses x,
      (HttpRequestExtractor.construct random).run random packets = .ok (requests, y) ∧
      (construct random').run random' packets = .ok (responses, x) ∧
      List.Forall₂ Corresponds (requests ++ y.destroy) (responses ++ x.destroy) := by
  obtain ⟨requests, y, hrun, -⟩ := HttpRequestExtractor.blocks_run random hpackets
    (HttpRequestExtractor.progress_construct random) HttpRequestExtractor.Blocks.nil
  have hsame : Same (HttpRequestExtractor.construct random) (construct random') :=
    ⟨rfl, rfl, rfl, rfl⟩
  have halike := alike_run hsame random random' packets
  rw [hrun] at halike
  generalize hrun' : (construct random').run random' packets = code at halike
  cases halike with
  | @ok _ q hq =>
    exact ⟨requests, y, q.1, q.2, hrun, rfl, List.rel_append hq.1 (corresponds_ended hq.2)⟩

/-- A head that fails, after a null buffer. -/
theorem corresponds_of_construct_failed :
    ∃ requests y responses x,
      (HttpRequestExtractor.construct fun _ => 1).run (fun _ => 1)
          [{ buffers := [⟨none, 1⟩] },
            { buffers := [.ofBytes (bytes "a b c\r\nContent-Length: 1\r\n\r\n")] }] =
        .ok (requests, y) ∧
      (construct fun _ => 2).run (fun _ => 2)
          [{ buffers := [⟨none, 1⟩] },
            { buffers := [.ofBytes (bytes "a b c\r\nContent-Length: 1\r\n\r\n")] }] =
        .ok (responses, x) ∧
      List.Forall₂ Corresponds (requests ++ y.destroy) (responses ++ x.destroy) :=
  corresponds_of_construct (fun _ => 1) (fun _ => 2) (by decide)

end HttpResponseExtractor

end Maplang
