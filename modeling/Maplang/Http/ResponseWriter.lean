import Maplang.Http.MessageWriter
import Maplang.Http.ResponseExtractor

/-!
# Responses that are written and extracted

What `HttpResponseWriter` writes should come out of `HttpResponseExtractor` as it went in.  It does
not where a request would not, and besides, the extractor cuts the status reason at its first space.

## Main definitions

* `HttpResponseWriter.handlePacket`, `getDefaultReasonForHttpStatus` : the code.
* `SendsResponse`, `ReceivesResponse` : what goes in, and what should come out.
* `ResponseRoundTrip` : it does, wherever the bytes are cut.

## Main results

* `responseRoundTrip_iff` : it does for responses with one header, an empty body buffer, and a
  status reason of one word.
* `not_responseRoundTrip_badRequest` : the writer's own reason for the status code 400 is cut.
-/

namespace Maplang

open Http

namespace Http

def kHttpStatus_Continue : ℤ := 100
def kHttpStatus_Ok : ℤ := 200
def kHttpStatus_BadRequest : ℤ := 400

/-- `getDefaultReasonForHttpStatus`. -/
def getDefaultReasonForHttpStatus (status : ℤ) : ByteString :=
  if status = kHttpStatus_Continue then bytes "CONTINUE"
  else if status = kHttpStatus_Ok then bytes "OK"
  else if status = kHttpStatus_BadRequest then bytes "BAD REQUEST"
  else bytes "UNSPECIFIED"

/-- The first line of a response. -/
def statusLine (statusCode : ℕ) (statusReason : ByteString) : ByteString :=
  bytes "HTTP/1.1 " ++ bytes (toString statusCode) ++ bytes " " ++ statusReason

/-- The default reason, for a status code that is converted to a 32-bit `int`. -/
def defaultReason (statusCode : ℕ) : ByteString :=
  getDefaultReasonForHttpStatus (Int.bmod statusCode (2 ^ 32))

end Http

/-- `HttpResponseWriter::handlePacket`. -/
def HttpResponseWriter.handlePacket (factory : BufferFactory) (packet : Packet) : Code Push := do
  let statusCode ← (← packet.parameters.get kParameter_HttpStatusCode).getUInt64
  let statusReason ← match packet.parameters.find kParameter_HttpStatusReason with
    | some statusReason => statusReason.getString
    | none => .ok (defaultReason statusCode)
  writeMessage factory (statusLine statusCode statusReason) packet

/-- What is written for a response. -/
theorem HttpResponseWriter.handlePacket_eq (factory : BufferFactory) {packet : Packet}
    {statusCode : ℕ} {value : Json} {statusReason : Option ByteString}
    (hfind : packet.parameters.find kParameter_HttpStatusCode = some value)
    (hcode : value.getUInt64 = .ok statusCode)
    (hreason : packet.parameters.find kParameter_HttpStatusReason =
      statusReason.map Json.string) :
    HttpResponseWriter.handlePacket factory packet = writeMessage factory
      (statusLine statusCode (statusReason.getD (defaultReason statusCode))) packet := by
  simp only [HttpResponseWriter.handlePacket, Json.get_of_find hfind, hcode, hreason, bind,
    Except.bind]
  cases statusReason with
  | none => rw [Option.getD_none, Option.map_none]
  | some reason => simp only [Option.getD_some, Option.map_some, Json.getString]

/-- The packet asks for a response. -/
structure SendsResponse (packet : Packet) (statusCode : ℕ) (statusReason : Option ByteString)
    (headers : List (ByteString × ByteString)) (body : Option ByteString) : Prop
    extends Sends packet headers body where
  httpStatusCode : ∃ value, packet.parameters.find kParameter_HttpStatusCode = some value ∧
    value.getUInt64 = .ok statusCode
  httpStatusReason :
    packet.parameters.find kParameter_HttpStatusReason = statusReason.map Json.string
  statusReason : ∀ reason ∈ statusReason, Trimmed reason ∧ ∀ c ∈ reason, c ∉ crLf

namespace HttpResponseExtractor

open HttpRequestExtractor (bodyData bodyPush contentLengthWhat)

/-- The header packets. -/
def newResponses (pushes : List Push) : List Packet :=
  (pushes.filter (·.channel = "Reponse Headers Received")).map Push.packet

/-- The pushes of an extractor that has received a response. -/
structure ReceivesResponse (pushes : List Push) (statusCode : ℕ) (statusReason : ByteString)
    (headers : List (ByteString × ByteString)) (body : ByteString) : Prop where
  response : ∃ response httpHeaders, newResponses pushes = [response] ∧
    response.parameters.find kParameter_HttpStatusCode =
      some (.string (bytes (toString statusCode))) ∧
    response.parameters.find kParameter_HttpStatusReason = some (.string statusReason) ∧
    response.parameters.find kParameter_HttpHeaders = some httpHeaders ∧
    SameHeaders httpHeaders (sentHeaders headers body)
  body : bodyData pushes = body
  noError : ∀ push ∈ pushes, push.channel ≠ "error"

/-- The bytes that are pushed, however they are cut, are received as the response. -/
def ResponseRoundTrip (random : ℕ → ℕ) (push : Push) (statusCode : ℕ)
    (statusReason : Option ByteString) (headers : List (ByteString × ByteString))
    (body : Option ByteString) : Prop :=
  push.channel = "Http Data" ∧
  ∀ packets : List Packet, (∀ packet ∈ packets, HasBuffer packet) →
    received packets = MemoryStream.bytesOf push.packet.buffers →
    ∃ pushes x, (construct random).run random packets = .ok (pushes, x) ∧
      ReceivesResponse pushes statusCode (statusReason.getD (defaultReason statusCode)) headers
        (body.getD [])

/-! ### The status line -/

section

variable {random : ℕ → ℕ} {packet : Packet} {statusCode : ℕ} {reason : ByteString}
  {headers headers' : List (ByteString × ByteString)} {body : ByteString}

theorem notMem_defaultReason (statusCode : ℕ) : ∀ c ∈ defaultReason statusCode, c ∉ crLf := by
  rw [defaultReason, getDefaultReasonForHttpStatus]
  split_ifs <;> exact forall_mem_of_all (by decide)

theorem notMem_reason {statusReason : Option ByteString} {body : Option ByteString}
    (h : SendsResponse packet statusCode statusReason headers body) :
    ∀ c ∈ statusReason.getD (defaultReason statusCode), c ∉ crLf := by
  cases hreason : statusReason with
  | none =>
    rw [Option.getD_none]
    exact notMem_defaultReason statusCode
  | some reason =>
    rw [Option.getD_some]
    exact (h.statusReason reason hreason).2

theorem isFirstLine_statusLine (statusCode : ℕ) (hreason : ∀ c ∈ reason, c ∉ crLf) :
    IsFirstLine (statusLine statusCode reason) := by
  have hlong : (bytes "HTTP/1.1 ").length = 9 := by decide
  constructor
  · simp only [statusLine, List.length_append, hlong]
    omega
  · simp only [statusLine, List.mem_append, not_or]
    have hcode : (13 : UInt8) ∉ bytes (toString statusCode) := fun hmem =>
      absurd (show 13 ∈ crLf by decide) (notMem_of_toString hmem (by decide))
    exact ⟨⟨⟨by decide, hcode⟩, by decide⟩, fun hmem => hreason 13 hmem (by decide)⟩

/-- The reason is cut at its spaces, too, and then the third token is not all of it. -/
theorem splitOn_statusLine (statusCode : ℕ) (reason : ByteString) :
    ∃ first rest, Search.splitOn (bytes " ") (statusLine statusCode reason) =
        bytes "HTTP/1.1" :: bytes (toString statusCode) :: first :: rest ∧
      (first = reason ↔ 32 ∉ reason) := by
  obtain ⟨first, rest, hreason, hfirst⟩ := Search.exists_splitOn_eq_cons 32 reason
  have hcode : (32 : UInt8) ∉ bytes (toString statusCode) := fun hmem =>
    absurd (show 32 ∈ bytes " " by decide) (notMem_of_toString hmem (by decide))
  refine ⟨first, rest, ?_, hfirst⟩
  rw [statusLine, show bytes "HTTP/1.1 " = bytes "HTTP/1.1" ++ [32] by decide,
    show bytes " " = [32] by decide, List.append_assoc, List.append_assoc, List.append_assoc,
    Search.splitOn_append (by decide), Search.splitOn_append hcode, hreason]

/-! ### What is received -/

/-- What a failed extractor pushes is no response. -/
theorem not_receivesResponse_of_errors {pushes : List Push}
    (h : ∀ push ∈ pushes, push = sendErrorPacket contentLengthWhat) :
    ¬ ReceivesResponse pushes statusCode reason headers body := by
  rintro ⟨⟨response, _, hresponses, -⟩, -, -⟩
  rw [newResponses, List.filter_eq_nil_iff.2 fun push hpush => by rw [h push hpush]; decide]
    at hresponses
  cases hresponses

theorem newResponses_body (block responseId : ByteString) (bodies : List Buffer) :
    newResponses (responsePush block responseId :: bodies.map (bodyPush responseId)) =
      [{ parameters := responseParameters block responseId }] := by
  have hnone : (bodies.map (bodyPush responseId)).filter
      (·.channel = "Reponse Headers Received") = [] :=
    List.filter_eq_nil_iff.2 fun push hpush => by
      obtain ⟨b, -, rfl⟩ := List.mem_map.1 hpush
      simp [bodyPush]
  rw [newResponses, List.filter_cons_of_pos (by simp [responsePush]), hnone]
  rfl

theorem bodyData_body (block responseId : ByteString) (bodies : List Buffer) :
    bodyData (responsePush block responseId :: bodies.map (bodyPush responseId)) =
      MemoryStream.bytesOf bodies := by
  rw [bodyData, List.filter_cons_of_neg (by simp [responsePush]),
    HttpRequestExtractor.filter_bodyPush, HttpRequestExtractor.flatten_bodyPush]

/-- What an extractor pushes that has found a response, in terms of the headers and the reason. -/
theorem receivesResponse_body_iff (statusCode : ℕ) (hreason : ∀ c ∈ reason, c ∉ crLf)
    (hmap : HeaderMap (sentHeaders headers body)) (hperm : headers'.Perm (sentHeaders headers body))
    {responseId : ByteString} {bodies : List Buffer} (hbodies : MemoryStream.bytesOf bodies = body)
    {block : ByteString}
    (hblock : block = (message (statusLine statusCode reason) headers' body).block) :
    ReceivesResponse (responsePush block responseId :: bodies.map (bodyPush responseId)) statusCode
      reason headers body ↔ OneHeader (sentHeaders headers body) ∧ 32 ∉ reason := by
  have hfirst := isFirstLine_statusLine statusCode hreason
  obtain ⟨first, rest, htokens, hcut⟩ := splitOn_statusLine statusCode reason
  rw [← headD_lines_message hfirst (hmap.perm hperm).onLines body, ← hblock] at htokens
  obtain ⟨-, hfindCode, hfindReason, hfindHeaders⟩ := find_headerParameters
    (a := kParameter_HttpVersion) (b := kParameter_HttpStatusCode)
    (c := kParameter_HttpStatusReason) block responseId (by decide) htokens
  have hsame := sameHeaders_iff hfirst hmap hperm body
  rw [← hblock] at hsame
  rw [← hsame, ← hcut]
  constructor
  · rintro ⟨⟨response, httpHeaders, hresponses, -, hfound, hheaders, hsame⟩, -, -⟩
    rw [newResponses_body] at hresponses
    obtain rfl := List.singleton_inj.1 hresponses
    simp only [responseParameters, hfindReason, hfindHeaders, Option.some.injEq,
      Json.string.injEq] at hfound hheaders
    rw [hheaders]
    exact ⟨hsame, hfound⟩
  · rintro ⟨hsame, rfl⟩
    refine ⟨⟨_, _, newResponses_body _ _ _, hfindCode, hfindReason, hfindHeaders, hsame⟩,
      (bodyData_body _ _ _).trans hbodies, fun push hpush => ?_⟩
    rcases List.mem_cons.1 hpush with rfl | hpush
    · simp [responsePush]
    · obtain ⟨b, -, rfl⟩ := List.mem_map.1 hpush
      simp [bodyPush]

/-- **When a message is received as it was sent.** -/
theorem receives_iff (statusCode : ℕ) (hreason : ∀ c ∈ reason, c ∉ crLf)
    (hmap : HeaderMap headers)
    (hlength : ∀ header ∈ headers, header.1 ≠ kHttpHeaderNormalized_ContentLength)
    (hperm : headers'.Perm (sentHeaders headers body)) {packets : List Packet}
    (hpackets : ∀ packet ∈ packets, HasBuffer packet)
    (hreceived :
      received packets = (message (statusLine statusCode reason) headers' body).encode) :
    (∃ pushes x, (construct random).run random packets = .ok (pushes, x) ∧
      ReceivesResponse pushes statusCode reason headers body) ↔
      body = [] ∧ OneHeader headers ∧ 32 ∉ reason := by
  have hfirst := isFirstLine_statusLine statusCode hreason
  have hsent := headerMap_sentHeaders hmap hlength body
  obtain ⟨pushes, x, hrun, hresponds⟩ := responds_of_lines random
    (hasLines_message hfirst (hsent.perm hperm).onLines) (four_le_message hfirst) hpackets hreceived
  rw [exists_ok_iff hrun, ← and_assoc, ← oneHeader_sentHeaders hlength]
  rcases hresponds with ⟨hlast, herrors⟩ | ⟨hlast, responseId, bodies, rfl, hbodies⟩
  · refine iff_of_false (not_receivesResponse_of_errors herrors) fun hone => ?_
    obtain ⟨header, hheader, hname⟩ := (contentLengthLast_iff hfirst hsent hperm hone.1.1).1 hlast
    exact hone.1.2 header hheader hname
  · rw [receivesResponse_body_iff statusCode hreason hsent hperm hbodies rfl]
    refine ⟨fun hone => ⟨⟨hone.1, fun header hheader hname => ?_⟩, hone.2⟩,
      fun hone => ⟨hone.1.1, hone.2⟩⟩
    exact hlast ((contentLengthLast_iff hfirst hsent hperm hone.1).2 ⟨header, hheader, hname⟩)

/-- The round trip of a response that is written, with a body buffer. -/
theorem roundTrip_iff (random : ℕ → ℕ) (factory : BufferFactory) {statusReason : Option ByteString}
    (h : SendsResponse packet statusCode statusReason headers (some body)) :
    factory.Ensures (HttpResponseWriter.handlePacket factory packet) fun push =>
      ResponseRoundTrip random push statusCode statusReason headers (some body) ↔
        body = [] ∧ OneHeader headers ∧ 32 ∉ statusReason.getD (defaultReason statusCode) := by
  obtain ⟨value, hvalue, hcode⟩ := h.httpStatusCode
  rw [HttpResponseWriter.handlePacket_eq factory hvalue hcode h.httpStatusReason]
  refine (writeMessage_spec factory _ h.toSends).imp ?_
  rintro push ⟨hchannel, headers', hperm, hbytes⟩
  refine (and_iff_right hchannel).trans (forall_cuts_iff fun packets hpackets hreceived => ?_)
  exact receives_iff statusCode (notMem_reason h) h.headerMap h.contentLength hperm hpackets
    (hreceived.trans hbytes)

end

/-- **When a response comes out as it went in.**  Unless there is no memory for it, a response is
written, and however its bytes are cut, it is received with its status code, status reason, headers
and body exactly if it has one header, with no white space around its name, a body buffer without
bytes, and a status reason, its own or the default one, without a space. -/
theorem responseRoundTrip_iff (random : ℕ → ℕ) (factory : BufferFactory) {packet : Packet}
    {statusCode : ℕ} {statusReason body : Option ByteString}
    {headers : List (ByteString × ByteString)}
    (h : SendsResponse packet statusCode statusReason headers body) :
    factory.Ensures (HttpResponseWriter.handlePacket factory packet) fun push =>
      ResponseRoundTrip random push statusCode statusReason headers body ↔
        body = some [] ∧ OneHeader headers ∧
          32 ∉ statusReason.getD (defaultReason statusCode) := by
  cases body with
  | none =>
    obtain ⟨value, hvalue, hcode⟩ := h.httpStatusCode
    rw [HttpResponseWriter.handlePacket_eq factory hvalue hcode h.httpStatusReason,
      writeMessage_nil factory _ h.toSends]
    refine .ok (iff_of_false (fun hround => ?_) (by simp))
    -- nothing is sent, so nothing is received
    obtain ⟨pushes, x, hrun, ⟨response, -, hresponses, -⟩, -⟩ := hround.2 [] (by simp) rfl
    obtain ⟨rfl, -⟩ := Prod.mk.inj (Except.ok.inj hrun)
    cases hresponses
  | some body =>
    rw [Option.some.injEq]
    exact roundTrip_iff random factory h

/-! ### Responses with a default reason -/

/-- The packet that asks for a response without body bytes. -/
def statusPacket (statusCode : ℕ) : Packet where
  parameters := .object [(kParameter_HttpHeaders, headersJson [(bytes "host", bytes "a")]),
    (kParameter_HttpStatusCode, .numberUnsigned statusCode)]
  buffers := [.ofBytes []]

theorem sendsResponse_status (statusCode : ℕ) : SendsResponse (statusPacket statusCode) statusCode
    none [(bytes "host", bytes "a")] (some []) where
  httpHeaders := rfl
  headerMap := headerMap_host
  contentLength := by decide
  body := rfl
  valid := by
    intro buffer hbuffer
    obtain rfl : .ofBytes [] = buffer := Option.some.inj hbuffer
    decide
  httpStatusCode := ⟨.numberUnsigned statusCode, rfl, rfl⟩
  httpStatusReason := rfl
  statusReason := by simp

/-- A response with the status code 200 arrives. -/
theorem responseRoundTrip_iff_ok :
    BufferFactory.zeros.Ensures (HttpResponseWriter.handlePacket .zeros (statusPacket 200))
      fun push => ResponseRoundTrip (fun _ => 0) push 200 none [(bytes "host", bytes "a")]
        (some []) :=
  (responseRoundTrip_iff (fun _ => 0) .zeros (sendsResponse_status 200)).imp
    fun _ hiff => hiff.2 ⟨rfl, ⟨_, rfl, by decide⟩, by decide⟩

/-- **The writer's own reason for the status code 400 is cut.** -/
theorem not_responseRoundTrip_badRequest :
    ¬ ∀ packet statusCode statusReason headers body,
      SendsResponse packet statusCode statusReason headers body →
      BufferFactory.zeros.Ensures (HttpResponseWriter.handlePacket .zeros packet) fun push =>
        ResponseRoundTrip (fun _ => 0) push statusCode statusReason headers body := by
  intro h
  have hsends := sendsResponse_status 400
  have hwritten : ∃ push,
      HttpResponseWriter.handlePacket .zeros (statusPacket 400) = .ok push := ⟨_, rfl⟩
  obtain ⟨push, hpush⟩ := hwritten
  rcases h _ _ _ _ _ hsends with ⟨push', hpush', hround⟩ | ⟨_, _, -, hthrown⟩
  · rcases roundTrip_iff (fun _ => 0) .zeros hsends with
      ⟨push'', hpush'', hiff⟩ | ⟨_, _, -, hthrown⟩
    · obtain rfl := Except.ok.inj (hpush'.symm.trans hpush'')
      exact absurd (hiff.1 hround).2.2 (by decide)
    · cases hpush.symm.trans hthrown
  · cases hpush.symm.trans hthrown

end HttpResponseExtractor

end Maplang
