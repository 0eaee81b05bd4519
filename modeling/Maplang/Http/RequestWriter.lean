import Maplang.Http.MessageWriter

/-!
# Requests that are written and extracted

What `HttpRequestHeaderWriter` writes should come out of `HttpRequestExtractor` as it went in.  The
writer makes a packet with no bytes if there is no body buffer, and the extractor keeps one header
only and fails at a content length.

## Main definitions

* `HttpRequestHeaderWriter.handlePacket` : the code.
* `SendsRequest`, `ReceivesRequest` : what goes in, and what should come out.
* `RequestRoundTrip` : it does, wherever the bytes are cut.

## Main results

* `requestRoundTrip_iff` : it does for requests with one header and an empty body buffer.
* `not_requestRoundTrip_bodiless` : a request without a body buffer does not arrive.
-/

namespace Maplang

open Http

/-- `HttpRequestHeaderWriter::handlePacket`. -/
def HttpRequestHeaderWriter.handlePacket (factory : BufferFactory) (packet : Packet) :
    Code Push := do
  let method ← (← packet.parameters.get kParameter_HttpMethod).getString
  let path ← (← packet.parameters.get kParameter_HttpPath).getString
  writeMessage factory (method ++ bytes " " ++ path ++ bytes " HTTP/1.1") packet

/-- What is written for a request. -/
theorem HttpRequestHeaderWriter.handlePacket_eq (factory : BufferFactory) {packet : Packet}
    {method path : ByteString}
    (hmethod : packet.parameters.find kParameter_HttpMethod = some (.string method))
    (hpath : packet.parameters.find kParameter_HttpPath = some (.string path)) :
    HttpRequestHeaderWriter.handlePacket factory packet =
      writeMessage factory (method ++ bytes " " ++ path ++ bytes " HTTP/1.1") packet := by
  simp only [HttpRequestHeaderWriter.handlePacket, Json.get_of_find hmethod,
    Json.get_of_find hpath, Json.getString, bind, Except.bind]

/-- A method or a path. -/
def IsToken (token : ByteString) : Prop := token ≠ [] ∧ ∀ c ∈ token, c ∉ bytes " \r\n"

/-- The packet asks for a request. -/
structure SendsRequest (packet : Packet) (method path : ByteString)
    (headers : List (ByteString × ByteString)) (body : Option ByteString) : Prop
    extends Sends packet headers body where
  httpMethod : packet.parameters.find kParameter_HttpMethod = some (.string method)
  method : IsToken method
  httpPath : packet.parameters.find kParameter_HttpPath = some (.string path)
  path : IsToken path

open HttpRequestExtractor

/-- The pushes of an extractor that has received a request. -/
structure ReceivesRequest (pushes : List Push) (method path : ByteString)
    (headers : List (ByteString × ByteString)) (body : ByteString) : Prop where
  request : ∃ request httpHeaders, newRequests pushes = [request] ∧
    request.parameters.find kParameter_HttpMethod = some (.string method) ∧
    request.parameters.find kParameter_HttpPath = some (.string path) ∧
    request.parameters.find kParameter_HttpHeaders = some httpHeaders ∧
    SameHeaders httpHeaders (sentHeaders headers body)
  body : bodyData pushes = body
  noError : ∀ push ∈ pushes, push.channel ≠ "error"

/-- The bytes that are pushed, however they are cut, are received as the request. -/
def RequestRoundTrip (random : ℕ → ℕ) (push : Push) (method path : ByteString)
    (headers : List (ByteString × ByteString)) (body : Option ByteString) : Prop :=
  push.channel = "Http Data" ∧
  ∀ packets : List Packet, (∀ packet ∈ packets, HasBuffer packet) →
    received packets = MemoryStream.bytesOf push.packet.buffers →
    ∃ pushes x, (construct random).run random packets = .ok (pushes, x) ∧
      ReceivesRequest pushes method path headers (body.getD [])

section

variable {random : ℕ → ℕ} {packet : Packet} {method path : ByteString}
  {headers headers' : List (ByteString × ByteString)} {body : ByteString}

theorem isFirstLine_request (hmethod : IsToken method) (hpath : IsToken path) :
    IsFirstLine (method ++ bytes " " ++ path ++ bytes " HTTP/1.1") := by
  have hlong : (bytes " HTTP/1.1").length = 9 := by decide
  constructor
  · rw [List.length_append, hlong]
    omega
  · simp only [List.mem_append, not_or]
    exact ⟨⟨⟨fun hmem => hmethod.2 13 hmem (by decide), by decide⟩,
      fun hmem => hpath.2 13 hmem (by decide)⟩, by decide⟩

/-- The first line is cut into its three tokens. -/
theorem splitOn_requestLine (hmethod : IsToken method) (hpath : IsToken path) :
    Search.splitOn (bytes " ") (method ++ bytes " " ++ path ++ bytes " HTTP/1.1") =
      [method, path, bytes "HTTP/1.1"] := by
  have hspace : bytes " " = [32] := by decide
  have hjoined : method ++ bytes " " ++ path ++ bytes " HTTP/1.1" =
      [32].intercalate [method, path, bytes "HTTP/1.1"] := by
    rw [show bytes " HTTP/1.1" = [32] ++ bytes "HTTP/1.1" by decide, hspace]
    simp [List.intercalate]
  rw [hjoined, hspace]
  refine Search.splitOn_intercalate (List.cons_ne_nil _ _) ?_
  simp only [List.forall_mem_cons, List.not_mem_nil, false_implies, implies_true, and_true]
  exact ⟨fun hmem => hmethod.2 32 hmem (by decide), fun hmem => hpath.2 32 hmem (by decide),
    by decide⟩

/-- What a failed extractor pushes is no request. -/
theorem not_receivesRequest_of_errors {pushes : List Push}
    (h : ∀ push ∈ pushes, push = sendErrorPacket contentLengthWhat) :
    ¬ ReceivesRequest pushes method path headers body := by
  rintro ⟨⟨request, _, hrequests, -⟩, -, -⟩
  rw [newRequests_errors h] at hrequests
  cases hrequests

/-- What an extractor pushes that has found a request, in terms of the headers. -/
theorem receivesRequest_body_iff (hmethod : IsToken method) (hpath : IsToken path)
    (hmap : HeaderMap (sentHeaders headers body)) (hperm : headers'.Perm (sentHeaders headers body))
    {requestId : ByteString} {bodies : List Buffer} (hbodies : MemoryStream.bytesOf bodies = body)
    {block : ByteString} (hblock : block = (message (method ++ bytes " " ++ path ++
      bytes " HTTP/1.1") headers' body).block) :
    ReceivesRequest (requestPush block requestId :: bodies.map (bodyPush requestId)) method path
      headers body ↔ OneHeader (sentHeaders headers body) := by
  have hfirst := isFirstLine_request hmethod hpath
  have htokens := splitOn_requestLine hmethod hpath
  rw [← headD_lines_message hfirst (hmap.perm hperm).onLines body, ← hblock] at htokens
  obtain ⟨hfindMethod, hfindPath, -, hfindHeaders⟩ := find_headerParameters
    (a := kParameter_HttpMethod) (b := kParameter_HttpPath) (c := kParameter_HttpVersion)
    block requestId (by decide) htokens
  rw [← requestParameters] at hfindMethod hfindPath hfindHeaders
  have hsame := sameHeaders_iff hfirst hmap hperm body
  rw [← hblock] at hsame
  rw [← hsame]
  constructor
  · rintro ⟨⟨request, httpHeaders, hrequests, -, -, hheaders, hsame⟩, -, -⟩
    rw [newRequests_body] at hrequests
    obtain rfl := List.singleton_inj.1 hrequests
    rw [hfindHeaders] at hheaders
    rwa [Option.some.inj hheaders]
  · intro hsame
    refine ⟨⟨_, _, newRequests_body _ _, hfindMethod, hfindPath, hfindHeaders, hsame⟩,
      (bodyData_body _ _).trans hbodies, fun push hpush => ?_⟩
    rcases List.mem_cons.1 hpush with rfl | hpush
    · simp [requestPush]
    · obtain ⟨b, -, rfl⟩ := List.mem_map.1 hpush
      simp [bodyPush]

/-- **When a message is received as it was sent.** -/
theorem receives_iff (hmethod : IsToken method) (hpath : IsToken path)
    (hmap : HeaderMap headers)
    (hlength : ∀ header ∈ headers, header.1 ≠ kHttpHeaderNormalized_ContentLength)
    (hperm : headers'.Perm (sentHeaders headers body)) {packets : List Packet}
    (hpackets : ∀ packet ∈ packets, HasBuffer packet)
    (hreceived : received packets = (message (method ++ bytes " " ++ path ++ bytes " HTTP/1.1")
      headers' body).encode) :
    (∃ pushes x, (construct random).run random packets = .ok (pushes, x) ∧
      ReceivesRequest pushes method path headers body) ↔ body = [] ∧ OneHeader headers := by
  have hfirst := isFirstLine_request hmethod hpath
  have hsent := headerMap_sentHeaders hmap hlength body
  have hmap' := hsent.perm hperm
  obtain ⟨pushes, x, hrun, hprogress⟩ := progress_of_construct random hpackets
  rw [hreceived, ← List.append_nil (message _ _ _).encode] at hprogress
  rw [exists_ok_iff hrun, ← oneHeader_sentHeaders hlength]
  have hlines := @hasLines_message _ _ body hfirst hmap'.onLines
  rcases progress_of_lines hlines (four_le_message hfirst) hprogress with
    ⟨hlast, -, herrors⟩ | ⟨hlast, -, -, bodies, rfl, hbodies⟩
  · refine iff_of_false (not_receivesRequest_of_errors herrors) fun hone => ?_
    obtain ⟨header, hheader, hname⟩ := (contentLengthLast_iff hfirst hsent hperm hone.1).1 hlast
    exact hone.2 header hheader hname
  · rw [List.append_nil] at hbodies
    rw [receivesRequest_body_iff hmethod hpath hsent hperm hbodies rfl]
    refine ⟨fun hone => ⟨hone, fun header hheader hname => ?_⟩, And.left⟩
    exact hlast ((contentLengthLast_iff hfirst hsent hperm hone).2 ⟨header, hheader, hname⟩)

/-- **When a request comes out as it went in.**  Unless there is no memory for it, a request is
written, and however its bytes are cut, it is received with its method, path, headers and body
exactly if it has one header, with no white space around its name, and a body buffer without
bytes. -/
theorem requestRoundTrip_iff (random : ℕ → ℕ) (factory : BufferFactory) {body : Option ByteString}
    (h : SendsRequest packet method path headers body) :
    factory.Ensures (HttpRequestHeaderWriter.handlePacket factory packet) fun push =>
      RequestRoundTrip random push method path headers body ↔
        body = some [] ∧ OneHeader headers := by
  rw [HttpRequestHeaderWriter.handlePacket_eq factory h.httpMethod h.httpPath]
  cases body with
  | none =>
    rw [writeMessage_nil factory _ h.toSends]
    refine .ok (iff_of_false (fun hround => ?_) (by simp))
    -- nothing is sent, so nothing is received
    obtain ⟨pushes, x, hrun, ⟨request, -, hrequests, -⟩, -⟩ := hround.2 [] (by simp) rfl
    obtain ⟨rfl, -⟩ := Prod.mk.inj (Except.ok.inj hrun)
    cases hrequests
  | some body =>
    refine (writeMessage_spec factory _ h.toSends).imp ?_
    rintro push ⟨hchannel, headers', hperm, hbytes⟩
    rw [Option.some.injEq]
    refine (and_iff_right hchannel).trans (forall_cuts_iff fun packets hpackets hreceived => ?_)
    exact receives_iff h.method h.path h.headerMap h.contentLength hperm hpackets
      (hreceived.trans hbytes)

end

/-! ### A request for a path -/

/-- The packet that asks for it. -/
def getPacket (buffers : List Buffer) : Packet where
  parameters := .object [(kParameter_HttpHeaders, headersJson [(bytes "host", bytes "a")]),
    (kParameter_HttpMethod, .string (bytes "GET")), (kParameter_HttpPath, .string (bytes "/"))]
  buffers := buffers

theorem sendsRequest_get (buffer : Option Buffer) (hvalid : ∀ b ∈ buffer, b.Valid) :
    SendsRequest (getPacket buffer.toList) (bytes "GET") (bytes "/") [(bytes "host", bytes "a")]
      (buffer.map Buffer.contents) where
  httpHeaders := rfl
  headerMap := headerMap_host
  contentLength := by decide
  body := by cases buffer <;> rfl
  valid := by
    cases buffer with
    | none => simp [getPacket]
    | some b => simpa [getPacket] using hvalid
  httpMethod := by rfl
  method := ⟨by decide, forall_mem_of_all (by decide)⟩
  httpPath := by rfl
  path := ⟨by decide, forall_mem_of_all (by decide)⟩

/-- With an empty body buffer the request arrives. -/
theorem requestRoundTrip_iff_get :
    BufferFactory.zeros.Ensures
      (HttpRequestHeaderWriter.handlePacket .zeros (getPacket [.ofBytes []])) fun push =>
        RequestRoundTrip (fun _ => 0) push (bytes "GET") (bytes "/") [(bytes "host", bytes "a")]
          (some []) :=
  (requestRoundTrip_iff (fun _ => 0) .zeros (sendsRequest_get (some (.ofBytes [])) (by decide))).imp
    fun _ hiff => hiff.2 ⟨rfl, _, rfl, by decide⟩

/-- **A request without a body buffer does not arrive.** -/
theorem not_requestRoundTrip_bodiless :
    ¬ ∀ packet method path headers body, SendsRequest packet method path headers body →
      BufferFactory.zeros.Ensures (HttpRequestHeaderWriter.handlePacket .zeros packet) fun push =>
        RequestRoundTrip (fun _ => 0) push method path headers body := by
  intro h
  have hget := h _ _ _ _ _ (sendsRequest_get none (by simp))
  have hwritten : HttpRequestHeaderWriter.handlePacket .zeros (getPacket []) =
      .ok { packet := {}, channel := "Http Data" } := by
    rfl
  rcases hget with ⟨push, hpush, hround⟩ | ⟨_, _, -, hthrown⟩
  · cases hwritten.symm.trans hpush
    obtain ⟨pushes, x, hrun, ⟨request, -, hrequests, -⟩, -⟩ := hround.2 [] (by simp) rfl
    obtain ⟨rfl, -⟩ := Prod.mk.inj (Except.ok.inj hrun)
    cases hrequests
  · cases hwritten.symm.trans hthrown

end Maplang
