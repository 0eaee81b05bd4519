import Maplang.Graph.Parameters
import Maplang.Http.ResponseWriter
import Maplang.Tcp.Basic

/-!
# The response of the IP echo demo

A New Request packet goes to `HttpResponseWithAddressAsBody`, its response to `HttpResponseWriter`,
and the bytes of that to the Sender of the TCP group.  Neither of them says which connection the
bytes are for: the id comes along with the parameters, which each push takes from the packet that
its node has received.

* `HttpResponseWithAddressAsBody.handlePacket` : the code.
* `passOn` : what a push comes to the next node as.
* `answer_spec` : **the response to a request** names the connection of the request, and its body is
  the remote address.
-/

namespace Maplang

open Http Tcp

def Http.kHttpHeaderNormalized_ContentType : ByteString := bytes "content-type"

/-- `HttpResponseWithAddressAsBody::handlePacket`. -/
def HttpResponseWithAddressAsBody.handlePacket (factory : BufferFactory) (incomingPacket : Packet) :
    Code Push := do
  let address ← match incomingPacket.parameters.find kParameter_RemoteAddress with
    | some address => address.getString
    | none => .ok (bytes "unknown")
  let body ← factory.Create address.length
  let memory ← memcpy body.memory 0 address (min address.length body.length)
  let httpHeaders ← Json.null.set kHttpHeaderNormalized_ContentType (.string (bytes "text/plain"))
  let parameters ← incomingPacket.parameters.set kParameter_HttpHeaders httpHeaders
  let parameters ← parameters.set kParameter_HttpStatusCode (.numberInteger kHttpStatus_Ok)
  return { packet := { parameters, buffers := [{ body with data := some memory }] }
           channel := "On Response" }

namespace IpEcho

/-- What a push comes to the next node as, when the node that pushes has received a packet. -/
def passOn (received : Packet) (push : Push) : Code Packet := do
  let parameters ← accumulate (some received.parameters) push.packet.parameters
  return { push.packet with parameters }

/-- What comes to the Sender for a New Request packet, which is pushed when a packet with data has
been received. -/
def answer (factory : BufferFactory) (received : Packet) (newRequest : Push) : Code Packet := do
  let request ← passOn received newRequest
  let response ← passOn request (← HttpResponseWithAddressAsBody.handlePacket factory request)
  passOn response (← HttpResponseWriter.handlePacket factory response)

/-- The headers that `HttpResponseWithAddressAsBody` sets. -/
def textHeaders : List (ByteString × ByteString) :=
  [(kHttpHeaderNormalized_ContentType, bytes "text/plain")]

/-- The bytes that are written for an address. -/
def responseText (address : ByteString) : ByteString :=
  headText (statusLine 200 (bytes "OK")) (sentHeaders textHeaders address) ++ address

example : responseText (bytes "127.0.0.1") =
    bytes "HTTP/1.1 200 OK\r\ncontent-length: 9\r\ncontent-type: text/plain\r\n\r\n127.0.0.1" := by
  decide

/-! ### The parameters -/

/-- The parameters of a push are merged with those that have been received. -/
theorem passOn_spec {received : Packet} {push : Push}
    (hreceived : received.parameters.isObject = true)
    (hpushed : push.packet.parameters.isNull = true ∨ push.packet.parameters.isObject = true) :
    ∃ packet, passOn received push = .ok packet ∧ packet.buffers = push.packet.buffers ∧
      packet.parameters.isObject = true ∧ ∀ key, packet.parameters.find key =
        (push.packet.parameters.find key).or (received.parameters.find key) := by
  obtain ⟨merged, hmerged, hobject, hfind⟩ := accumulate_object hreceived hpushed
  refine ⟨{ push.packet with parameters := merged }, ?_, rfl, hobject, hfind⟩
  rw [passOn, hmerged]
  rfl

/-- A New Request packet says nothing about the connection. -/
theorem find_requestParameters_of_ne (block requestId : ByteString) {key : ByteString}
    (hkey : key ∉ [kParameter_HttpHeaders, kParameter_HttpMethod, kParameter_HttpPath,
      kParameter_HttpVersion, kParameter_HttpRequestId]) :
    (requestParameters block requestId).find key = none := by
  simp only [List.mem_cons, List.not_mem_nil, or_false, not_or] at hkey
  obtain ⟨hheaders, hmethod, hpath, hversion, hid⟩ := hkey
  have hnames : ∀ t ∈ [kParameter_HttpMethod, kParameter_HttpPath, kParameter_HttpVersion].zip
      (Search.splitOn (bytes " ") ((lines block).headD [])), t.1 ≠ key := by
    intro t ht heq
    have hmem := (List.of_mem_zip ht).1
    simp only [List.mem_cons, List.not_mem_nil, or_false, heq] at hmem
    rcases hmem with hmem | hmem | hmem
    · exact hmethod hmem
    · exact hpath hmem
    · exact hversion hmem
  rw [requestParameters, headerParameters, Json.find_object, Json.lookup_setMember, if_neg hid,
    Json.lookup_setMembers _ hnames, Json.lookup_cons, if_neg hheaders]
  rfl

/-- What `HttpResponseWithAddressAsBody` pushes for a packet with an address. -/
structure RespondsTo (received : Packet) (address : ByteString) (push : Push) : Prop where
  isObject : push.packet.parameters.isObject = true
  httpHeaders : push.packet.parameters.find kParameter_HttpHeaders = some (headersJson textHeaders)
  httpStatusCode : push.packet.parameters.find kParameter_HttpStatusCode =
    some (.numberInteger kHttpStatus_Ok)
  others : ∀ key, key ≠ kParameter_HttpHeaders → key ≠ kParameter_HttpStatusCode →
    push.packet.parameters.find key = received.parameters.find key
  body : ∃ buffer, push.packet.buffers = [buffer] ∧ buffer.Valid ∧ buffer.contents = address

/-- **The response has the address as its body**, and the other parameters stay. -/
theorem respondsTo_handlePacket (factory : BufferFactory) {received : Packet} {address : ByteString}
    (hobject : received.parameters.isObject = true)
    (haddress : received.parameters.find kParameter_RemoteAddress = some (.string address)) :
    factory.Ensures (HttpResponseWithAddressAsBody.handlePacket factory received)
      (RespondsTo received address) := by
  obtain ⟨members, hmembers⟩ := Json.isObject_iff.1 hobject
  have hread : HttpResponseWithAddressAsBody.handlePacket factory received =
      factory.Create address.length >>= fun body => do
        let memory ← memcpy body.memory 0 address (min address.length body.length)
        let httpHeaders ←
          Json.null.set kHttpHeaderNormalized_ContentType (.string (bytes "text/plain"))
        let parameters ← received.parameters.set kParameter_HttpHeaders httpHeaders
        let parameters ← parameters.set kParameter_HttpStatusCode (.numberInteger kHttpStatus_Ok)
        return { packet := { parameters, buffers := [{ body with data := some memory }] }
                 channel := "On Response" } := by
    rw [HttpResponseWithAddressAsBody.handlePacket, haddress]
    rfl
  rw [hread]
  refine (factory.ensures_create _).bind fun body _ hbody => ?_
  have hmemory : body.memory.length = address.length := by
    rw [hbody.2.length_memory, hbody.1]
  have hcopy : memcpy body.memory 0 address (min address.length body.length) = .ok address := by
    rw [hbody.1, min_self, memcpy, if_neg (by omega), List.take_zero, List.nil_append,
      List.take_length, Nat.zero_add, List.drop_eq_nil_of_le hmemory.le, List.append_nil]
  rw [hcopy, hmembers]
  refine .ok ⟨rfl, ?_, ?_, fun key hheaders hstatus => ?_, ?_⟩
  · rw [Json.find_object, Json.lookup_setMember, if_neg (by decide), Json.lookup_setMember,
      if_pos rfl]
    rfl
  · rw [Json.find_object, Json.lookup_setMember, if_pos rfl]
  · rw [Json.find_object, Json.lookup_setMember, if_neg hstatus, Json.lookup_setMember,
      if_neg hheaders, hmembers, Json.find_object]
  · refine ⟨{ body with data := some address }, rfl, hbody.1.le, ?_⟩
    rw [Buffer.contents, hbody.1]
    exact List.take_length

/-! ### The bytes -/

/-- The headers of the response, in the order in which they are written. -/
theorem setContentLength_textHeaders {buffer : Buffer} (hvalid : buffer.Valid) :
    setContentLength (headersJson textHeaders) [buffer] =
      .ok (headersJson (sentHeaders textHeaders buffer.contents)) := by
  rw [sentHeaders, Buffer.length_contents hvalid]
  by_cases hlength : 0 < buffer.length
  · rw [if_pos hlength, setContentLength, List.head?_cons, Option.map_some, Option.getD_some,
      if_pos hlength]
    rfl
  · rw [if_neg hlength, setContentLength, List.head?_cons, Option.map_some, Option.getD_some,
      if_neg hlength]
    rfl

/-- **What is written** for a response with an address. -/
theorem written_of_respondsTo (factory : BufferFactory) {packet : Packet} {address : ByteString}
    (hheaders : packet.parameters.find kParameter_HttpHeaders = some (headersJson textHeaders))
    (hcode : packet.parameters.find kParameter_HttpStatusCode =
      some (.numberInteger kHttpStatus_Ok))
    (hreason : packet.parameters.find kParameter_HttpStatusReason = none)
    (hbody : ∃ buffer, packet.buffers = [buffer] ∧ buffer.Valid ∧ buffer.contents = address) :
    factory.Ensures (HttpResponseWriter.handlePacket factory packet) fun push =>
      push.packet.parameters.isNull = true ∧
        ∃ written, push.packet.buffers = [written] ∧ written.contents = responseText address := by
  obtain ⟨buffer, hbuffers, hvalid, rfl⟩ := hbody
  have hhead : writeHead (statusLine 200 (bytes "OK")) packet = .ok (headText
      (statusLine 200 (bytes "OK")) (sentHeaders textHeaders buffer.contents)) := by
    simp only [writeHead, Json.get_of_find hheaders, hbuffers, setContentLength_textHeaders hvalid,
      writeHeaders_spec, bind, Except.bind]
    rfl
  have hdefault : packet.parameters.find kParameter_HttpStatusReason =
      (none : Option ByteString).map Json.string := hreason
  rw [HttpResponseWriter.handlePacket_eq factory hcode rfl hdefault, Option.getD_none,
    show defaultReason _ = bytes "OK" by decide]
  refine (writeMessage_of_head factory (fun b hb => ?_) hhead).imp fun push hpush => ?_
  · rw [hbuffers] at hb
    obtain rfl := Option.some.inj hb
    exact hvalid
  · rw [hbuffers] at hpush
    obtain ⟨-, hnull, written, hwritten, -, hcontents⟩ := hpush
    exact ⟨by rw [hnull]; rfl, written, hwritten, hcontents⟩

/-- **The response to a request**: it is for the connection that the request has come on, and its
body is the remote address. -/
theorem answer_spec (factory : BufferFactory) {received : Packet}
    {connectionId address : ByteString} (block requestId : ByteString)
    (hobject : received.parameters.isObject = true)
    (hid : received.parameters.find kParameter_TcpConnectionId = some (.string connectionId))
    (haddress : received.parameters.find kParameter_RemoteAddress = some (.string address))
    (hreason : received.parameters.find kParameter_HttpStatusReason = none) :
    factory.Ensures (answer factory received (HttpRequestExtractor.requestPush block requestId))
      fun sent => connectionIdOf sent = .ok connectionId ∧
        ∃ written, sent.buffers = [written] ∧ written.contents = responseText address := by
  -- the parameters of the connection come to all nodes
  let newRequest := HttpRequestExtractor.requestPush block requestId
  have hnewRequest : newRequest.packet.parameters.isObject = true := rfl
  obtain ⟨request, hrequest, -, hrequestObject, hfind⟩ := passOn_spec hobject (.inr hnewRequest)
  have hkept : ∀ key, key ∉ [kParameter_HttpHeaders, kParameter_HttpMethod, kParameter_HttpPath,
      kParameter_HttpVersion, kParameter_HttpRequestId] →
      request.parameters.find key = received.parameters.find key := fun key hkey => by
    have hnone : newRequest.packet.parameters.find key = none :=
      find_requestParameters_of_ne block requestId hkey
    rw [hfind, hnone, Option.none_or]
  rw [answer, hrequest]
  refine (respondsTo_handlePacket factory hrequestObject
    ((hkept _ (by decide)).trans haddress)).bind fun push _ hresponds => ?_
  obtain ⟨response, hresponse, hbuffers, hresponseObject, hfind'⟩ :=
    passOn_spec hrequestObject (.inr hresponds.isObject)
  have hresponseKept : ∀ key, key ≠ kParameter_HttpHeaders → key ≠ kParameter_HttpStatusCode →
      response.parameters.find key = request.parameters.find key := fun key hne hne' => by
    rw [hfind', hresponds.others key hne hne', Option.or_self]
  rw [hresponse]
  have hresponseReason : response.parameters.find kParameter_HttpStatusReason = none := by
    rw [hresponseKept _ (by decide) (by decide), hkept _ (by decide), hreason]
  have hbody : ∃ buffer, response.buffers = [buffer] ∧ buffer.Valid ∧
      buffer.contents = address := by
    rw [hbuffers]
    exact hresponds.body
  refine (written_of_respondsTo factory ?_ ?_ hresponseReason hbody).bind fun httpData _ hwritten =>
    ?_
  · rw [hfind', hresponds.httpHeaders, Option.some_or]
  · rw [hfind', hresponds.httpStatusCode, Option.some_or]
  · obtain ⟨hnull, written, hbuffer, hcontents⟩ := hwritten
    obtain ⟨sent, hsent, hsentBuffers, -, hsentFind⟩ := passOn_spec hresponseObject (.inl hnull)
    rw [hsent]
    refine .ok ⟨?_, written, hsentBuffers.trans hbuffer, hcontents⟩
    have hnone : httpData.packet.parameters.find kParameter_TcpConnectionId = none := by
      cases hparameters : httpData.packet.parameters <;> rw [hparameters] at hnull <;> cases hnull
      rfl
    have hfound : sent.parameters.find kParameter_TcpConnectionId =
        some (.string connectionId) := by
      rw [hsentFind, hnone, Option.none_or, hresponseKept _ (by decide) (by decide),
        hkept _ (by decide), hid]
    rw [connectionIdOf, Json.get_of_find hfound]
    rfl

end IpEcho

end Maplang
