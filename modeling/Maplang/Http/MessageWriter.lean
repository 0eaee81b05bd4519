import Maplang.Http.Framing
import Maplang.Text.Digits

/-!
# Writing the headers and the body of a message

`HttpRequestHeaderWriter` and `HttpResponseWriter` write a first line of their own.  What comes
after it, the headers, an empty line and the body, both write in the same way.

## Main definitions

* `Http.writeHeaders`, `Http.writeMessage` : the code, from the first line on.
* `Http.HeaderMap` : the headers that a message may have.
* `Http.Sends` : the headers and the body that a packet asks for.

## Main results

* `writeMessage_spec` : the bytes of a message with a body buffer, and the headers in them.
* `writeMessage_nil` : without a body buffer, not even the headers are sent.
-/

namespace Maplang

namespace Json

/-- `erase(key)`. -/
def erase : Json → ByteString → Code Json
  | object members, key => .ok (object (members.filter fun m => m.1 ≠ key))
  | j, _ => throwJson "type_error" 307 ("cannot use erase() with " ++ j.typeName)

/-- The members that an iteration visits; it has no keys unless it visits an object. -/
def iterate : Json → Code (List (ByteString × Json))
  | null => .ok []
  | array [] => .ok []
  | object members => .ok members
  | _ => throwJson "invalid_iterator" 207 "cannot use key() for non-object iterators"

end Json

namespace Http

/-! ### The code -/

/-- The content length of a message is that of its body. -/
def setContentLength (httpHeaders : Json) (buffers : List Buffer) : Code Json :=
  let contentLength := (buffers.head?.map Buffer.length).getD 0
  if 0 < contentLength then
    httpHeaders.set kHttpHeaderNormalized_ContentLength (.string (bytes (toString contentLength)))
  else if (httpHeaders.find kHttpHeaderNormalized_ContentLength).isSome then
    httpHeaders.erase kHttpHeaderNormalized_ContentLength
  else .ok httpHeaders

/-- The line of one header, if it has a name. -/
def writeHeader (member : ByteString × Json) : Code ByteString :=
  if member.1 = [] then .ok []
  else do return member.1 ++ bytes ": " ++ (← member.2.getString) ++ crLf

/-- The loop over the headers. -/
def writeHeaders (httpHeaders : Json) : Code ByteString := do
  return (← (← httpHeaders.iterate).mapM writeHeader).flatten

/-- What both writers do once the first line is written. -/
def writeMessage (factory : BufferFactory) (firstLine : ByteString) (packet : Packet) :
    Code Push := do
  let httpHeaders ← packet.parameters.get kParameter_HttpHeaders
  let httpHeaders ← setContentLength httpHeaders packet.buffers
  let httpBytes := firstLine ++ crLf ++ (← writeHeaders httpHeaders) ++ crLf
  match packet.buffers with
  -- the bytes are copied to a packet only if there is a body buffer
  | [] => return { packet := {}, channel := "Http Data" }
  | buffer :: _ =>
    let body ← if buffer.Valid then .ok buffer.contents else .error .undefinedBehaviour
    let httpBytes := httpBytes ++ body
    let bodyBuffer ← factory.Create httpBytes.length
    let memory ← memcpy bodyBuffer.memory 0 httpBytes httpBytes.length
    return { packet := { buffers := [{ bodyBuffer with data := some memory }] }
             channel := "Http Data" }

/-- The head of a message, as `writeMessage` has it in `httpBytes` before the body. -/
def writeHead (firstLine : ByteString) (packet : Packet) : Code ByteString := do
  let httpHeaders ← packet.parameters.get kParameter_HttpHeaders
  let httpHeaders ← setContentLength httpHeaders packet.buffers
  return firstLine ++ crLf ++ (← writeHeaders httpHeaders) ++ crLf

/-! ### What is written -/

/-- No white space to trim. -/
def Trimmed (text : ByteString) : Prop := Search.trim (· ∈ MemoryStream.whitespace) text = text

instance : DecidablePred Trimmed := fun _ => inferInstanceAs (Decidable (_ = _))

/-- The headers of an HTTP/1.1 head: different names in lower case, without colons and line breaks,
and values without line breaks. -/
structure HeaderMap (headers : List (ByteString × ByteString)) : Prop where
  distinct : (headers.map Prod.fst).Nodup
  name : ∀ header ∈ headers, header.1 ≠ [] ∧ toLower header.1 = header.1 ∧
    ∀ c ∈ header.1, c ∉ bytes ":\r\n"
  value : ∀ header ∈ headers, Trimmed header.2 ∧ ∀ c ∈ header.2, c ∉ crLf

/-- Headers that can be written on a line each: names without colons and line breaks, and values
without line breaks. -/
structure OnLines (headers : List (ByteString × ByteString)) : Prop where
  name : ∀ header ∈ headers, ∀ c ∈ header.1, c ∉ bytes ":\r\n"
  value : ∀ header ∈ headers, Trimmed header.2 ∧ ∀ c ∈ header.2, c ∉ crLf

theorem HeaderMap.onLines {headers : List (ByteString × ByteString)} (h : HeaderMap headers) :
    OnLines headers :=
  ⟨fun header hheader => (h.name header hheader).2.2, h.value⟩

/-- Headers as the parameter of a packet. -/
def headersJson (headers : List (ByteString × ByteString)) : Json :=
  .object (headers.map fun header => (header.1, .string header.2))

/-- The packet asks for a message with these headers and this body; without a content length. -/
structure Sends (packet : Packet) (headers : List (ByteString × ByteString))
    (body : Option ByteString) : Prop where
  httpHeaders : packet.parameters.find kParameter_HttpHeaders = some (headersJson headers)
  headerMap : HeaderMap headers
  contentLength : ∀ header ∈ headers, header.1 ≠ kHttpHeaderNormalized_ContentLength
  body : packet.buffers.head?.map Buffer.contents = body
  valid : ∀ buffer ∈ packet.buffers.head?, buffer.Valid

/-- The packet has a header object with string values; the names and the values may be any.  The
keys of an object are different, and its first buffer is inside its memory. -/
structure HasHeaders (packet : Packet) (headers : List (ByteString × ByteString)) : Prop where
  httpHeaders : packet.parameters.find kParameter_HttpHeaders = some (headersJson headers)
  distinct : (headers.map Prod.fst).Nodup
  valid : ∀ buffer ∈ packet.buffers.head?, buffer.Valid

theorem Sends.hasHeaders {packet : Packet} {headers : List (ByteString × ByteString)}
    {body : Option ByteString} (h : Sends packet headers body) : HasHeaders packet headers :=
  ⟨h.httpHeaders, h.headerMap.distinct, h.valid⟩

/-- The length of the first buffer, if there is one. -/
def bodyLength (packet : Packet) : ℕ := (packet.buffers.head?.map Buffer.length).getD 0

/-- The headers after the adjustment of the content length. -/
def adjustedHeaders (headers : List (ByteString × ByteString)) (contentLength : ℕ) :
    List (ByteString × ByteString) :=
  let others := headers.filter fun header => header.1 ≠ kHttpHeaderNormalized_ContentLength
  if 0 < contentLength then
    (kHttpHeaderNormalized_ContentLength, bytes (toString contentLength)) :: others
  else others

/-- One line for each header that has a name. -/
def headerText (headers : List (ByteString × ByteString)) : ByteString :=
  ((headers.filter fun header => header.1 ≠ []).map fun header =>
    header.1 ++ bytes ": " ++ header.2 ++ crLf).flatten

/-- The head of a message. -/
def headText (firstLine : ByteString) (headers : List (ByteString × ByteString)) : ByteString :=
  firstLine ++ crLf ++ headerText headers ++ crLf

/-- The headers that are sent: with a content length if there are body bytes. -/
def sentHeaders (headers : List (ByteString × ByteString)) (body : ByteString) :
    List (ByteString × ByteString) :=
  if 0 < body.length then
    (kHttpHeaderNormalized_ContentLength, bytes (toString body.length)) :: headers
  else headers

/-- The message that is sent, with a space before each value. -/
def message (firstLine : ByteString) (headers : List (ByteString × ByteString))
    (body : ByteString) : Request where
  requestLine := firstLine
  headers := headers.map fun header => (header.1, bytes " " ++ header.2)
  body := body

/-! ### Header maps -/

theorem trimmed_of_forall {text : ByteString} (h : ∀ c ∈ text, c ∉ MemoryStream.whitespace) :
    Trimmed text :=
  Search.trim_of_forall_not fun c hc hmem => h c hc (by simpa using hmem)

theorem HeaderMap.perm {headers headers' : List (ByteString × ByteString)} (h : HeaderMap headers)
    (hperm : headers'.Perm headers) : HeaderMap headers' where
  distinct := (hperm.map Prod.fst).nodup_iff.2 h.distinct
  name header hheader := h.name header (hperm.subset hheader)
  value header hheader := h.value header (hperm.subset hheader)

theorem headerMap_sentHeaders {headers : List (ByteString × ByteString)} (h : HeaderMap headers)
    (hlength : ∀ header ∈ headers, header.1 ≠ kHttpHeaderNormalized_ContentLength)
    (body : ByteString) : HeaderMap (sentHeaders headers body) := by
  rw [sentHeaders]
  split
  · constructor
    case distinct =>
      rw [List.map_cons, List.nodup_cons]
      refine ⟨fun hmem => ?_, h.distinct⟩
      obtain ⟨header, hheader, heq⟩ := List.mem_map.1 hmem
      exact hlength header hheader heq
    case name =>
      have hname : kHttpHeaderNormalized_ContentLength ≠ [] ∧
          toLower kHttpHeaderNormalized_ContentLength = kHttpHeaderNormalized_ContentLength ∧
          ∀ c ∈ kHttpHeaderNormalized_ContentLength, c ∉ bytes ":\r\n" :=
        ⟨by decide, by decide, forall_mem_of_all (by decide)⟩
      exact List.forall_mem_cons.2 ⟨hname, h.name⟩
    case value =>
      have hvalue : Trimmed (bytes (toString body.length)) ∧
          ∀ c ∈ bytes (toString body.length), c ∉ crLf :=
        ⟨trimmed_of_forall fun c hc => notMem_of_toString hc (by decide),
          fun c hc => notMem_of_toString hc (by decide)⟩
      exact List.forall_mem_cons.2 ⟨hvalue, h.value⟩
  · exact h

theorem headerMap_host : HeaderMap [(bytes "host", bytes "a")] where
  distinct := by decide
  name := List.forall_mem_singleton.2 ⟨by decide, by decide, forall_mem_of_all (by decide)⟩
  value := List.forall_mem_singleton.2 ⟨by decide, forall_mem_of_all (by decide)⟩

/-- A member with a new name gets a place among the others. -/
theorem placeMember_perm (key value : ByteString) (headers : List (ByteString × ByteString)) :
    ∃ headers' : List (ByteString × ByteString), headers'.Perm ((key, value) :: headers) ∧
      Json.placeMember key (.string value)
        (headers.map fun header => (header.1, .string header.2)) =
        headers'.map fun header => (header.1, .string header.2) := by
  induction headers with
  | nil => exact ⟨[(key, value)], .refl _, rfl⟩
  | cons header headers ih =>
    rw [List.map_cons, Json.placeMember]
    split
    · exact ⟨(key, value) :: header :: headers, .refl _, rfl⟩
    · obtain ⟨headers', hperm, hplace⟩ := ih
      refine ⟨header :: headers', (hperm.cons header).trans (.swap _ _ _), ?_⟩
      rw [hplace, List.map_cons]

/-- Without a header under a name there is nothing to leave out. -/
theorem filter_of_notMem {headers : List (ByteString × ByteString)} {key : ByteString}
    (hkey : key ∉ headers.map Prod.fst) :
    headers.filter (fun header => header.1 ≠ key) = headers :=
  List.filter_eq_self.2 fun header hheader => decide_eq_true fun heq =>
    hkey (List.mem_map.2 ⟨header, hheader, heq⟩)

/-- A member with a name that is there already takes the place of the other. -/
theorem replaceMember_perm (key value : ByteString) {headers : List (ByteString × ByteString)}
    (hdistinct : (headers.map Prod.fst).Nodup) (hkey : key ∈ headers.map Prod.fst) :
    ∃ headers' : List (ByteString × ByteString),
      headers'.Perm ((key, value) :: headers.filter fun header => header.1 ≠ key) ∧
      Json.replaceMember key (.string value)
        (headers.map fun header => (header.1, .string header.2)) =
        headers'.map fun header => (header.1, .string header.2) := by
  induction headers with
  | nil => cases hkey
  | cons header headers ih =>
    rw [List.map_cons, List.nodup_cons] at hdistinct
    rw [List.map_cons, Json.replaceMember]
    by_cases hfirst : header.1 = key
    · -- no other member has the name
      have hothers : key ∉ headers.map Prod.fst := hfirst ▸ hdistinct.1
      rw [if_pos hfirst, List.filter_cons_of_neg (by simpa using hfirst), filter_of_notMem hothers]
      exact ⟨(key, value) :: headers, .refl _, rfl⟩
    · have hrest : key ∈ headers.map Prod.fst :=
        (List.mem_cons.1 hkey).resolve_left (Ne.symm hfirst)
      obtain ⟨headers', hperm, hreplace⟩ := ih hdistinct.2 hrest
      refine ⟨header :: headers', ?_, by rw [if_neg hfirst, hreplace, List.map_cons]⟩
      rw [List.filter_cons_of_pos (by simpa using hfirst)]
      exact (hperm.cons header).trans (.swap _ _ _)

theorem lookup_headersJson_isSome {headers : List (ByteString × ByteString)} {key : ByteString} :
    ((headers.map fun header => (header.1, Json.string header.2)).lookup key).isSome = true ↔
      key ∈ headers.map Prod.fst := by
  induction headers with
  | nil => simp
  | cons header headers ih =>
    rw [List.map_cons, Json.lookup_cons, List.map_cons, List.mem_cons, ← ih]
    by_cases hfirst : key = header.1
    · simp [hfirst]
    · simp [hfirst]

/-- **The content length is adjusted** to the length of the first buffer. -/
theorem setContentLength_spec {headers : List (ByteString × ByteString)}
    (hdistinct : (headers.map Prod.fst).Nodup) (packet : Packet) :
    ∃ headers' : List (ByteString × ByteString),
      headers'.Perm (adjustedHeaders headers (bodyLength packet)) ∧
      setContentLength (headersJson headers) packet.buffers = .ok (headersJson headers') := by
  have hsome := @lookup_headersJson_isSome headers kHttpHeaderNormalized_ContentLength
  rw [setContentLength, adjustedHeaders, headersJson, Json.find_object, ← bodyLength]
  by_cases hlength : 0 < bodyLength packet
  · simp only [if_pos hlength, Json.set, Json.setMember]
    by_cases hkey : kHttpHeaderNormalized_ContentLength ∈ headers.map Prod.fst
    · obtain ⟨headers', hperm, hreplace⟩ := replaceMember_perm kHttpHeaderNormalized_ContentLength
        (bytes (toString (bodyLength packet))) hdistinct hkey
      exact ⟨headers', hperm, by rw [if_pos (hsome.2 hkey), hreplace, headersJson]⟩
    · obtain ⟨headers', hperm, hplace⟩ := placeMember_perm kHttpHeaderNormalized_ContentLength
        (bytes (toString (bodyLength packet))) headers
      rw [filter_of_notMem hkey]
      exact ⟨headers', hperm, by rw [if_neg (mt hsome.1 hkey), hplace, headersJson]⟩
  · simp only [if_neg hlength]
    by_cases hkey : kHttpHeaderNormalized_ContentLength ∈ headers.map Prod.fst
    · refine ⟨_, .refl _, ?_⟩
      rw [if_pos (hsome.2 hkey), Json.erase, headersJson, List.filter_map]
      rfl
    · rw [filter_of_notMem hkey]
      exact ⟨headers, .refl _, by rw [if_neg (mt hsome.1 hkey), headersJson]⟩

/-! ### The bytes -/

theorem mapM_writeHeader (headers : List (ByteString × ByteString)) :
    (headers.map fun header => (header.1, Json.string header.2)).mapM writeHeader =
      .ok (headers.map fun header =>
        if header.1 = [] then [] else header.1 ++ bytes ": " ++ header.2 ++ crLf) := by
  induction headers with
  | nil => rfl
  | cons header headers ih =>
    rw [List.map_cons, List.mapM_cons, ih, writeHeader, List.map_cons]
    split <;> rfl

theorem writeHeaders_spec (headers : List (ByteString × ByteString)) :
    writeHeaders (headersJson headers) = .ok (headerText headers) := by
  simp only [writeHeaders, headersJson, Json.iterate, bind, Except.bind, mapM_writeHeader]
  refine congrArg Except.ok ?_
  induction headers with
  | nil => rfl
  | cons header headers ih =>
    rw [List.map_cons, List.flatten_cons, ih, headerText, headerText, List.filter_cons]
    by_cases hname : header.1 = []
    · simp [hname]
    · simp [hname]

/-- The head of a message is written to `httpBytes`, and the bytes of the first buffer behind it. -/
theorem writeHead_spec (firstLine : ByteString) {packet : Packet}
    {headers : List (ByteString × ByteString)} (h : HasHeaders packet headers) :
    ∃ headers' : List (ByteString × ByteString),
      headers'.Perm (adjustedHeaders headers (bodyLength packet)) ∧
      writeHead firstLine packet = .ok (headText firstLine headers') := by
  obtain ⟨headers', hperm, hset⟩ := setContentLength_spec h.distinct packet
  refine ⟨headers', hperm, ?_⟩
  simp only [writeHead, Json.get_of_find h.httpHeaders, hset, writeHeaders_spec, bind, Except.bind]
  rfl

/-- What `writeMessage` does once the head is written. -/
theorem writeMessage_eq (factory : BufferFactory) (firstLine : ByteString) (packet : Packet) :
    writeMessage factory firstLine packet = (writeHead firstLine packet).bind fun head =>
      match packet.buffers with
      | [] => .ok { packet := {}, channel := "Http Data" }
      | buffer :: _ => do
        let body ← if buffer.Valid then .ok buffer.contents else .error .undefinedBehaviour
        let bodyBuffer ← factory.Create (head ++ body).length
        let memory ← memcpy bodyBuffer.memory 0 (head ++ body) (head ++ body).length
        return { packet := { buffers := [{ bodyBuffer with data := some memory }] }
                 channel := "Http Data" } := by
  simp only [writeMessage, writeHead, bind, Except.bind, pure, Except.pure]
  cases packet.parameters.get kParameter_HttpHeaders with
  | error fault => rfl
  | ok httpHeaders =>
    dsimp only
    cases setContentLength httpHeaders packet.buffers with
    | error fault => rfl
    | ok httpHeaders' =>
      dsimp only
      cases writeHeaders httpHeaders' with
      | error fault => rfl
      | ok text => cases packet.buffers <;> rfl

/-- **The whole message is in one buffer** if there is a first buffer; no bytes are sent otherwise.
It is written unless there is no memory. -/
theorem writeMessage_of_head (factory : BufferFactory) {firstLine head : ByteString}
    {packet : Packet} (hvalid : ∀ buffer ∈ packet.buffers.head?, buffer.Valid)
    (hhead : writeHead firstLine packet = .ok head) :
    factory.Ensures (writeMessage factory firstLine packet) fun push =>
      push.channel = "Http Data" ∧ push.packet.parameters = .null ∧
      match packet.buffers with
      | [] => push.packet.buffers = []
      | buffer :: _ => ∃ written, push.packet.buffers = [written] ∧ written.Valid ∧
          written.contents = head ++ buffer.contents := by
  rw [writeMessage_eq, hhead]
  cases hbuffers : packet.buffers with
  | nil => exact .ok ⟨rfl, rfl, rfl⟩
  | cons buffer buffers =>
    have hbuffer : buffer.Valid := hvalid buffer (by rw [hbuffers]; rfl)
    simp only [Except.bind, hbuffer, if_true, bind]
    refine (factory.ensures_create _).bind fun bodyBuffer _ hbodyBuffer => ?_
    have hmemory : bodyBuffer.memory.length = (head ++ buffer.contents).length := by
      rw [hbodyBuffer.2.length_memory, hbodyBuffer.1]
    -- the buffer is as long as the bytes, so they are all that is in it
    have hcopy : memcpy bodyBuffer.memory 0 (head ++ buffer.contents)
        (head ++ buffer.contents).length = .ok (head ++ buffer.contents) := by
      rw [memcpy, if_neg (by omega), List.take_zero, List.nil_append, List.take_length,
        Nat.zero_add, List.drop_eq_nil_of_le hmemory.le, List.append_nil]
    rw [hcopy]
    refine .ok ⟨rfl, rfl, { bodyBuffer with data := some (head ++ buffer.contents) }, rfl, ?_, ?_⟩
    · exact hbodyBuffer.1.le
    · rw [Buffer.contents, hbodyBuffer.1]
      exact List.take_length

/-- Lines that are ended, and lines that are joined. -/
theorem intercalate_append (separator line : ByteString) (lines : List ByteString) :
    separator.intercalate (line :: lines) ++ separator =
      line ++ separator ++ (lines.map (· ++ separator)).flatten := by
  induction lines generalizing line with
  | nil => simp [List.intercalate]
  | cons line' lines ih =>
    rw [List.intercalate_cons_cons, List.append_assoc, List.append_assoc, ih, List.map_cons,
      List.flatten_cons]
    simp

/-- The bytes that are written are those of the message. -/
theorem encode_message (firstLine : ByteString) (headers : List (ByteString × ByteString))
    (body : ByteString) :
    firstLine ++ crLf ++
        (headers.map fun header => header.1 ++ bytes ": " ++ header.2 ++ crLf).flatten ++ crLf ++
        body = (message firstLine headers body).encode := by
  have hends : (headers.map fun header => header.1 ++ bytes ": " ++ header.2 ++ crLf) =
      ((message firstLine headers body).headers.map headerLine).map (· ++ crLf) := by
    rw [message, List.map_map, List.map_map]
    refine List.map_congr_left fun header _ => ?_
    simp [headerLine, show bytes ": " = bytes ":" ++ bytes " " by decide]
  rw [hends, ← intercalate_append, Request.encode, Request.block,
    show kDoubleCrLf = crLf ++ crLf by decide]
  simp [message]

/-- Without a content length among the headers, one is added if there are body bytes. -/
theorem Sends.adjustedHeaders_eq {packet : Packet} {headers : List (ByteString × ByteString)}
    {body : ByteString} (h : Sends packet headers (some body)) :
    adjustedHeaders headers (bodyLength packet) = sentHeaders headers body := by
  obtain ⟨buffer, hbuffer, rfl⟩ := Option.map_eq_some_iff.1 h.body
  have hothers : headers.filter (fun header => header.1 ≠ kHttpHeaderNormalized_ContentLength) =
      headers := List.filter_eq_self.2 fun header hheader =>
    decide_eq_true (h.contentLength header hheader)
  rw [adjustedHeaders, hothers, bodyLength, hbuffer, Option.map_some, Option.getD_some, sentHeaders,
    Buffer.length_contents (h.valid buffer hbuffer)]

/-- When all headers have names, each of them has a line. -/
theorem HeaderMap.headerText_eq {headers : List (ByteString × ByteString)}
    (h : HeaderMap headers) : headerText headers =
      (headers.map fun header => header.1 ++ bytes ": " ++ header.2 ++ crLf).flatten := by
  rw [headerText, List.filter_eq_self.2 fun header hheader =>
    decide_eq_true (h.name header hheader).1]

/-- **The bytes of a message with a body buffer.**  They are written unless there is no memory. -/
theorem writeMessage_spec (factory : BufferFactory) (firstLine : ByteString) {packet : Packet}
    {headers : List (ByteString × ByteString)} {body : ByteString}
    (h : Sends packet headers (some body)) :
    factory.Ensures (writeMessage factory firstLine packet) fun push =>
      push.channel = "Http Data" ∧
      ∃ headers' : List (ByteString × ByteString), headers'.Perm (sentHeaders headers body) ∧
        MemoryStream.bytesOf push.packet.buffers = (message firstLine headers' body).encode := by
  obtain ⟨headers', hperm, hhead⟩ := writeHead_spec firstLine h.hasHeaders
  rw [h.adjustedHeaders_eq] at hperm
  have hmap := (headerMap_sentHeaders h.headerMap h.contentLength body).perm hperm
  obtain ⟨buffer, hbuffer, hbody⟩ := Option.map_eq_some_iff.1 h.body
  obtain ⟨buffers, hbuffers⟩ := List.head?_eq_some_iff.1 hbuffer
  refine (writeMessage_of_head factory h.valid hhead).imp fun push hpush => ?_
  rw [hbuffers] at hpush
  obtain ⟨hchannel, -, written, hwritten, -, hcontents⟩ := hpush
  refine ⟨hchannel, headers', hperm, ?_⟩
  rw [hwritten, MemoryStream.bytesOf_cons, MemoryStream.bytesOf_nil, List.append_nil, hcontents,
    hbody, headText, hmap.headerText_eq, encode_message]

/-- Without a body buffer no bytes are sent. -/
theorem writeMessage_nil (factory : BufferFactory) (firstLine : ByteString) {packet : Packet}
    {headers : List (ByteString × ByteString)} (h : Sends packet headers none) :
    writeMessage factory firstLine packet = .ok { packet := {}, channel := "Http Data" } := by
  have hbuffers : packet.buffers = [] := by
    rw [← List.head?_eq_none_iff, ← Option.map_eq_none_iff, h.body]
  obtain ⟨headers', -, hhead⟩ := writeHead_spec firstLine h.hasHeaders
  rw [writeMessage_eq, hhead, hbuffers]
  rfl

/-! ### The header block of a message -/

section

variable {firstLine : ByteString} {headers headers' : List (ByteString × ByteString)}
  {body : ByteString}

/-- A first line that ends where it should. -/
def IsFirstLine (firstLine : ByteString) : Prop := 4 ≤ firstLine.length ∧ 13 ∉ firstLine

theorem notMem_name {header : ByteString × ByteString} (h : OnLines headers)
    (hheader : header ∈ headers) {c : UInt8} (hc : c ∈ bytes ":\r\n") : c ∉ header.1 :=
  fun hmem => h.name header hheader c hmem hc

theorem hasLines_message (hfirst : IsFirstLine firstLine) (h : OnLines headers) :
    (message firstLine headers body).HasLines := by
  intro line hline
  rcases List.mem_cons.1 hline with heq | hline
  · obtain rfl : line = firstLine := heq
    refine ⟨List.ne_nil_of_length_pos ?_, hfirst.2⟩
    have hlong := hfirst.1
    omega
  · obtain ⟨_, hsent, rfl⟩ := List.mem_map.1 hline
    obtain ⟨header, hheader, rfl⟩ := List.mem_map.1 hsent
    refine ⟨by simp [headerLine, bytes], fun hmem => ?_⟩
    simp only [headerLine, List.mem_append] at hmem
    rcases hmem with (hmem | hmem) | hmem | hmem
    · exact notMem_name h hheader (by decide) hmem
    · exact absurd hmem (by decide)
    · exact absurd hmem (by decide)
    · exact (h.value header hheader).2 13 hmem (by decide)

theorem four_le_message (hfirst : IsFirstLine firstLine) :
    4 ≤ (message firstLine headers body).block.length := by
  refine hfirst.1.trans ?_
  rw [Request.block]
  cases (message firstLine headers body).headers.map headerLine with
  | nil => simp [message, List.intercalate]
  | cons line lines =>
    rw [List.intercalate_cons_cons, List.append_assoc, List.length_append]
    exact Nat.le_add_right _ _

theorem headD_lines_message (hfirst : IsFirstLine firstLine) (h : OnLines headers)
    (body : ByteString) :
    (lines (message firstLine headers body).block).headD [] = firstLine := by
  rw [Request.lines_block (hasLines_message hfirst h)]
  rfl

theorem trim_space (text : ByteString) :
    Search.trim (· ∈ MemoryStream.whitespace) (bytes " " ++ text) =
      Search.trim (· ∈ MemoryStream.whitespace) text := by
  rw [Search.trim, Search.trim, show bytes " " = [32] by decide, List.singleton_append,
    List.dropWhile_cons_of_pos (by decide)]

/-- A name as it is received. -/
def receivedName (name : ByteString) : ByteString :=
  toLower (Search.trim (· ∈ MemoryStream.whitespace) name)

theorem receivedName_eq_iff {name : ByteString} (hlower : toLower name = name) :
    receivedName name = name ↔ Trimmed name := by
  constructor
  · intro h
    -- nothing has been trimmed, since the lengths agree
    have hlength := congrArg List.length h
    rw [receivedName, toLower, List.length_map] at hlength
    exact Search.trim_sublist.eq_of_length hlength
  · intro h
    rw [receivedName, h, hlower]

/-- The one header that is looked at is the last one. -/
theorem requestHeaders_last (hfirst : IsFirstLine firstLine) (h : OnLines headers)
    {last : ByteString × ByteString} (hlast : headers.getLast? = some last) :
    fieldName (lastLine (message firstLine headers body).block) = receivedName last.1 ∧
      requestHeaders (message firstLine headers body).block =
        headersJson [(receivedName last.1, last.2)] := by
  have hmem := List.mem_of_getLast? hlast
  have hline : lastLine (message firstLine headers body).block =
      headerLine (last.1, bytes " " ++ last.2) := by
    refine Request.lastLine_block (hasLines_message hfirst h) ?_
    rw [message, List.getLast?_map, hlast]
    rfl
  have hcolon : (58 : UInt8) ∉ (last.1, bytes " " ++ last.2).1 :=
    notMem_name h hmem (by decide)
  have hname : fieldName (lastLine (message firstLine headers body).block) =
      receivedName last.1 := by
    rw [hline, Request.fieldName_headerLine hcolon, receivedName]
  have hvalue : fieldValue (lastLine (message firstLine headers body).block) = last.2 := by
    rw [hline, Request.fieldValue_headerLine hcolon, trim_space, (h.value last hmem).1]
  exact ⟨hname, by rw [requestHeaders, hname, hvalue]; rfl⟩

theorem lastLine_message_nil (hfirst : IsFirstLine firstLine) :
    lastLine (message firstLine [] body).block = [] := by
  have hempty : OnLines [] := ⟨by simp, by simp⟩
  rw [lastLine, Request.lines_block (hasLines_message hfirst hempty)]
  rfl

/-- Without headers, one without a name is found. -/
theorem requestHeaders_nil (hfirst : IsFirstLine firstLine) :
    requestHeaders (message firstLine [] body).block = headersJson [([], [])] := by
  rw [requestHeaders, lastLine_message_nil hfirst]
  rfl

/-- There is one header, and its name is received as it is sent. -/
def OneHeader (headers : List (ByteString × ByteString)) : Prop :=
  ∃ header, headers = [header] ∧ Trimmed header.1

/-- If there is one header, that is the one which may be a content length. -/
theorem contentLengthLast_iff (hfirst : IsFirstLine firstLine) (h : HeaderMap headers)
    (hperm : headers'.Perm headers) (hone : OneHeader headers) :
    HttpRequestExtractor.ContentLengthLast (message firstLine headers' body).block ↔
      ∃ header ∈ headers, header.1 = kHttpHeaderNormalized_ContentLength := by
  obtain ⟨header, rfl, htrimmed⟩ := hone
  obtain rfl : headers' = [header] := List.perm_singleton.1 hperm
  have hlower := (h.name header (List.mem_singleton_self header)).2.1
  rw [HttpRequestExtractor.ContentLengthLast,
    (requestHeaders_last hfirst h.onLines List.getLast?_singleton).1,
    (receivedName_eq_iff hlower).2 htrimmed]
  simp

/-- The same headers, in whatever order. -/
def SameHeaders (httpHeaders : Json) (headers : List (ByteString × ByteString)) : Prop :=
  httpHeaders.isObject = true ∧ ∀ key, httpHeaders.find key = (headersJson headers).find key

theorem find_headersJson_isSome {header : ByteString × ByteString} (h : header ∈ headers) :
    ((headersJson headers).find header.1).isSome = true := by
  rw [headersJson, Json.find_object]
  induction headers with
  | nil => cases h
  | cons first headers ih =>
    rw [List.map_cons, Json.lookup_cons]
    split
    · rfl
    · rename_i hne
      refine ih ((List.mem_cons.1 h).resolve_left ?_)
      rintro rfl
      exact hne rfl

/-- **The headers that are received are those sent exactly if there is one.** -/
theorem sameHeaders_iff (hfirst : IsFirstLine firstLine) (h : HeaderMap headers)
    (hperm : headers'.Perm headers) (body : ByteString) :
    SameHeaders (requestHeaders (message firstLine headers' body).block) headers ↔
      OneHeader headers := by
  have h' := h.perm hperm
  cases hlast : headers'.getLast? with
  | none =>
    obtain rfl : headers' = [] := List.getLast?_eq_none_iff.1 hlast
    obtain rfl : headers = [] := hperm.symm.eq_nil
    rw [requestHeaders_nil hfirst]
    refine iff_of_false (fun hsame => ?_) fun hone => ?_
    · have hnone := hsame.2 []
      cases hnone
    · obtain ⟨_, hone, -⟩ := hone
      cases hone
  | some last =>
    have hmem := hperm.subset (List.mem_of_getLast? hlast)
    have hlower := (h.name last hmem).2.1
    rw [(requestHeaders_last hfirst h'.onLines hlast).2]
    constructor
    · intro hsame
      have hall : ∀ name ∈ headers.map Prod.fst, name = receivedName last.1 := by
        intro name hname
        obtain ⟨header, hheader, rfl⟩ := List.mem_map.1 hname
        by_contra hne
        have hsome := find_headersJson_isSome hheader
        rw [← hsame.2, headersJson, Json.find_object, List.map_singleton, Json.lookup_cons,
          if_neg hne] at hsome
        cases hsome
      have hreplicate := List.eq_replicate_of_mem hall
      have hdistinct := h.distinct
      rw [hreplicate, List.nodup_replicate, List.length_map] at hdistinct
      have hpos := List.length_pos_of_mem hmem
      obtain ⟨header, rfl⟩ := List.length_eq_one_iff.1 (by omega : headers.length = 1)
      obtain rfl := List.mem_singleton.1 hmem
      exact ⟨last, rfl, (receivedName_eq_iff hlower).1 (hall last.1 (by simp)).symm⟩
    · rintro ⟨header, rfl, htrimmed⟩
      obtain rfl := List.mem_singleton.1 hmem
      rw [(receivedName_eq_iff hlower).2 htrimmed]
      exact ⟨rfl, fun _ => rfl⟩

end

/-- **What is received as sent**: a message with one header that is not a content length, and so
one without body bytes. -/
theorem oneHeader_sentHeaders {headers : List (ByteString × ByteString)} {body : ByteString}
    (h : ∀ header ∈ headers, header.1 ≠ kHttpHeaderNormalized_ContentLength) :
    OneHeader (sentHeaders headers body) ∧
      (∀ header ∈ sentHeaders headers body, header.1 ≠ kHttpHeaderNormalized_ContentLength) ↔
      body = [] ∧ OneHeader headers := by
  rw [sentHeaders]
  split
  · rename_i hbody
    refine iff_of_false (fun h' => (List.forall_mem_cons.1 h'.2).1 rfl) fun h' => ?_
    simp [h'.1] at hbody
  · rename_i hbody
    have hnil : body = [] := List.length_eq_zero_iff.1 (by omega)
    exact ⟨fun h' => ⟨hnil, h'.1⟩, fun h' => ⟨h'.2, h⟩⟩

end Http

end Maplang
