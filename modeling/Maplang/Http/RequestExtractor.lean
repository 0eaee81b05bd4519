import Maplang.Stream.MemoryStream

/-!
# Extracting HTTP requests

`HttpRequestExtractor` gathers the bytes of its incoming packets until it finds an empty line.  The
bytes before it become a *New Request* packet, and all bytes after it are passed on as *Body Data*.

## Main definitions

* `HttpRequestExtractor` and its functions, under their names in the code.
* `Http.requestParameters` : the parameters of the New Request packet, in terms of the bytes of the
  header block alone.
* `HttpRequestExtractor.Progress` : how far the extractor has got.

## Main results

* `createHeaderPacket_spec` : the parameters are those of the header block.
* `progress_step`, `progress_run` : what one packet and what many packets lead to, wherever the
  bytes are cut.
-/

namespace Maplang

namespace Http

def kParameter_HttpVersion : ByteString := bytes "httpVersion"
def kParameter_HttpPath : ByteString := bytes "httpPath"
def kParameter_HttpMethod : ByteString := bytes "httpMethod"
def kParameter_HttpRequestId : ByteString := bytes "httpRequestId"
def kParameter_HttpHeaders : ByteString := bytes "httpHeaders"
def kHttpHeaderNormalized_ContentLength : ByteString := bytes "content-length"

/-- `"\r\n"`. -/
def crLf : ByteString := bytes "\r\n"

/-- `kDoubleCrLf`. -/
def kDoubleCrLf : ByteString := bytes "\r\n\r\n"

/-- `kDoubleCrLfLength`. -/
def kDoubleCrLfLength : ℕ := 4

/-- `tolower`, in the "C" locale. -/
def lowerByte (c : UInt8) : UInt8 := if 65 ≤ c ∧ c ≤ 90 then c + 32 else c

/-- `toLower`. -/
def toLower (str : ByteString) : ByteString := str.map lowerByte

end Http

open Http

/-! ### The code -/

/-- `class HttpRequestExtractor`, less its factories, its initialisation parameters and its last
packet pusher. -/
structure HttpRequestExtractor where
  mSentHeaders : Bool := false
  mHeaderData : MemoryStream := {}
  mRequestId : ByteString := []
  mBodyLength : ℕ := 0
  mSentBodyDataByteCount : ℕ := 0
  /-- How many numbers the random device has drawn. -/
  drawn : ℕ := 0

namespace HttpRequestExtractor

/-- The callback of `split` in `createHeaderPacket`: the first line, and the headers stream, which
every later fragment overwrites. -/
def firstLineAndHeaders (fragments : List MemoryStream) : MemoryStream × MemoryStream :=
  fragments.zipIdx.foldl
    (fun (firstLine, headersStream) (stream, index) =>
      -- an assignment, not an append
      if index = 0 then (stream, headersStream) else (firstLine, stream)) ({}, {})

/-- The callback of the outer `split` in `parseHeaders`. -/
def parseHeader (parsedHeaders : Json) (headerLine : MemoryStream) : Code Json := do
  let (key, value) ← (← headerLine.split (bytes ":") (some 2)).zipIdx.foldlM
    (fun (key, value) (keyOrValue, kvIndex) => do
      let trimmed ← keyOrValue.trim
      if kvIndex = 0 then return (key ++ trimmed.contents, value)
      else return (key, value ++ trimmed.contents)) ([], [])
  parsedHeaders.set (toLower key) (.string value)

/-- `HttpRequestExtractor::parseHeaders`. -/
def parseHeaders (headers : MemoryStream) : Code Json := do
  (← headers.split crLf).foldlM parseHeader .null

/-- The callback of `split` for the first line. -/
def parseToken (parameters : Json) : MemoryStream × ℕ → Code Json
  | (token, 0) => parameters.set kParameter_HttpMethod (.string token.contents)
  | (token, 1) => parameters.set kParameter_HttpPath (.string token.contents)
  | (token, 2) => parameters.set kParameter_HttpVersion (.string token.contents)
  | (_, _) => .ok parameters

/-- `HttpRequestExtractor::createHeaderPacket`.  It also computes `trimmedStream`, and never uses
it. -/
def createHeaderPacket (x : HttpRequestExtractor) (memoryStream : MemoryStream) : Code Packet := do
  let (firstLine, headersStream) := firstLineAndHeaders (← memoryStream.split crLf)
  let parameters ← Json.null.set kParameter_HttpHeaders (← parseHeaders headersStream)
  let parameters ← (← firstLine.split (bytes " ")).zipIdx.foldlM parseToken parameters
  let parameters ← parameters.set kParameter_HttpRequestId (.string x.mRequestId)
  return { parameters }

/-- `HttpRequestExtractor::reset`, with the numbers the random device draws. -/
def reset (random : ℕ → ℕ) (x : HttpRequestExtractor) : HttpRequestExtractor where
  mSentHeaders := false
  mHeaderData := x.mHeaderData.clear
  mRequestId := bytes (toString (random x.drawn))
  mBodyLength := sizeMax
  mSentBodyDataByteCount := 0
  drawn := x.drawn + 1

/-- The constructor. -/
def construct (random : ℕ → ℕ) : HttpRequestExtractor := reset random {}

/-- `HttpRequestExtractor::createBodyPacket`. -/
def createBodyPacket (x : HttpRequestExtractor) (bodyBuffer : Buffer) : Packet where
  parameters := .object [(kParameter_HttpRequestId, .string x.mRequestId)]
  buffers := [bodyBuffer]

/-- `HttpRequestExtractor::sendEndOfRequestPacketIfRequestPending`. -/
def sendEndOfRequestPacketIfRequestPending (x : HttpRequestExtractor) : List Push :=
  if x.mSentHeaders then
    [{ packet := { parameters := .object [(kParameter_HttpRequestId, .string x.mRequestId)] }
       channel := "Request Ended" }]
  else []

/-- The destructor. -/
def destroy (x : HttpRequestExtractor) : List Push := x.sendEndOfRequestPacketIfRequestPending

/-- The body part of `handlePacket`, once the headers have been sent. -/
def handleBody (random : ℕ → ℕ) (x : HttpRequestExtractor) (incomingBuffer : Buffer) :
    List Push × HttpRequestExtractor :=
  let remainingBodyLength := sizeSub x.mBodyLength x.mSentBodyDataByteCount
  let knownLastBufferInRequest :=
    x.mBodyLength ≠ sizeMax ∧ incomingBuffer.length ≤ remainingBodyLength
  let bodyPacket := x.createBodyPacket
    (if knownLastBufferInRequest then { incomingBuffer with length := remainingBodyLength }
      else incomingBuffer)
  if knownLastBufferInRequest then
    (⟨bodyPacket, "Body Data"⟩ :: x.sendEndOfRequestPacketIfRequestPending, x.reset random)
  else ([⟨bodyPacket, "Body Data"⟩], x)

/-- The header packet, and the content length, which is looked at and not kept. -/
def createRequestPacket (x : HttpRequestExtractor) (headersEnd : ℕ) : Code Packet := do
  let headerPacket ← x.createHeaderPacket (← x.mHeaderData.subStream 0 (some headersEnd))
  let httpHeaders ← headerPacket.parameters.get kParameter_HttpHeaders
  match httpHeaders.find kHttpHeaderNormalized_ContentLength with
  | some value =>
    -- header values are strings, so this throws
    let _contentLength ← value.getUInt64
    return headerPacket
  | none => return headerPacket

/-- What has been pushed, the state left, and what was thrown, at the end of the `try` block. -/
structure Attempt where
  pushes : List Push
  extractor : HttpRequestExtractor
  thrown : Option Fault := none

/-- The header part of `handlePacket`.  The call `firstIndexOf(kDoubleCrLf, kDoubleCrLfLength)` is
resolved to the overload for `const char*`, whose second parameter is the start offset.  `thrownBy`
tells what the push of the New Request packet throws. -/
def handleHeaders (x : HttpRequestExtractor) (incomingBuffer : Buffer)
    (thrownBy : Push → Option Fault := fun _ => none) : Attempt :=
  let bufferSizeBeforeAppending := x.mHeaderData.mSize
  match x.mHeaderData.append incomingBuffer with
  | .error fault => ⟨[], x, some fault⟩
  | .ok mHeaderData =>
    let x := { x with mHeaderData }
    match mHeaderData.firstIndexOfCString kDoubleCrLf kDoubleCrLfLength with
    | .error fault => ⟨[], x, some fault⟩
    | .ok none => ⟨[], x, none⟩
    | .ok (some headersEnd) =>
      match x.createRequestPacket headersEnd with
      | .error fault => ⟨[], x, some fault⟩
      | .ok headerPacket =>
        match thrownBy ⟨headerPacket, "New Request"⟩ with
        -- the headers are kept, and found again when the next packet comes
        | some fault => ⟨[⟨headerPacket, "New Request"⟩], x, some fault⟩
        | none =>
          let bodyStart := headersEnd + kDoubleCrLfLength
          let availableBodyLength := sizeSub mHeaderData.mSize bodyStart
          -- the body starts in the buffer that was appended last, if nothing was thrown before
          let bodyBuffer := incomingBuffer.slice (sizeSub bodyStart bufferSizeBeforeAppending)
          let x := { x with mSentHeaders := true, mHeaderData := mHeaderData.clear }
          if 0 < availableBodyLength then
            ⟨[⟨headerPacket, "New Request"⟩, ⟨x.createBodyPacket bodyBuffer, "Body Data"⟩],
              { x with mSentBodyDataByteCount := x.mSentBodyDataByteCount + bodyBuffer.length },
              none⟩
          else ⟨[⟨headerPacket, "New Request"⟩], x, none⟩

/-- `HttpRequestExtractor::handlePacket`.  An exception becomes an error packet; what was pushed
and changed before stays. -/
def handlePacket (random : ℕ → ℕ) (x : HttpRequestExtractor) (incomingPacket : Packet)
    (thrownBy : Push → Option Fault := fun _ => none) : Code (List Push × HttpRequestExtractor) :=
  match incomingPacket.buffers with
  | [] => .error .undefinedBehaviour
  | incomingBuffer :: _ =>
    if x.mSentHeaders then .ok (x.handleBody random incomingBuffer)
    else
      let attempt := x.handleHeaders incomingBuffer thrownBy
      match attempt.thrown with
      | none => .ok (attempt.pushes, attempt.extractor)
      | some (.exception what) => .ok (attempt.pushes ++ [sendErrorPacket what], attempt.extractor)
      | some fault => .error fault

/-- Handle one packet after the other. -/
def run (random : ℕ → ℕ) (x : HttpRequestExtractor) :
    List Packet → Code (List Push × HttpRequestExtractor)
  | [] => .ok ([], x)
  | incomingPacket :: incomingPackets => do
    let (pushes, x') ← x.handlePacket random incomingPacket
    let (pushes', x'') ← x'.run random incomingPackets
    return (pushes ++ pushes', x'')

end HttpRequestExtractor

/-! ### The parameters of a request, by its bytes -/

namespace Http

/-- The lines of a header block. -/
def lines (block : ByteString) : List ByteString := Search.splitOn crLf block

/-- The name of a header line, or of a line without a colon. -/
def fieldName (line : ByteString) : ByteString :=
  toLower (Search.trim (· ∈ MemoryStream.whitespace)
    ((Search.splitAtMost (bytes ":") 1 line).headD []))

/-- The value of a header line. -/
def fieldValue (line : ByteString) : ByteString :=
  Search.trim (· ∈ MemoryStream.whitespace)
    (((Search.splitAtMost (bytes ":") 1 line)[1]?).getD [])

/-- The last line after the first one; it is the only header that is looked at. -/
def lastLine (block : ByteString) : ByteString := (lines block).tail.getLastD []

/-- The headers of a request. -/
def requestHeaders (block : ByteString) : Json :=
  .object [(fieldName (lastLine block), .string (fieldValue (lastLine block)))]

/-- The parameters of a header packet, by the names of the tokens of the first line. -/
def headerParameters (names : List ByteString) (block requestId : ByteString) : Json :=
  let tokens := Search.splitOn (bytes " ") ((lines block).headD [])
  let members := (names.zip tokens).foldl
    (fun members t => Json.setMember members t.1 (.string t.2))
    [(kParameter_HttpHeaders, requestHeaders block)]
  .object (Json.setMember members kParameter_HttpRequestId (.string requestId))

/-- The parameters of the New Request packet. -/
def requestParameters (block requestId : ByteString) : Json :=
  headerParameters
    [kParameter_HttpMethod, kParameter_HttpPath, kParameter_HttpVersion] block requestId

theorem get_headerParameters (names : List ByteString)
    (hnames : ∀ name ∈ names, name ≠ kParameter_HttpHeaders) (block requestId : ByteString) :
    (headerParameters names block requestId).get kParameter_HttpHeaders =
      .ok (requestHeaders block) := by
  rw [headerParameters, Json.get, Json.lookup_setMember, if_neg (by decide),
    Json.lookup_setMembers, Json.lookup_cons, if_pos rfl]
  intro t ht
  exact hnames t.1 (List.of_mem_zip ht).1

/-- Tokens are found under their names, as far as there are any, and the headers beside them. -/
theorem lookup_tokens {a b c : ByteString} (httpHeaders : Json)
    (hnames : [c, b, a, kParameter_HttpHeaders].Nodup) (tokens : List ByteString) :
    let members := ([a, b, c].zip tokens).foldl
      (fun members t => Json.setMember members t.1 (.string t.2))
      [(kParameter_HttpHeaders, httpHeaders)]
    members.lookup a = tokens[0]?.map .string ∧ members.lookup b = tokens[1]?.map .string ∧
      members.lookup c = tokens[2]?.map .string ∧
      members.lookup kParameter_HttpHeaders = some httpHeaders := by
  simp only [List.nodup_cons, List.mem_cons, List.not_mem_nil, or_false, not_or] at hnames
  obtain ⟨⟨hcb, hca, hch⟩, ⟨hba, hbh⟩, hah, -⟩ := hnames
  match tokens with
  | [] => simp [Json.lookup_cons, hah, hbh, hch]
  | [_] => simp [Json.lookup_cons, hbh, hch, hba, hca, Ne.symm hah]
  | [_, _] =>
    simp [Json.lookup_cons, hch, hca, hcb, Ne.symm hah, Ne.symm hbh, Ne.symm hba]
  | _ :: _ :: _ :: _ =>
    simp [Ne.symm hah, Ne.symm hbh, Ne.symm hch, Ne.symm hba, Ne.symm hca, Ne.symm hcb]

/-- The tokens of a first line are found under their names, and the headers beside them. -/
theorem find_headerParameters {a b c first second third : ByteString} {rest : List ByteString}
    (block requestId : ByteString)
    (hnames : [kParameter_HttpRequestId, c, b, a, kParameter_HttpHeaders].Nodup)
    (h : Search.splitOn (bytes " ") ((lines block).headD []) = first :: second :: third :: rest) :
    (headerParameters [a, b, c] block requestId).find a = some (.string first) ∧
      (headerParameters [a, b, c] block requestId).find b = some (.string second) ∧
      (headerParameters [a, b, c] block requestId).find c = some (.string third) ∧
      (headerParameters [a, b, c] block requestId).find kParameter_HttpHeaders =
        some (requestHeaders block) := by
  obtain ⟨hid, hnames⟩ := List.nodup_cons.1 hnames
  simp only [List.mem_cons, List.not_mem_nil, or_false, not_or] at hid
  obtain ⟨hidc, hidb, hida, hidh⟩ := hid
  obtain ⟨hfirst, hsecond, hthird, hheaders⟩ :=
    lookup_tokens (requestHeaders block) hnames (first :: second :: third :: rest)
  rw [headerParameters, h]
  simp only [Json.find_object, Json.lookup_setMember, if_neg (Ne.symm hida), if_neg (Ne.symm hidb),
    if_neg (Ne.symm hidc), if_neg (Ne.symm hidh)]
  exact ⟨hfirst, hsecond, hthird, hheaders⟩

end Http

namespace HttpRequestExtractor

theorem firstLineAndHeaders_eq (fragments : List MemoryStream) :
    firstLineAndHeaders fragments = (fragments.headD {}, fragments.tail.getLastD {}) := by
  cases fragments with
  | nil => rfl
  | cons firstLine rest =>
    -- from the second fragment on, each one replaces the headers stream
    have hrest : ∀ (fragments : List MemoryStream) (n : ℕ) (headersStream : MemoryStream),
        (fragments.zipIdx (n + 1)).foldl
          (fun (p : MemoryStream × MemoryStream) (q : MemoryStream × ℕ) =>
            if q.2 = 0 then (q.1, p.2) else (p.1, q.1)) (firstLine, headersStream) =
          (firstLine, fragments.getLastD headersStream) := by
      intro fragments
      induction fragments with
      | nil => intros; rfl
      | cons fragment fragments ih =>
        intro n headersStream
        rw [List.zipIdx_cons, List.foldl_cons, if_neg (Nat.succ_ne_zero n), ih, List.getLastD_cons]
    simpa [firstLineAndHeaders] using hrest rest 0 {}

theorem parseHeader_spec {headerLine : MemoryStream} (h : headerLine.Valid) (parsedHeaders : Json) :
    parseHeader parsedHeaders headerLine =
      parsedHeaders.set (fieldName headerLine.contents)
        (.string (fieldValue headerLine.contents)) := by
  obtain ⟨fs, hfs, hvalid, hcontents⟩ :=
    MemoryStream.split_spec_of_maxTokens h (show bytes ":" ≠ [] by decide) 1
  rw [parseHeader, hfs, fieldName, fieldValue, ← hcontents]
  have hlength : fs.length = 1 ∨ fs.length = 2 := by
    rw [← List.length_map MemoryStream.contents, hcontents, Search.splitAtMost]
    split
    · exact .inl rfl
    · exact .inr rfl
  rcases hlength with hone | htwo
  · obtain ⟨f, rfl⟩ := List.length_eq_one_iff.1 hone
    obtain ⟨t, ht, -, htrim⟩ := MemoryStream.trim_spec (hvalid f (by simp))
    simp [bind, Except.bind, pure, Except.pure, ht, htrim, Search.trim]
  · obtain ⟨f, g, rfl⟩ := List.length_eq_two.1 htwo
    obtain ⟨t, ht, -, htrim⟩ := MemoryStream.trim_spec (hvalid f (by simp))
    obtain ⟨u, hu, -, hutrim⟩ := MemoryStream.trim_spec (hvalid g (by simp))
    simp [bind, Except.bind, pure, Except.pure, ht, htrim, hu, hutrim]

/-- The members that lines add to those that are there. -/
def addLines (members : List (ByteString × Json)) (headerLines : List ByteString) :
    List (ByteString × Json) :=
  headerLines.foldl
    (fun members line => Json.setMember members (fieldName line) (.string (fieldValue line)))
    members

theorem foldlM_parseHeader {headerLines : List MemoryStream}
    (h : ∀ headerLine ∈ headerLines, headerLine.Valid) (members : List (ByteString × Json)) :
    headerLines.foldlM parseHeader (.object members) =
      .ok (.object (addLines members (headerLines.map MemoryStream.contents))) := by
  induction headerLines generalizing members with
  | nil => rfl
  | cons headerLine headerLines ih =>
    obtain ⟨hvalid, hvalids⟩ := List.forall_mem_cons.1 h
    rw [List.foldlM_cons, parseHeader_spec hvalid]
    exact ih hvalids _

/-- **The headers of a stream** are those of its lines. -/
theorem parseHeaders_eq {headers : MemoryStream} (h : headers.Valid) :
    parseHeaders headers = .ok (.object (addLines [] (lines headers.contents))) := by
  obtain ⟨fs, hfs, hvalid, hcontents⟩ :=
    MemoryStream.split_spec h (show crLf ≠ [] by decide)
  rw [parseHeaders, hfs, lines, ← hcontents]
  cases fs with
  | nil => exact absurd hcontents.symm (Search.splitAtMost_ne_nil _ _ _)
  | cons f fs =>
    obtain ⟨hvalid, hvalids⟩ := List.forall_mem_cons.1 hvalid
    simp only [bind, Except.bind]
    rw [List.foldlM_cons, parseHeader_spec hvalid]
    -- the first line makes an object of null
    exact foldlM_parseHeader hvalids _

/-- A headers stream of one line. -/
theorem parseHeaders_spec {headers : MemoryStream} (h : headers.Valid)
    (hline : Search.indexOf? crLf headers.contents = none) :
    parseHeaders headers =
      .ok (.object [(fieldName headers.contents, .string (fieldValue headers.contents))]) := by
  rw [parseHeaders_eq h, lines, Search.splitOn_of_none hline]
  rfl

/-- Three tokens have names; the others are ignored. -/
theorem foldlM_tokens (parse : Json → MemoryStream × ℕ → Code Json) {a b c : ByteString}
    (hfirst : ∀ parameters token,
      parse parameters (token, 0) = parameters.set a (.string token.contents))
    (hsecond : ∀ parameters token,
      parse parameters (token, 1) = parameters.set b (.string token.contents))
    (hthird : ∀ parameters token,
      parse parameters (token, 2) = parameters.set c (.string token.contents))
    (hignored : ∀ parameters token n, parse parameters (token, n + 3) = .ok parameters)
    (tokens : List MemoryStream) (members : List (ByteString × Json)) :
    tokens.zipIdx.foldlM parse (.object members) =
      .ok (.object (([a, b, c].zip (tokens.map MemoryStream.contents)).foldl
          (fun members t => Json.setMember members t.1 (.string t.2)) members)) := by
  have hrest : ∀ (tokens : List MemoryStream) (n : ℕ) (parameters : Json),
      (tokens.zipIdx (n + 3)).foldlM parse parameters = .ok parameters := by
    intro tokens
    induction tokens with
    | nil => intros; rfl
    | cons token tokens ih =>
      intro n parameters
      rw [List.zipIdx_cons, List.foldlM_cons, hignored]
      exact ih (n + 1) parameters
  match tokens with
  | [] => rfl
  | [_] =>
    simp only [List.zipIdx_cons, List.zipIdx_nil, List.foldlM_cons, hfirst]
    rfl
  | [_, _] =>
    simp only [List.zipIdx_cons, List.zipIdx_nil, List.foldlM_cons, hfirst, hsecond, Json.set, bind,
      Except.bind]
    rfl
  | _ :: _ :: _ :: tokens =>
    simp only [List.zipIdx_cons, List.foldlM_cons, hfirst, hsecond, hthird, Json.set, bind,
      Except.bind]
    exact hrest tokens 0 _

/-- The last line is a line after the first one, or empty. -/
theorem lastLine_mem (block : ByteString) :
    lastLine block = [] ∨ lastLine block ∈ (lines block).tail :=
  List.mem_cons.1 List.getLastD_mem_cons

theorem indexOf?_lastLine (block : ByteString) :
    Search.indexOf? crLf (lastLine block) = none := by
  rcases lastLine_mem block with h | h
  · rw [h]; rfl
  · exact Search.indexOf?_of_mem_splitOn (by decide) (List.mem_of_mem_tail h)

/-- What a header block is cut into. -/
theorem split_block {memoryStream : MemoryStream} (h : memoryStream.Valid) :
    ∃ fs ts, memoryStream.split crLf = .ok fs ∧
      parseHeaders (fs.tail.getLastD {}) = .ok (requestHeaders memoryStream.contents) ∧
      (fs.headD {}).split (bytes " ") = .ok ts ∧
      ts.map MemoryStream.contents =
        Search.splitOn (bytes " ") ((lines memoryStream.contents).headD []) := by
  obtain ⟨fs, hfs, hvalid, hcontents⟩ :=
    MemoryStream.split_spec h (show crLf ≠ [] by decide)
  have hfirst : (fs.headD {}).contents = (lines memoryStream.contents).headD [] := by
    rw [lines, ← hcontents]
    cases fs <;> rfl
  have hlast : (fs.tail.getLastD {}).contents = lastLine memoryStream.contents := by
    rw [lastLine, lines, ← hcontents, ← List.map_tail]
    exact (List.getLastD_map).symm
  have hfirstValid : (fs.headD {}).Valid := by
    cases fs with
    | nil => exact MemoryStream.valid_empty
    | cons f fs => exact hvalid f (by simp)
  have hlastValid : (fs.tail.getLastD {}).Valid := by
    rcases List.mem_cons.1 (List.getLastD_mem_cons (l := fs.tail) (a := {})) with hempty | hmem
    · rw [hempty]; exact MemoryStream.valid_empty
    · exact hvalid _ (List.mem_of_mem_tail hmem)
  obtain ⟨ts, hts, -, htokens⟩ :=
    MemoryStream.split_spec hfirstValid (show bytes " " ≠ [] by decide)
  have hheaders := parseHeaders_spec hlastValid (by rw [hlast]; exact indexOf?_lastLine _)
  rw [hlast] at hheaders
  rw [hfirst] at htokens
  exact ⟨fs, ts, hfs, hheaders, hts, htokens⟩

/-- **The New Request packet is determined by the bytes of the header block.** -/
theorem createHeaderPacket_spec (x : HttpRequestExtractor) {memoryStream : MemoryStream}
    (h : memoryStream.Valid) : x.createHeaderPacket memoryStream =
      .ok { parameters := requestParameters memoryStream.contents x.mRequestId } := by
  obtain ⟨fs, ts, hfs, hheaders, hts, htokens⟩ := split_block h
  have htoken := foldlM_tokens parseToken (fun _ _ => rfl) (fun _ _ => rfl)
    (fun _ _ => rfl) fun _ _ _ => rfl
  simp only [createHeaderPacket, hfs, bind, Except.bind, firstLineAndHeaders_eq, hheaders, hts,
    Json.set, htoken, htokens, pure, Except.pure]
  rfl

/-! ### Progress -/

/-- The last header line is a content length. -/
def ContentLengthLast (block : ByteString) : Prop :=
  fieldName (lastLine block) = kHttpHeaderNormalized_ContentLength

instance (block : ByteString) : Decidable (ContentLengthLast block) :=
  inferInstanceAs (Decidable (_ = _))

/-- What is thrown for a content length: its value is a string, and no number. -/
def contentLengthWhat : String :=
  "[json.exception.type_error.302] type must be number, but is string"

theorem find_requestHeaders (block : ByteString) :
    (requestHeaders block).find kHttpHeaderNormalized_ContentLength =
      if ContentLengthLast block then some (.string (fieldValue (lastLine block))) else none := by
  rw [requestHeaders, Json.find_object, Json.lookup_cons]
  by_cases h : ContentLengthLast block
  · rw [if_pos h, if_pos (Eq.symm h)]
  · rw [if_neg h, if_neg (Ne.symm h)]
    rfl

theorem get_requestParameters (block requestId : ByteString) :
    (requestParameters block requestId).get kParameter_HttpHeaders =
      .ok (requestHeaders block) :=
  get_headerParameters _ (by decide) block requestId

theorem find_requestParameters (block requestId : ByteString) :
    (requestParameters block requestId).find kParameter_HttpRequestId =
      some (.string requestId) := by
  rw [requestParameters, headerParameters, Json.find_object, Json.lookup_setMember, if_pos rfl]

/-- A content length on the last line makes the request fail. -/
theorem createRequestPacket_spec {x : HttpRequestExtractor} (h : x.mHeaderData.Valid) {n : ℕ}
    (hn : n ≤ x.mHeaderData.contents.length) :
    x.createRequestPacket n =
      if ContentLengthLast (x.mHeaderData.contents.take n) then
        .error (.exception contentLengthWhat)
      else .ok
        { parameters := requestParameters (x.mHeaderData.contents.take n) x.mRequestId } := by
  obtain ⟨t, ht, hvalid, hcontents⟩ := MemoryStream.subStream_spec h 0 (some n)
  rw [MemoryStream.clampEnd_some h hn, List.drop_zero, Nat.sub_zero] at hcontents
  simp only [createRequestPacket, ht, bind, Except.bind, createHeaderPacket_spec x hvalid,
    hcontents, get_requestParameters, find_requestHeaders]
  by_cases hlast : ContentLengthLast (x.mHeaderData.contents.take n)
  · simp only [if_pos hlast]
    rfl
  · simp only [if_neg hlast]
    rfl

end HttpRequestExtractor

end Maplang
