import Maplang.Http.RequestWriter
import Maplang.Http.ResponseWriter

/-!
# What the message writers send

Both writers write a head and the first buffer behind it.  They copy these bytes to the packet they
push only if there is a buffer, and they adjust the content length under one key, while other keys
may have the same name in other letters.

## Main definitions

* `Http.Writes` : a writer, a packet with the parameters it needs, and the first line it writes.
* `Http.EmitsWhole` : the head and the first buffer are pushed.
* `Http.UnambiguousLength` : one line of the head names the content length, if there are body bytes.
* `Http.NoOtherLength` : nothing else in a message brings such a line.

## Main results

* `Http.emitsWhole_iff` : the message is sent exactly if there is a buffer.
* `Http.unambiguousLength_iff` : the length is unambiguous exactly if nothing else names it.
* `Http.noOtherLength_iff` : for headers that fit on lines, that is a question of their names.
-/

namespace Maplang

namespace Http

/-- A writer, a packet with the parameters it needs, and the first line it writes. -/
inductive Writes : (BufferFactory → Packet → Code Push) → Packet → ByteString → Prop
  | request {packet : Packet} {method path : ByteString} :
      packet.parameters.find kParameter_HttpMethod = some (.string method) →
      packet.parameters.find kParameter_HttpPath = some (.string path) →
      Writes HttpRequestHeaderWriter.handlePacket packet
        (method ++ bytes " " ++ path ++ bytes " HTTP/1.1")
  | response {packet : Packet} {statusCode : ℕ} {value : Json} {statusReason : Option ByteString} :
      packet.parameters.find kParameter_HttpStatusCode = some value →
      value.getUInt64 = .ok statusCode →
      packet.parameters.find kParameter_HttpStatusReason = statusReason.map Json.string →
      Writes HttpResponseWriter.handlePacket packet
        (statusLine statusCode (statusReason.getD (defaultReason statusCode)))

variable {write : BufferFactory → Packet → Code Push} {packet : Packet} {firstLine : ByteString}
  {headers : List (ByteString × ByteString)}

/-- Both writers go on in the same way. -/
theorem Writes.eq_writeMessage (h : Writes write packet firstLine) (factory : BufferFactory) :
    write factory packet = writeMessage factory firstLine packet := by
  cases h with
  | request hmethod hpath => exact HttpRequestHeaderWriter.handlePacket_eq factory hmethod hpath
  | response hfind hcode hreason =>
    exact HttpResponseWriter.handlePacket_eq factory hfind hcode hreason

/-! ### The whole message -/

/-- The first buffer's bytes, if there is one. -/
def firstContents (packet : Packet) : ByteString :=
  (packet.buffers.head?.map Buffer.contents).getD []

/-- One packet is pushed, with one buffer, which holds the first line, the adjusted headers on a
line each, an empty line, and the bytes of the first buffer. -/
structure EmitsWhole (push : Push) (packet : Packet) (firstLine : ByteString)
    (headers : List (ByteString × ByteString)) : Prop where
  channel : push.channel = "Http Data"
  message : ∃ written headers', push.packet.buffers = [written] ∧ written.Valid ∧
    headers'.Perm (adjustedHeaders headers (bodyLength packet)) ∧
    written.contents = headText firstLine headers' ++ firstContents packet

/-- **A message is sent exactly if there is a buffer**, also an empty one; unless there is no
memory. -/
theorem emitsWhole_iff (factory : BufferFactory) (h : Writes write packet firstLine)
    (hheaders : HasHeaders packet headers) :
    factory.Ensures (write factory packet) fun push =>
      EmitsWhole push packet firstLine headers ↔ packet.buffers ≠ [] := by
  obtain ⟨headers', hperm, hhead⟩ := writeHead_spec firstLine hheaders
  rw [h.eq_writeMessage]
  refine (writeMessage_of_head factory hheaders.valid hhead).imp fun push hpush => ?_
  obtain ⟨hchannel, -, hbuffers⟩ := hpush
  cases hfirst : packet.buffers with
  | nil =>
    rw [hfirst] at hbuffers
    refine iff_of_false (fun hwhole => ?_) (not_not_intro rfl)
    obtain ⟨written, _, hwritten, -⟩ := hwhole.message
    cases hbuffers.symm.trans hwritten
  | cons buffer buffers =>
    rw [hfirst] at hbuffers
    obtain ⟨written, hwritten, hvalid, hcontents⟩ := hbuffers
    refine iff_of_true ⟨hchannel, written, headers', hwritten, hvalid, hperm, ?_⟩
      (List.cons_ne_nil _ _)
    rw [hcontents, firstContents, hfirst]
    rfl

theorem hasHeaders_get (buffers : List Buffer) (hvalid : ∀ b ∈ buffers.head?, b.Valid) :
    HasHeaders (getPacket buffers) [(bytes "host", bytes "a")] :=
  ⟨rfl, by decide, hvalid⟩

/-- A request with a body. -/
theorem emitsWhole_iff_get :
    BufferFactory.zeros.Ensures
      (HttpRequestHeaderWriter.handlePacket .zeros (getPacket [.ofBytes (bytes "x")])) fun push =>
        EmitsWhole push (getPacket [.ofBytes (bytes "x")])
          (bytes "GET" ++ bytes " " ++ bytes "/" ++ bytes " HTTP/1.1")
          [(bytes "host", bytes "a")] ↔ (getPacket [.ofBytes (bytes "x")]).buffers ≠ [] :=
  emitsWhole_iff .zeros (.request rfl rfl) (hasHeaders_get _ (by decide))

/-- **Without a buffer nothing of the message is sent.** -/
theorem not_emitsWhole : ¬ ∀ (factory : BufferFactory) (write : BufferFactory → Packet → Code Push)
    (packet : Packet) (firstLine : ByteString) (headers : List (ByteString × ByteString)),
    Writes write packet firstLine → HasHeaders packet headers →
      factory.Ensures (write factory packet) fun push =>
        EmitsWhole push packet firstLine headers := by
  intro h
  have hget := h .zeros _ (getPacket []) _ _ (.request rfl rfl) (hasHeaders_get [] (by simp))
  have hpushed : HttpRequestHeaderWriter.handlePacket .zeros (getPacket []) =
    .ok { packet := {}, channel := "Http Data" } := rfl
  rcases hget with ⟨push, hpush, hwhole⟩ | ⟨_, _, -, hthrown⟩
  · cases hpushed.symm.trans hpush
    obtain ⟨written, _, hwritten, -⟩ := hwhole.message
    cases hwritten
  · cases hpushed.symm.trans hthrown

/-! ### The length of a message -/

/-- A header line with the name of the content length, in whatever letters. -/
def NamesContentLength (line : ByteString) : Prop :=
  58 ∈ line ∧ toLower (line.takeWhile (· ≠ 58)) = kHttpHeaderNormalized_ContentLength

instance : DecidablePred NamesContentLength := fun _ => inferInstanceAs (Decidable (_ ∧ _))

/-- The line of a content length. -/
def contentLengthLine (contentLength : ℕ) : ByteString :=
  kHttpHeaderNormalized_ContentLength ++ bytes ": " ++ bytes (toString contentLength)

/-- Of the lines of a head after the first one, exactly one names the content length, and it is the
right one; if there are no body bytes, there is no such line. -/
def UnambiguousLength (head : ByteString) (contentLength : ℕ) : Prop :=
  (lines head).tail.filter NamesContentLength =
    if 0 < contentLength then [contentLengthLine contentLength] else []

/-- The lines of a header, which are several if there are line breaks in it. -/
def headerLines (header : ByteString × ByteString) : List ByteString :=
  lines (header.1 ++ bytes ": " ++ header.2)

/-- Neither the first line nor a header under another key brings a line that names the content
length, by its name or behind a line break. -/
structure NoOtherLength (firstLine : ByteString) (headers : List (ByteString × ByteString)) :
    Prop where
  firstLine : ∀ line ∈ (lines firstLine).tail, ¬ NamesContentLength line
  headers : ∀ header ∈ headers, header.1 ≠ [] →
    header.1 ≠ kHttpHeaderNormalized_ContentLength →
    ∀ line ∈ headerLines header, ¬ NamesContentLength line

/-- **The lines of a head** are those of its parts, and two empty ones. -/
theorem lines_headText (firstLine : ByteString) (headers : List (ByteString × ByteString)) :
    lines (headText firstLine headers) = lines firstLine ++
      ((headers.filter fun header => header.1 ≠ []).flatMap headerLines ++ [[], []]) := by
  have hcrLf : ∀ xs rest : ByteString, lines (xs ++ (crLf ++ rest)) = lines xs ++ lines rest :=
    Search.splitOn_append_separator (by decide)
  have hheaders : lines (headerText headers ++ crLf) =
      (headers.filter fun header => header.1 ≠ []).flatMap headerLines ++ [[], []] := by
    rw [headerText]
    induction headers.filter fun header => header.1 ≠ [] with
    | nil => rfl
    | cons header headers ih =>
      rw [List.map_cons, List.flatten_cons, List.append_assoc,
        List.append_assoc (header.1 ++ bytes ": " ++ header.2), hcrLf, ih, List.flatMap_cons,
        headerLines, List.append_assoc (lines _)]
  rw [headText, List.append_assoc, List.append_assoc, hcrLf, hheaders]

/-- Without a line break in it, a header has one line. -/
theorem headerLines_eq {header : ByteString × ByteString} (hname : 13 ∉ header.1)
    (hvalue : 13 ∉ header.2) : headerLines header = [header.1 ++ bytes ": " ++ header.2] := by
  refine Search.splitOn_of_notMem fun hmem => ?_
  rcases List.mem_append.1 hmem with hmem | hmem
  · rcases List.mem_append.1 hmem with hmem | hmem
    · exact hname hmem
    · exact absurd hmem (by decide)
  · exact hvalue hmem

/-- Without a colon in it, the name of a header is the name of its line. -/
theorem namesContentLength_iff {name : ByteString} (hname : 58 ∉ name) (value : ByteString) :
    NamesContentLength (name ++ bytes ": " ++ value) ↔
      toLower name = kHttpHeaderNormalized_ContentLength := by
  have hbefore : ∀ c ∈ name, decide (c ≠ 58) = true := fun c hc =>
    decide_eq_true fun heq => hname (heq ▸ hc)
  have htake : (name ++ bytes ": " ++ value).takeWhile (· ≠ 58) = name := by
    rw [List.append_assoc, List.takeWhile_append_of_pos hbefore,
      show bytes ": " = [58, 32] by decide, List.cons_append,
      List.takeWhile_cons_of_neg (by decide), List.append_nil]
  have hcolon : 58 ∈ name ++ bytes ": " ++ value :=
    List.mem_append_left _ (List.mem_append_right _ (by decide))
  rw [NamesContentLength, htake, and_iff_right hcolon]

theorem filter_contentLengthLine (contentLength : ℕ) :
    (headerLines (kHttpHeaderNormalized_ContentLength, bytes (toString contentLength))).filter
      NamesContentLength = [contentLengthLine contentLength] := by
  have hdigits : 13 ∉ bytes (toString contentLength) := fun hmem =>
    absurd (show 13 ∈ crLf by decide) (notMem_of_toString hmem (by decide))
  have hname : 13 ∉ kHttpHeaderNormalized_ContentLength := by decide
  have hcolon : 58 ∉ kHttpHeaderNormalized_ContentLength := by decide
  have hlower : toLower kHttpHeaderNormalized_ContentLength =
    kHttpHeaderNormalized_ContentLength := by decide
  rw [headerLines_eq hname hdigits, List.filter_cons_of_pos]
  · rfl
  · exact decide_eq_true ((namesContentLength_iff hcolon _).2 hlower)

/-- What names the content length in the lines of other headers. -/
def otherLengths (headers : List (ByteString × ByteString)) : List ByteString :=
  ((headers.filter fun header => header.1 ≠ kHttpHeaderNormalized_ContentLength).filter
    fun header => header.1 ≠ []).flatMap fun header =>
      (headerLines header).filter NamesContentLength

theorem noOtherLength_iff_nil :
    NoOtherLength firstLine headers ↔
      (lines firstLine).tail.filter NamesContentLength = [] ∧ otherLengths headers = [] := by
  simp only [otherLengths, List.flatMap_eq_nil_iff, List.filter_eq_nil_iff, List.mem_filter,
    decide_eq_true_eq]
  constructor
  · intro h
    exact ⟨h.firstLine, fun header ⟨⟨hheader, hother⟩, hname⟩ =>
      h.headers header hheader hname hother⟩
  · rintro ⟨hfirst, hheaders⟩
    exact ⟨hfirst, fun header hheader hname hother =>
      hheaders header ⟨⟨hheader, hother⟩, hname⟩⟩

/-- The lines of a head that name the content length, in some order. -/
theorem filter_lines_perm {headers' : List (ByteString × ByteString)} {contentLength : ℕ}
    (hperm : headers'.Perm (adjustedHeaders headers contentLength)) :
    ((lines (headText firstLine headers')).tail.filter NamesContentLength).Perm
      ((if 0 < contentLength then [contentLengthLine contentLength] else []) ++
        ((lines firstLine).tail.filter NamesContentLength ++ otherLengths headers)) := by
  have hlines : lines firstLine ≠ [] := Search.splitAtMost_ne_nil _ _ _
  have hempty : ([[], []] : List ByteString).filter NamesContentLength = [] := by decide
  rw [lines_headText, List.tail_append_of_ne_nil hlines, List.filter_append, List.filter_append,
    hempty, List.append_nil, List.filter_flatMap]
  have hsent := ((hperm.filter fun header => header.1 ≠ []).flatMap_right
    fun header => (headerLines header).filter NamesContentLength).append_left
      ((lines firstLine).tail.filter NamesContentLength)
  refine hsent.trans (.trans (.of_eq ?_) (List.perm_append_comm_assoc _ _ _))
  rw [adjustedHeaders, otherLengths]
  by_cases hlength : 0 < contentLength
  · have hname : kHttpHeaderNormalized_ContentLength ≠ [] := by decide
    rw [if_pos hlength, if_pos hlength, List.filter_cons_of_pos (by exact decide_eq_true hname),
      List.flatMap_cons, filter_contentLengthLine]
  · rw [if_neg hlength, if_neg hlength, List.nil_append]

/-- **The length of a message is unambiguous** exactly if nothing but the one key brings a line that
names it. -/
theorem unambiguousLength_iff (factory : BufferFactory) (h : Writes write packet firstLine)
    (hheaders : HasHeaders packet headers) :
    ∃ head, writeHead firstLine packet = .ok head ∧
      (UnambiguousLength head (bodyLength packet) ↔ NoOtherLength firstLine headers) ∧
      factory.Ensures (write factory packet) fun push =>
        MemoryStream.bytesOf push.packet.buffers =
          if packet.buffers = [] then [] else head ++ firstContents packet := by
  obtain ⟨headers', hperm, hhead⟩ := writeHead_spec firstLine hheaders
  refine ⟨_, hhead, ?_, ?_⟩
  · have hfilter := @filter_lines_perm firstLine headers headers' _ hperm
    rw [UnambiguousLength, noOtherLength_iff_nil, ← List.append_eq_nil_iff]
    constructor
    · intro hone
      -- nothing is left beside the one line
      rw [hone] at hfilter
      have hlength := hfilter.length_eq
      rw [List.length_append] at hlength
      exact List.length_eq_zero_iff.1 (by omega)
    · intro hnone
      rw [hnone, List.append_nil] at hfilter
      split_ifs at hfilter ⊢
      · exact List.perm_singleton.1 hfilter
      · exact hfilter.eq_nil
  · rw [h.eq_writeMessage]
    refine (writeMessage_of_head factory hheaders.valid hhead).imp fun push hpush => ?_
    obtain ⟨-, -, hbuffers⟩ := hpush
    cases hfirst : packet.buffers with
    | nil =>
      rw [hfirst] at hbuffers
      rw [if_pos rfl, hbuffers, MemoryStream.bytesOf_nil]
    | cons buffer buffers =>
      rw [hfirst] at hbuffers
      obtain ⟨written, hwritten, -, hcontents⟩ := hbuffers
      rw [if_neg (List.cons_ne_nil _ _), hwritten, MemoryStream.bytesOf_cons,
        MemoryStream.bytesOf_nil, List.append_nil, hcontents, firstContents, hfirst]
      rfl

/-- **For headers that fit on lines**, behind a first line that is one, it is a question of the
names: none but the one key may be a content length in other letters. -/
theorem noOtherLength_iff (hfirst : 13 ∉ firstLine) (h : OnLines headers) :
    NoOtherLength firstLine headers ↔ ∀ header ∈ headers,
      toLower header.1 = kHttpHeaderNormalized_ContentLength →
        header.1 = kHttpHeaderNormalized_ContentLength := by
  have hline : ∀ header ∈ headers,
      headerLines header = [header.1 ++ bytes ": " ++ header.2] ∧ 58 ∉ header.1 :=
    fun header hheader =>
      ⟨headerLines_eq (notMem_name h hheader (by decide))
        (fun hmem => (h.value header hheader).2 13 hmem (by decide)),
      notMem_name h hheader (by decide)⟩
  constructor
  · intro hno header hheader hlower
    by_contra hother
    obtain ⟨hone, hcolon⟩ := hline header hheader
    have hne : header.1 ≠ [] := by
      intro hnil
      rw [hnil] at hlower
      cases hlower
    exact hno.headers header hheader hne hother _ (by rw [hone]; exact List.mem_singleton_self _)
      ((namesContentLength_iff hcolon _).2 hlower)
  · intro hnames
    constructor
    · rw [lines, crLf, show bytes "\r\n" = [13, 10] by decide, Search.splitOn_of_notMem hfirst]
      exact fun line hmem => absurd hmem (List.not_mem_nil)
    · intro header hheader _ hother line hmem
      obtain ⟨hone, hcolon⟩ := hline header hheader
      rw [hone, List.mem_singleton] at hmem
      rw [hmem, namesContentLength_iff hcolon]
      exact fun hlower => hother (hnames header hheader hlower)

/-- A request with a body. -/
theorem unambiguousLength_iff_get :
    ∃ head, writeHead (bytes "GET" ++ bytes " " ++ bytes "/" ++ bytes " HTTP/1.1")
        (getPacket [.ofBytes (bytes "x")]) = .ok head ∧
      (UnambiguousLength head (bodyLength (getPacket [.ofBytes (bytes "x")])) ↔
        NoOtherLength (bytes "GET" ++ bytes " " ++ bytes "/" ++ bytes " HTTP/1.1")
          [(bytes "host", bytes "a")]) ∧
      BufferFactory.zeros.Ensures (HttpRequestHeaderWriter.handlePacket .zeros
          (getPacket [.ofBytes (bytes "x")])) fun push =>
        MemoryStream.bytesOf push.packet.buffers =
          if (getPacket [.ofBytes (bytes "x")]).buffers = [] then []
          else head ++ firstContents (getPacket [.ofBytes (bytes "x")]) :=
  unambiguousLength_iff .zeros (.request rfl rfl) (hasHeaders_get _ (by decide))

/-- A response with one body byte, and a content length of its own in other letters. -/
def contentLengthPacket : Packet where
  parameters := .object
    [(kParameter_HttpHeaders, headersJson [(bytes "Content-Length", bytes "9")]),
      (kParameter_HttpStatusCode, .numberUnsigned 200)]
  buffers := [.ofBytes (bytes "x")]

/-- **A message may have two content lengths.** -/
theorem not_unambiguousLength : ¬ ∀ (write : BufferFactory → Packet → Code Push) (packet : Packet)
    (firstLine : ByteString) (headers : List (ByteString × ByteString)),
    Writes write packet firstLine → HasHeaders packet headers →
      ∃ head, writeHead firstLine packet = .ok head ∧
        UnambiguousLength head (bodyLength packet) := by
  intro h
  have hheaders : HasHeaders contentLengthPacket [(bytes "Content-Length", bytes "9")] :=
    ⟨rfl, by decide, by decide⟩
  have hwrites : Writes HttpResponseWriter.handlePacket contentLengthPacket
      (statusLine 200 ((none : Option ByteString).getD (defaultReason 200))) :=
    .response rfl rfl rfl
  obtain ⟨head, hhead, hone⟩ := h _ _ _ _ hwrites hheaders
  have hwritten : writeHead (statusLine 200 ((none : Option ByteString).getD (defaultReason 200)))
      contentLengthPacket = .ok
        (bytes "HTTP/1.1 200 OK\r\nContent-Length: 9\r\ncontent-length: 1\r\n\r\n") := rfl
  obtain rfl := Except.ok.inj (hwritten.symm.trans hhead)
  exact absurd (congrArg List.length hone) (by decide)

end Http

end Maplang
