import Maplang.Http.MessageWriter

/-!
# The headers of a request are looked at one at a time

The lines of a header block are assigned to the headers stream one after the other, so only the
last one is parsed.  The New Request packet has the headers of the head exactly if there is one; a
head without headers leads to one without a name.

## Main definitions

* `Http.RequestHead` : the three tokens of a request line, and any number of headers.
* `Http.HeadReceived` : the parameters of a packet are those of the head.

## Main results

* `HttpRequestExtractor.newRequests_of_head` : what a head leads to, wherever its bytes are cut.
* `HttpRequestExtractor.headReceived_iff` : the headers are received exactly if there is one.
-/

namespace Maplang

namespace Http

/-- A request head. -/
structure RequestHead where
  method : ByteString
  path : ByteString
  version : ByteString
  headers : List (ByteString × ByteString)

/-- The entries of a value that is iterated over as an object. -/
def entries : Json → List (ByteString × Json)
  | .object members => members
  | _ => []

/-- The parameters of a packet are those of the head: one entry for each header, under its name in
lower case, and the tokens of the request line. -/
structure HeadReceived (head : RequestHead) (packet : Packet) : Prop where
  httpHeaders : ∃ value, packet.parameters.find kParameter_HttpHeaders = some value ∧
    (entries value).Perm (head.headers.map fun header => (toLower header.1, .string header.2))
  httpMethod : packet.parameters.find kParameter_HttpMethod = some (.string head.method)
  httpPath : packet.parameters.find kParameter_HttpPath = some (.string head.path)
  httpVersion : packet.parameters.find kParameter_HttpVersion = some (.string head.version)

namespace RequestHead

variable (head : RequestHead)

/-- The first line. -/
def requestLine : ByteString := (bytes " ").intercalate [head.method, head.path, head.version]

/-- The head with a body behind it. -/
def request (body : ByteString) : Request := message head.requestLine head.headers body

/-- The tokens of the first line are not empty and have no spaces and line breaks inside.  The
headers can be written on a line each, their names are different, and none is a content length. -/
structure WellFormed : Prop where
  tokens : ∀ token ∈ [head.method, head.path, head.version],
    token ≠ [] ∧ ∀ c ∈ token, c ∉ bytes " \r\n"
  distinct : (head.headers.map fun header => toLower header.1).Nodup
  name : ∀ header ∈ head.headers, header.1 ≠ [] ∧ Trimmed header.1 ∧
    ∀ c ∈ header.1, c ∉ bytes ":\r\n"
  value : ∀ header ∈ head.headers, Trimmed header.2 ∧ ∀ c ∈ header.2, c ∉ crLf
  contentLength : ∀ header ∈ head.headers, ¬ IsContentLength header

variable {head}

theorem WellFormed.onLines (h : head.WellFormed) : OnLines head.headers :=
  ⟨fun header hheader => (h.name header hheader).2.2, h.value⟩

theorem WellFormed.notMem_token (h : head.WellFormed) {c : UInt8} (hc : c ∈ bytes " \r\n")
    {token : ByteString} (htoken : token ∈ [head.method, head.path, head.version]) : c ∉ token :=
  fun hmem => (h.tokens token htoken).2 c hmem hc

theorem requestLine_eq (head : RequestHead) :
    head.requestLine = head.method ++ bytes " " ++ (head.path ++ bytes " " ++ head.version) := by
  rw [requestLine, List.intercalate_cons_cons, List.intercalate_cons_cons,
    List.intercalate_singleton]

theorem WellFormed.isFirstLine (h : head.WellFormed) : IsFirstLine head.requestLine := by
  have hmethod := List.length_pos_iff.2 (h.tokens head.method (by simp)).1
  have hpath := List.length_pos_iff.2 (h.tokens head.path (by simp)).1
  have hspace : (bytes " ").length = 1 := rfl
  rw [requestLine_eq]
  constructor
  · simp only [List.length_append]
    omega
  · simp only [List.mem_append, not_or]
    exact ⟨⟨h.notMem_token (by decide) (by simp), by decide⟩,
      ⟨h.notMem_token (by decide) (by simp), by decide⟩, h.notMem_token (by decide) (by simp)⟩

/-- The first line is cut into its tokens. -/
theorem WellFormed.splitOn_requestLine (h : head.WellFormed) :
    Search.splitOn (bytes " ") head.requestLine = [head.method, head.path, head.version] :=
  Search.splitOn_intercalate (List.cons_ne_nil _ _) fun _ htoken =>
    h.notMem_token (by decide) htoken

/-- The headers that are found: the last one, or one without a name. -/
theorem WellFormed.requestHeaders_eq (h : head.WellFormed) (body : ByteString) :
    requestHeaders (head.request body).block = headersJson
      [(head.headers.getLast?.map fun last => (toLower last.1, last.2)).getD ([], [])] := by
  cases hlast : head.headers.getLast? with
  | none =>
    have hnil := List.getLast?_eq_none_iff.1 hlast
    rw [request, hnil, requestHeaders_nil h.isFirstLine]
    rfl
  | some last =>
    have htrimmed : Search.trim (· ∈ MemoryStream.whitespace) last.1 = last.1 :=
      (h.name last (List.mem_of_getLast? hlast)).2.1
    rw [request, (requestHeaders_last h.isFirstLine h.onLines hlast).2, receivedName, htrimmed]
    rfl

theorem WellFormed.not_contentLengthLast (h : head.WellFormed) (body : ByteString) :
    ¬ HttpRequestExtractor.ContentLengthLast (head.request body).block := by
  intro hcontent
  cases hlast : head.headers.getLast? with
  | none =>
    have hnil := List.getLast?_eq_none_iff.1 hlast
    rw [request, hnil, HttpRequestExtractor.ContentLengthLast,
      lastLine_message_nil h.isFirstLine] at hcontent
    exact absurd hcontent (by decide)
  | some last =>
    have hmem := List.mem_of_getLast? hlast
    have htrimmed : Search.trim (· ∈ MemoryStream.whitespace) last.1 = last.1 :=
      (h.name last hmem).2.1
    rw [request, HttpRequestExtractor.ContentLengthLast,
      (requestHeaders_last h.isFirstLine h.onLines hlast).1, receivedName, htrimmed] at hcontent
    exact h.contentLength last hmem hcontent

end RequestHead

end Http

open Http

namespace HttpRequestExtractor

section

variable {head : RequestHead} {packets : List Packet}

/-- **What a head leads to**: one New Request packet, with one header. -/
theorem newRequests_of_head (random : ℕ → ℕ) (h : head.WellFormed) {body : ByteString}
    (hpackets : ∀ packet ∈ packets, HasBuffer packet)
    (hreceived : received packets = (head.request body).encode) :
    ∃ pushes x packet, (construct random).run random packets = .ok (pushes, x) ∧
      newRequests pushes = [packet] ∧
      packet.parameters.find kParameter_HttpHeaders = some (headersJson
        [(head.headers.getLast?.map fun last => (toLower last.1, last.2)).getD ([], [])]) ∧
      packet.parameters.find kParameter_HttpMethod = some (.string head.method) ∧
      packet.parameters.find kParameter_HttpPath = some (.string head.path) ∧
      packet.parameters.find kParameter_HttpVersion = some (.string head.version) := by
  obtain ⟨pushes, x, hrun, hprogress⟩ := progress_of_construct random hpackets
  rw [hreceived, ← List.append_nil (head.request body).encode] at hprogress
  have hlines : (head.request body).HasLines := hasLines_message h.isFirstLine h.onLines
  rcases progress_of_lines hlines (four_le_message h.isFirstLine) hprogress with
    ⟨hlast, -⟩ | ⟨-, -, -, bodies, rfl, -⟩
  · exact absurd hlast (h.not_contentLengthLast body)
  · have htokens : Search.splitOn (bytes " ") ((lines (head.request body).block).headD []) =
        [head.method, head.path, head.version] := by
      rw [RequestHead.request, headD_lines_message h.isFirstLine h.onLines,
        h.splitOn_requestLine]
    obtain ⟨hmethod, hpath, hversion, hheaders⟩ := find_headerParameters
      (a := kParameter_HttpMethod) (b := kParameter_HttpPath) (c := kParameter_HttpVersion)
      (head.request body).block (bytes (toString (random 0))) (by decide) htokens
    rw [h.requestHeaders_eq body] at hheaders
    exact ⟨_, x, _, hrun, newRequests_body _ bodies, hheaders, hmethod, hpath, hversion⟩

/-- The New Request packet has the tokens and the headers of the head. -/
def ReceivesHead (random : ℕ → ℕ) (head : RequestHead) (packets : List Packet) : Prop :=
  ∃ pushes x packet, (construct random).run random packets = .ok (pushes, x) ∧
    newRequests pushes = [packet] ∧ HeadReceived head packet

theorem length_of_receivesHead (random : ℕ → ℕ) (h : head.WellFormed) {body : ByteString}
    (hpackets : ∀ packet ∈ packets, HasBuffer packet)
    (hreceived : received packets = (head.request body).encode)
    (hhead : ReceivesHead random head packets) : head.headers.length = 1 := by
  obtain ⟨pushes, x, packet, hrun, hnew, hheaders, -⟩ :=
    newRequests_of_head random h hpackets hreceived
  obtain ⟨pushes', x', packet', hrun', hnew', ⟨value, hvalue, hentries⟩, -⟩ := hhead
  obtain ⟨rfl, rfl⟩ := ok_pair_unique hrun' hrun
  obtain rfl := List.singleton_inj.1 (hnew'.symm.trans hnew)
  obtain rfl := Option.some.inj (hvalue.symm.trans hheaders)
  have hlength := hentries.length_eq
  rw [List.length_map] at hlength
  exact hlength.symm

end

/-- **The headers are received exactly if there is one**, wherever the bytes are cut. -/
theorem headReceived_iff (random : ℕ → ℕ) {head : RequestHead} (h : head.WellFormed)
    {body : ByteString} {packets : List Packet}
    (hpackets : ∀ packet ∈ packets, HasBuffer packet)
    (hreceived : received packets = (head.request body).encode) :
    ReceivesHead random head packets ↔ head.headers.length = 1 := by
  refine ⟨length_of_receivesHead random h hpackets hreceived, fun hone => ?_⟩
  obtain ⟨header, hheader⟩ := List.length_eq_one_iff.1 hone
  obtain ⟨pushes, x, packet, hrun, hnew, hheaders, hmethod, hpath, hversion⟩ :=
    newRequests_of_head random h hpackets hreceived
  refine ⟨pushes, x, packet, hrun, hnew, ⟨_, hheaders, ?_⟩, hmethod, hpath, hversion⟩
  rw [hheader]
  exact .refl _

/-- A head with headers of these names. -/
def headWith (headers : List (ByteString × ByteString)) : RequestHead where
  method := bytes "GET"
  path := bytes "/"
  version := bytes "HTTP/1.1"
  headers := headers

theorem wellFormed_headWith {headers : List (ByteString × ByteString)}
    (hdistinct : (headers.map fun header => toLower header.1).Nodup)
    (hname : ∀ header ∈ headers, header.1 ≠ [] ∧ Trimmed header.1 ∧
      header.1.all (· ∉ bytes ":\r\n") = true)
    (hvalue : ∀ header ∈ headers, Trimmed header.2 ∧ header.2.all (· ∉ crLf) = true)
    (hlength : ∀ header ∈ headers, ¬ IsContentLength header) : (headWith headers).WellFormed where
  tokens := by
    have htoken : ∀ token ∈ [bytes "GET", bytes "/", bytes "HTTP/1.1"],
        token ≠ [] ∧ token.all (· ∉ bytes " \r\n") = true := by decide
    exact fun token hmem => ⟨(htoken token hmem).1, forall_mem_of_all (htoken token hmem).2⟩
  distinct := hdistinct
  name header hmem :=
    ⟨(hname header hmem).1, (hname header hmem).2.1, forall_mem_of_all (hname header hmem).2.2⟩
  value header hmem := ⟨(hvalue header hmem).1, forall_mem_of_all (hvalue header hmem).2⟩
  contentLength := hlength

/-- One header, cut in the middle of its name. -/
theorem headReceived_iff_one : ReceivesHead (fun _ => 0) (headWith [(bytes "Host", bytes "a")])
      [{ buffers := [.ofBytes (bytes "GET / HTTP/1.1\r\nHo")] },
        { buffers := [.ofBytes (bytes "st: a\r\n\r\nx")] }] ↔
    (headWith [(bytes "Host", bytes "a")]).headers.length = 1 :=
  @headReceived_iff (fun _ => 0) _
    (wellFormed_headWith (by decide) (by decide) (by decide) (by decide)) (bytes "x") _ (by decide)
    (by decide)

/-- **Of two headers, one is lost.** -/
theorem not_receivesHead_two :
    (headWith [(bytes "Host", bytes "a"), (bytes "Accept", bytes "b")]).WellFormed ∧
      ¬ ReceivesHead (fun _ => 0)
        (headWith [(bytes "Host", bytes "a"), (bytes "Accept", bytes "b")])
        [{ buffers := [.ofBytes
          (bytes "GET / HTTP/1.1\r\nHost: a\r\nAccept: b\r\n\r\n")] }] := by
  have hhead : (headWith [(bytes "Host", bytes "a"), (bytes "Accept", bytes "b")]).WellFormed :=
    wellFormed_headWith (by decide) (by decide) (by decide) (by decide)
  refine ⟨hhead, fun hreceives => ?_⟩
  have hlength :=
    @length_of_receivesHead _ _ (fun _ => 0) hhead [] (by decide) (by decide) hreceives
  cases hlength

end HttpRequestExtractor

end Maplang
