import Maplang.Http.Framing
import Maplang.Nodes.ContextualInstances

/-!
# Requests on many connections

A server has one `HttpRequestExtractor` for each connection: its packets go to a `ContextualNode`
whose key is the id of the connection, and when a connection is closed its id is sent to the Context
Remover, which destroys the extractor.  Packets of all connections come in any order.

* `extractorClass` : what the extractors of a contextual node do.
* `progress_serveAlone` : what is pushed for a connection, by the bytes received on it.
* `frames_each_connection` : **a request is framed on its connection**, whatever comes on the
  others.
-/

namespace Maplang

namespace HttpRequestExtractor

open Http ContextualNode

variable {ι : Type}

/-- Extractors, each with the numbers that its random device draws.  `thrownBy` tells what the push
of a New Request packet throws while another packet is handled. -/
def extractorClass (random : ι → ℕ → ℕ)
    (thrownBy : Packet → Push → Option Fault := fun _ _ => none) :
    ObjectClass ι HttpRequestExtractor where
  construct i := construct (random i)
  handlePacket i x packet :=
    match x.handlePacket (random i) packet (thrownBy packet) with
    | .ok (pushes, x') => (⟨pushes, .ok ()⟩, x')
    | .error fault => (⟨[], .error fault⟩, x)
  destroy := destroy

/-- The request id that an extractor starts with. -/
def firstRequestId (random : ι → ℕ → ℕ) (i : ι) : ByteString := bytes (toString (random i 0))

/-- The packets that are sent to the router. -/
def routed : List Incoming → List Packet :=
  List.filterMap fun
    | .contextRouter packet => some packet
    | .contextRemover _ => none

/-- What is pushed, in order. -/
def pushed (replies : List Reply) : List Push := replies.flatMap fun reply => reply.log.map Prod.snd

section

variable (random : ι → ℕ → ℕ) (mKey : ByteString) {i : ι} {x : HttpRequestExtractor}
  {input : ByteString} {pushes : List Push}

/-- One packet, on one connection. -/
theorem progress_serveAlone {live : Option (ι × HttpRequestExtractor)} {made : ι}
    (hlive : live.getD (made, construct (random made)) = (i, x))
    (h : Progress (firstRequestId random i) input pushes x) {packet : Packet}
    (hpacket : HasBuffer packet) :
    ∃ reply x', (extractorClass random).serveAlone mKey live (made, .contextRouter packet) =
        .ok (reply, some (i, x')) ∧
      (∀ push ∈ reply.log, push.1 = Interface.contextRouter) ∧
      Progress (firstRequestId random i) (input ++ (firstBuffer packet).contents)
        (pushes ++ reply.log.map Prod.snd) x' := by
  obtain ⟨new, x', hhandle, h'⟩ := progress_step (random i) hpacket h
  refine ⟨⟨new.map (Interface.contextRouter, ·), .ok ()⟩, x', ?_, ?_, ?_⟩
  · rw [ObjectClass.serveAlone_router (B := extractorClass random) hlive]
    simp only [extractorClass, hhandle]
    rfl
  · simp
  · rw [List.map_map]
    simpa [Function.comp_def] using h'

/-- The packets of a connection that is open. -/
theorem progress_session {calls : List (ι × Incoming)}
    (hcalls : ∀ call ∈ calls, ∃ packet, call.2 = .contextRouter packet ∧ HasBuffer packet)
    (h : Progress (firstRequestId random i) input pushes x) :
    ∃ replies x', Service.answers ((extractorClass random).serveAlone mKey) (some (i, x)) calls =
        .ok replies ∧
      Service.after ((extractorClass random).serveAlone mKey) (some (i, x)) calls =
        .ok (some (i, x')) ∧
      (∀ reply ∈ replies, ∀ push ∈ reply.log, push.1 = Interface.contextRouter) ∧
      Progress (firstRequestId random i) (input ++ received (routed (calls.map Prod.snd)))
        (pushes ++ pushed replies) x' := by
  induction calls generalizing input pushes x with
  | nil => exact ⟨[], x, rfl, rfl, by simp, by simpa [received, routed, pushed] using h⟩
  | cons call calls ih =>
    obtain ⟨made, incoming⟩ := call
    obtain ⟨⟨packet, rfl, hpacket⟩, hrest⟩ := List.forall_mem_cons.1 hcalls
    obtain ⟨reply, x', hserve, hrouter, h'⟩ :=
      progress_serveAlone random mKey
        (show (some (i, x)).getD (made, construct (random made)) = (i, x) from rfl) h hpacket
    obtain ⟨replies, x'', hanswers, hafter, hrouters, h''⟩ := ih hrest h'
    refine ⟨reply :: replies, x'', Service.answers_cons_iff.2 ⟨_, _, _, hserve, hanswers, rfl⟩, ?_,
      List.forall_mem_cons.2 ⟨hrouter, hrouters⟩, ?_⟩
    · rw [Service.after, List.foldlM_cons, hserve]
      exact hafter
    · have hreceived : received (routed ((made, Incoming.contextRouter packet) :: calls |>.map
          Prod.snd)) = (firstBuffer packet).contents ++ received (routed (calls.map Prod.snd)) :=
        MemoryStream.bytesOf_cons ..
      rw [hreceived, pushed, List.flatMap_cons, ← List.append_assoc, ← List.append_assoc]
      exact h''

/-- A connection that is opened by its first packet. -/
theorem progress_opened {calls : List (ι × Incoming)} (hne : calls ≠ [])
    (hcalls : ∀ call ∈ calls, ∃ packet, call.2 = .contextRouter packet ∧ HasBuffer packet) :
    ∃ replies i x, Service.answers ((extractorClass random).serveAlone mKey) none calls =
        .ok replies ∧
      Service.after ((extractorClass random).serveAlone mKey) none calls = .ok (some (i, x)) ∧
      (∀ reply ∈ replies, ∀ push ∈ reply.log, push.1 = Interface.contextRouter) ∧
      Progress (firstRequestId random i) (received (routed (calls.map Prod.snd)))
        (pushed replies) x := by
  -- the object that comes with the first packet handles all of them
  obtain ⟨⟨made, incoming⟩, calls, rfl⟩ := List.exists_cons_of_ne_nil hne
  obtain ⟨replies, x, hanswers, hafter, hrouters, h⟩ :=
    progress_session random mKey hcalls (progress_construct (random made))
  have hfirst : (extractorClass random).serveAlone mKey none (made, incoming) =
      (extractorClass random).serveAlone mKey (some (made, construct (random made)))
        (made, incoming) := by
    obtain ⟨packet, rfl, -⟩ := hcalls _ List.mem_cons_self
    rfl
  refine ⟨replies, made, x, ?_, ?_, hrouters, by simpa using h⟩
  · rw [Service.answers, hfirst, ← hanswers, Service.answers]
  · rw [Service.after, List.foldlM_cons, hfirst, ← hafter, Service.after, List.foldlM_cons]

/-- What an extractor has pushed agrees with what it has received. -/
def Started (random : ι → ℕ → ℕ) (live : Option (ι × HttpRequestExtractor)) : Prop :=
  ∀ i x, live = some (i, x) → ∃ input pushes, Progress (firstRequestId random i) input pushes x

theorem started_none : Started random none := nofun

/-- Any packet of a connection is answered. -/
theorem Started.serveAlone {random : ι → ℕ → ℕ} (mKey : ByteString)
    {live : Option (ι × HttpRequestExtractor)} (h : Started random live) (made : ι)
    {incoming : Incoming}
    (hbuffer : ∀ packet, incoming = .contextRouter packet → HasBuffer packet) :
    ∃ reply live', (extractorClass random).serveAlone mKey live (made, incoming) =
        .ok (reply, live') ∧ Started random live' ∧
      ∀ packet, incoming = .contextRemover packet → live' = none := by
  cases incoming with
  | contextRouter packet =>
    obtain ⟨i, x, hlive, input, pushes, hx⟩ : ∃ i x,
        live.getD (made, construct (random made)) = (i, x) ∧
        ∃ input pushes, Progress (firstRequestId random i) input pushes x := by
      cases live with
      | none => exact ⟨_, _, rfl, [], [], progress_construct (random made)⟩
      | some p => exact ⟨_, _, rfl, h _ _ rfl⟩
    obtain ⟨reply, x', hserve, -, h'⟩ :=
      progress_serveAlone random mKey hlive hx (hbuffer packet rfl)
    refine ⟨reply, _, hserve, ?_, nofun⟩
    rintro i' x'' heq
    obtain ⟨rfl, rfl⟩ := Prod.mk.inj (Option.some.inj heq)
    exact ⟨_, _, h'⟩
  | contextRemover packet =>
    cases live with
    | none => exact ⟨_, none, rfl, nofun, fun _ _ => rfl⟩
    | some p => exact ⟨_, none, rfl, nofun, fun _ _ => rfl⟩

/-- Any packets of a connection are answered; after it has been removed there is no extractor. -/
theorem Started.answers {random : ι → ℕ → ℕ} (mKey : ByteString)
    {live : Option (ι × HttpRequestExtractor)} (h : Started random live)
    {calls : List (ι × Incoming)}
    (hbuffer : ∀ call ∈ calls, ∀ packet, call.2 = .contextRouter packet → HasBuffer packet) :
    ∃ replies live', Service.answers ((extractorClass random).serveAlone mKey) live calls =
        .ok replies ∧
      Service.after ((extractorClass random).serveAlone mKey) live calls = .ok live' ∧
      ∀ made packet, calls.getLast? = some (made, .contextRemover packet) → live' = none := by
  induction calls generalizing live with
  | nil => exact ⟨[], live, rfl, rfl, nofun⟩
  | cons call calls ih =>
    obtain ⟨made, incoming⟩ := call
    obtain ⟨hcall, hcalls⟩ := List.forall_mem_cons.1 hbuffer
    obtain ⟨reply, live', hserve, h', hremoved⟩ := h.serveAlone mKey made hcall
    obtain ⟨replies, live'', hanswers, hafter, hlast⟩ := ih h' hcalls
    refine ⟨_, live'', Service.answers_cons_iff.2 ⟨_, _, _, hserve, hanswers, rfl⟩, ?_, ?_⟩
    · rw [Service.after, List.foldlM_cons, hserve]
      exact hafter
    · intro made' packet hget
      cases calls with
      | nil =>
        obtain rfl : live' = live'' := Except.ok.inj hafter
        exact hremoved packet (Prod.mk.inj (Option.some.inj hget)).2
      | cons call' calls => exact hlast made' packet (by rwa [List.getLast?_cons_cons] at hget)

/-- Pushes to the pusher of the router are all that is logged. -/
theorem flatMap_log {replies : List Reply}
    (h : ∀ reply ∈ replies, ∀ push ∈ reply.log, push.1 = Interface.contextRouter) :
    replies.flatMap Logged.log = (pushed replies).map (Interface.contextRouter, ·) := by
  rw [pushed, List.map_flatMap]
  refine List.flatMap_congr fun reply hreply => ?_
  rw [List.map_map]
  exact (List.map_id _).symm.trans
    (List.map_congr_left fun push hpush => Prod.ext (h reply hreply push hpush) rfl)

/-- **One connection alone**: what comes before does not matter once it has been removed. -/
theorem frames_alone {before during : List (ι × Incoming)} (made : ι) (last : Packet)
    {request : Request}
    (hbuffer : ∀ call ∈ before ++ during, ∀ packet, call.2 = .contextRouter packet →
      HasBuffer packet)
    (hbefore : ∀ made packet, before.getLast? ≠ some (made, .contextRouter packet))
    (hduring : ∀ call ∈ during, ∀ packet, call.2 ≠ .contextRemover packet)
    (hlines : request.HasLines) (hlong : 4 ≤ request.block.length)
    (hlength : ¬ HttpRequestExtractor.ContentLengthLast request.block)
    (hreceived : received (routed (during.map Prod.snd)) = request.encode) :
    ∃ replies replies' pushes ended,
      Service.answers ((extractorClass random).serveAlone mKey) none
          (before ++ (during ++ [(made, .contextRemover last)])) =
        .ok (replies ++ (replies' ++
          [removalReply ended (removedPush mKey ((Incoming.contextRemover last).key mKey))])) ∧
      replies.length = before.length ∧ replies'.length = during.length ∧
      replies'.flatMap Logged.log = pushes.map (Interface.contextRouter, ·) ∧
      Frames request (pushes ++ ended) := by
  obtain ⟨replies, live, hanswers, hafter, hlast⟩ :=
    (started_none random).answers mKey fun call hcall =>
      hbuffer call (List.mem_append_left during hcall)
  -- there is no extractor for the connection
  obtain rfl : live = none := by
    cases hget : before.getLast? with
    | none =>
      obtain rfl := List.getLast?_eq_none_iff.1 hget
      exact (Except.ok.inj hafter).symm
    | some call =>
      obtain ⟨made', incoming⟩ := call
      cases incoming with
      | contextRouter packet => exact absurd hget (hbefore made' packet)
      | contextRemover packet => exact hlast made' packet hget
  have hne : during ≠ [] := by
    rintro rfl
    have hnil := congrArg List.length hreceived
    rw [Request.encode, List.length_append] at hnil
    change 0 = _ at hnil
    omega
  obtain ⟨replies', i, x, hanswers', hafter', hrouters, hprogress⟩ :=
    progress_opened random mKey hne fun call hcall => by
      obtain ⟨made', incoming⟩ := call
      cases incoming with
      | contextRouter packet =>
        exact ⟨packet, rfl, hbuffer _ (List.mem_append_right _ hcall) packet rfl⟩
      | contextRemover packet => exact absurd rfl (hduring _ hcall packet)
  rw [hreceived, ← List.append_nil request.encode] at hprogress
  rcases progress_of_lines hlines hlong hprogress with
    ⟨hfailed, -⟩ | ⟨-, hsent, hid, bodies, hpushes, hbodies⟩
  · exact absurd hfailed hlength
  refine ⟨replies, replies', pushed replies', x.destroy,
    Service.answers_append hanswers hafter (Service.answers_append hanswers' hafter' rfl),
    Service.length_answers hanswers, Service.length_answers hanswers', flatMap_log hrouters, ?_⟩
  rw [hpushes]
  exact frames_of_body (by rw [hbodies, List.append_nil]) hid hsent

/-- Any packets of all connections are answered. -/
theorem exists_answers_each {calls : List (ι × Incoming)}
    (hbuffer : ∀ call ∈ calls, ∀ packet, call.2 = .contextRouter packet → HasBuffer packet) :
    ∃ answers, Service.answers (Service.each ((extractorClass random).serveAlone mKey)
      fun call => call.2.key mKey) (fun _ => none) calls = .ok answers := by
  refine Service.exists_answers_each_iff.2 fun k => ?_
  have hcalls : ∀ call ∈ Service.callsOf (fun call => call.2.key mKey) k calls, ∀ packet,
      call.2 = .contextRouter packet → HasBuffer packet :=
    fun call hcall => hbuffer call (List.mem_of_mem_filter hcall)
  obtain ⟨replies, -, h, -⟩ := (started_none random).answers mKey hcalls
  exact ⟨replies, h⟩

/-- A list that is as long as two others. -/
theorem exists_append_of_length {α : Type*} {l : List α} {m n : ℕ} (h : l.length = m + n) :
    ∃ r s, l = r ++ s ∧ r.length = m ∧ s.length = n :=
  ⟨l.take m, l.drop m, (List.take_append_drop m l).symm, by simp [h], by simp [h]⟩

/-- **One connection among others.** -/
theorem frames_each {before during : List (ι × Incoming)} (made : ι) {last : Packet}
    {k : ByteString} {request : Request}
    (hbuffer : ∀ call ∈ before ++ during, ∀ packet, call.2 = .contextRouter packet →
      HasBuffer packet)
    (hlast : (Incoming.contextRemover last).key mKey = k)
    (hbefore : ∀ made packet, (Service.callsOf (fun call => call.2.key mKey) k before).getLast? ≠
      some (made, .contextRouter packet))
    (hduring : ∀ call ∈ Service.callsOf (fun call => call.2.key mKey) k during,
      ∀ packet, call.2 ≠ .contextRemover packet)
    (hlines : request.HasLines) (hlong : 4 ≤ request.block.length)
    (hlength : ¬ HttpRequestExtractor.ContentLengthLast request.block)
    (hreceived : received (routed
      ((Service.callsOf (fun call => call.2.key mKey) k during).map Prod.snd)) = request.encode) :
    ∃ replies replies' pushes ended,
      Service.answers (Service.each ((extractorClass random).serveAlone mKey)
          fun call => call.2.key mKey) (fun _ => none)
          (before ++ (during ++ [(made, .contextRemover last)])) =
        .ok (replies ++ (replies' ++ [removalReply ended (removedPush mKey k)])) ∧
      replies.length = before.length ∧ replies'.length = during.length ∧
      (Service.answersOf (fun call => call.2.key mKey) k during replies').flatMap Logged.log =
        pushes.map (Interface.contextRouter, ·) ∧
      Frames request (pushes ++ ended) := by
  obtain ⟨answers, hanswers⟩ : ∃ answers, Service.answers
      (Service.each ((extractorClass random).serveAlone mKey) fun call => call.2.key mKey)
      (fun _ => none) (before ++ (during ++ [(made, .contextRemover last)])) = .ok answers := by
    refine exists_answers_each random mKey fun call hcall => ?_
    rw [← List.append_assoc, List.mem_append, List.mem_singleton] at hcall
    rcases hcall with hcall | rfl
    · exact hbuffer call hcall
    · exact nofun
  -- the answers to each part
  obtain ⟨replies, rest, rfl, hreplies, hrest⟩ := exists_append_of_length
    ((Service.length_answers hanswers).trans List.length_append)
  obtain ⟨replies', one, rfl, hreplies', hone⟩ :=
    exists_append_of_length (hrest.trans List.length_append)
  obtain ⟨reply, rfl⟩ := List.length_eq_one_iff.1 hone
  -- seen from the connection
  have hlastCall : Service.callsOf (fun call => call.2.key mKey) k
      [(made, Incoming.contextRemover last)] = [(made, .contextRemover last)] :=
    Service.callsOf_cons_self hlast
  have hlastAnswer : Service.answersOf (fun call => call.2.key mKey) k
      [(made, Incoming.contextRemover last)] [reply] = [reply] := Service.answersOf_cons_self hlast
  have hanswersOf := Service.answers_callsOf hanswers k
  rw [Service.callsOf_append, Service.callsOf_append, hlastCall,
    Service.answersOf_append hreplies.symm, Service.answersOf_append hreplies'.symm, hlastAnswer]
    at hanswersOf
  obtain ⟨aloneReplies, aloneReplies', pushes, ended, halone, hlen, hlen', hlog, hframes⟩ :=
    frames_alone random mKey made last
      (fun call hcall => hbuffer call (by
        rw [← Service.callsOf_append] at hcall
        exact List.mem_of_mem_filter hcall))
      hbefore hduring hlines hlong hlength hreceived
  obtain ⟨-, hsame⟩ := List.append_inj (Except.ok.inj (hanswersOf.symm.trans halone))
    (by rw [Service.length_answersOf hreplies.symm, hlen])
  obtain ⟨hsame, hreply⟩ :=
    List.append_inj hsame (by rw [Service.length_answersOf hreplies'.symm, hlen'])
  rw [hlast] at hreply
  refine ⟨replies, replies', pushes, ended, ?_, hreplies, hreplies', by rw [hsame, hlog], hframes⟩
  rw [hanswers, ← hreply]

end

/-- **A request is framed on its connection**, whatever comes on the others.  The packets of all
connections come in any order; connection `k` is new, or its extractor has been removed before.  If
the bytes that are received on it until it is removed are a request whose last header is no content
length, then what is pushed for it by then, with what its extractor pushes when it is destroyed, is
a New Request packet, the body and a Request Ended packet. -/
theorem frames_each_connection [DecidableEq ι] (F : ImplementationFactory ι) (random : ι → ℕ → ℕ)
    (hfresh : Function.Injective F.createImplementation)
    (hpath : ∀ n, F.isPathable (F.createImplementation n) = true) (initParameters : Json)
    (c₀ : ContextualNode ι)
    (hconstruct : ContextualNode.construct F initParameters = .ok (some c₀))
    (objects : ι → HttpRequestExtractor) (before during : List Incoming) (last : Packet)
    {k : ByteString} (request : Request)
    (hkey : ∀ incoming ∈ before ++ (during ++ [.contextRemover last]), HasKey c₀.mKey incoming)
    (hbuffer : ∀ packet, .contextRouter packet ∈ before ++ during → HasBuffer packet)
    (hlast : (Incoming.contextRemover last).key c₀.mKey = k)
    (hbefore : ∀ packet, (Service.callsOf (Incoming.key c₀.mKey) k before).getLast? ≠
      some (.contextRouter packet))
    (hduring : ∀ packet, .contextRemover packet ∉
      Service.callsOf (Incoming.key c₀.mKey) k during)
    (hlines : request.HasLines) (hlong : 4 ≤ request.block.length)
    (hlength : ¬ HttpRequestExtractor.ContentLengthLast request.block)
    (hreceived : received (routed (Service.callsOf (Incoming.key c₀.mKey) k during)) =
      request.encode) :
    ∃ replies replies' pushes ended,
      Service.answers (Hosting.serve F (extractorClass random)) ⟨c₀, objects⟩
          (before ++ (during ++ [.contextRemover last])) =
        .ok (replies ++ (replies' ++ [removalReply ended (removedPush c₀.mKey k)])) ∧
      replies.length = before.length ∧ replies'.length = during.length ∧
      (Service.answersOf (Incoming.key c₀.mKey) k during replies').flatMap Logged.log =
        pushes.map (Interface.contextRouter, ·) ∧
      Frames request (pushes ++ ended) := by
  have hall := Hosting.answers_eq (B := extractorClass random) hfresh hpath
    (Hosting.mirrors_construct hconstruct objects) hkey
  -- each packet comes with an object
  obtain ⟨before', rest, hcalls, rfl, hrest⟩ :=
    List.map_eq_append_iff.1 (map_withMade F c₀.mKey (before ++ (during ++ [.contextRemover last])))
  obtain ⟨during', last', rfl, rfl, hlast'⟩ := List.map_eq_append_iff.1 hrest
  obtain ⟨⟨made, incoming⟩, rfl, rfl⟩ := List.map_eq_singleton_iff.1 hlast'
  rw [hcalls] at hall
  rw [Service.callsOf_map] at hbefore hduring hreceived
  obtain ⟨replies, replies', pushes, ended, hanswers, hreplies, hreplies', hlog, hframes⟩ :=
    frames_each random c₀.mKey made
      (fun call hcall packet hpacket => hbuffer packet (by
        rw [← hpacket, ← List.map_append]
        exact List.mem_map_of_mem hcall)) hlast
      (fun made packet hget => hbefore packet (by rw [List.getLast?_map, hget]; rfl))
      (fun call hcall packet hpacket => hduring packet (hpacket ▸ List.mem_map_of_mem hcall))
      hlines hlong hlength hreceived
  refine ⟨replies, replies', pushes, ended, hall.trans hanswers, ?_, ?_, ?_, hframes⟩
  · rw [hreplies, List.length_map]
  · rw [hreplies', List.length_map]
  · rw [Service.answersOf_map, hlog]

/-- A request with a body. -/
def hiRequest : Request where
  requestLine := bytes "GET / HTTP/1.1"
  headers := [(bytes "Host", bytes " x")]
  body := bytes "Hi"

/-- Data from a connection. -/
def dataFrom (connection data : String) : Packet where
  parameters := .object [(bytes "TcpConnectionId", .string (bytes connection))]
  buffers := [.ofBytes (bytes data)]

/-- The request comes in two packets, with data from another connection in between. -/
theorem frames_each_connection_two : ∃ replies pushes ended,
    Service.answers (Hosting.serve countingFactory (extractorClass fun i n => 10 * i + n))
        ⟨{ mType := bytes "HTTP Request Extractor", mKey := bytes "TcpConnectionId", created := 1 },
          fun _ => construct fun _ => 0⟩
        [.contextRouter (dataFrom "a" "GET / HTTP/1.1\r\nHost: x\r\n"),
          .contextRouter (dataFrom "b" "\r\n\r\n"), .contextRouter (dataFrom "a" "\r\nHi"),
          .contextRemover (dataFrom "a" "")] =
      .ok (replies ++ [removalReply ended (removedPush (bytes "TcpConnectionId") (bytes "a"))]) ∧
    Frames hiRequest (pushes ++ ended) := by
  have hkey : ∀ connection data,
      (keyOf (bytes "TcpConnectionId") (dataFrom connection data)).isSome = true := fun _ _ => rfl
  have hbuffer : ∀ connection data, HasBuffer (dataFrom connection data) :=
    fun _ _ => ⟨List.cons_ne_nil _ _, le_rfl⟩
  obtain ⟨replies, replies', pushes, ended, hanswers, hlength, -, -, hframes⟩ :=
    frames_each_connection countingFactory (fun i n => 10 * i + n) (fun _ _ h => h) (fun _ => rfl)
      (.object [(bytes "type", .string (bytes "HTTP Request Extractor")),
        (bytes "key", .string (bytes "TcpConnectionId"))])
      { mType := bytes "HTTP Request Extractor", mKey := bytes "TcpConnectionId", created := 1 }
      (by rfl) (fun _ => construct fun _ => 0) []
      [.contextRouter (dataFrom "a" "GET / HTTP/1.1\r\nHost: x\r\n"),
        .contextRouter (dataFrom "b" "\r\n\r\n"), .contextRouter (dataFrom "a" "\r\nHi")]
      (dataFrom "a" "") hiRequest (by simp [HasKey, hkey]) (by simp [hbuffer]) rfl nofun
      (fun packet h => by simpa using List.mem_of_mem_filter h) (by unfold Request.HasLines; decide)
      (by decide) (by decide) (by decide)
  obtain rfl := List.eq_nil_of_length_eq_zero hlength
  exact ⟨replies', pushes, ended, hanswers, hframes⟩

end HttpRequestExtractor

end Maplang
