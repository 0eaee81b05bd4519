import Maplang.Http.Connections
import Maplang.Tcp.Bytes

/-!
# The HTTP server of the IP echo demo

The architecture of the demo sends what the TCP group pushes on "Data Received" to the Context
Router of a contextual group of `HttpRequestExtractor`s, and what it pushes on "Connection Closed"
to the Context Remover.  The key of the group is the id of the connection.  All of this is on one
thread, so that packets are handled where they are pushed, in the order in which they are pushed.

* `incomings` : the packets that come to the contextual group.
* `bytesRead` : what libuv has read from a connection.
* `serves_requests` : **a request that has been read from a connection is framed**, whatever happens
  on the other connections.
-/

namespace Maplang

open Tcp ContextualNode

namespace IpEcho

/-- Where a packet of the TCP group goes. -/
def incoming? (push : Push) : Option Incoming :=
  if push.channel = "Data Received" then some (.contextRouter push.packet)
  else if push.channel = "Connection Closed" then some (.contextRemover push.packet)
  else none

/-- The packets that come to the contextual group. -/
def incomings (pushes : List Push) : List Incoming := pushes.filterMap incoming?

/-- What libuv has read from a connection. -/
def bytesRead (w : WatchedTcp) (a : Accepted) : ByteString :=
  MemoryStream.bytesOf ((w.reads.filter fun read => read.1 = some a).map Prod.snd)

/-- libuv reads no more than the buffer holds. -/
def ReadsFit : Event → Prop
  | .read _ nread base => nread ≤ base.length
  | _ => True

instance : DecidablePred ReadsFit
  | .read _ _ _ => inferInstanceAs (Decidable (_ ≤ _))
  | .newConnection _ | .errorPushed | .send _ | .disconnect _ | .closed _ | .indexDrawn =>
    inferInstanceAs (Decidable True)

/-! ### The packets for a connection -/

/-- The channel on which a packet has come. -/
def channelOf : Incoming → String
  | .contextRouter _ => "Data Received"
  | .contextRemover _ => "Connection Closed"

theorem incoming?_eq_some {push : Push} {incoming : Incoming} (h : incoming? push = some incoming) :
    push.channel = channelOf incoming ∧ push.packet = incoming.packet := by
  rw [incoming?] at h
  split_ifs at h with hdata hclosed
  · obtain rfl := Option.some.inj h
    exact ⟨hdata, rfl⟩
  · obtain rfl := Option.some.inj h
    exact ⟨hclosed, rfl⟩

/-- What a packet tells, by its key. -/
theorem tells_iff {pushes : List Push} {i : ℕ} {channel : String} {connectionId : ByteString} :
    Tells pushes i channel connectionId ↔ (pushes[i]?.map fun push =>
      (push.channel, keyOf kParameter_TcpConnectionId push.packet)) =
        some (channel, some connectionId) := by
  rw [Option.map_eq_some_iff]
  refine exists_congr fun push => and_congr_right fun _ => ?_
  rw [Prod.mk.injEq, keyOf_eq_some]

instance (pushes : List Push) (i : ℕ) (channel : String) (connectionId : ByteString) :
    Decidable (Tells pushes i channel connectionId) :=
  decidable_of_iff _ tells_iff.symm

/-- The packets about connections name them. -/
def AllNamed (pushes : List Push) : Prop :=
  ∀ push ∈ pushes, push.channel ∈ connectionChannels → ∃ connection, Describes push connection

section

variable {pushes : List Push} {connectionId : ByteString} {incoming : Incoming}

/-- The id that a packet names is its key. -/
theorem key_eq {connection : UvTcpConnection} {push : Push} (h : incoming? push = some incoming)
    (hdescribes : Describes push connection) :
    HasKey kParameter_TcpConnectionId incoming ∧
      incoming.key kParameter_TcpConnectionId = connection.connectionId := by
  have hkey : keyOf kParameter_TcpConnectionId incoming.packet = some connection.connectionId := by
    rw [← (incoming?_eq_some h).2, keyOf_eq_some, hdescribes.find]
  refine ⟨?_, by rw [Incoming.key, hkey, Option.getD_some]⟩
  cases incoming with
  | contextRouter packet => exact Option.isSome_of_eq_some hkey
  | contextRemover packet => exact Option.isSome_of_eq_some hkey

theorem mem_connectionChannels (incoming : Incoming) : channelOf incoming ∈ connectionChannels := by
  cases incoming with
  | contextRouter packet => exact (by decide : "Data Received" ∈ connectionChannels)
  | contextRemover packet => exact (by decide : "Connection Closed" ∈ connectionChannels)

theorem AllNamed.hasKey (h : AllNamed pushes) :
    ∀ incoming ∈ incomings pushes, HasKey kParameter_TcpConnectionId incoming := by
  intro incoming hmem
  obtain ⟨push, hpush, hincoming⟩ := List.mem_filterMap.1 hmem
  obtain ⟨connection, hdescribes⟩ := h push hpush (by
    rw [(incoming?_eq_some hincoming).1]
    exact mem_connectionChannels incoming)
  exact (key_eq hincoming hdescribes).1

/-- A packet with the id of a connection as its key has been pushed for it. -/
theorem AllNamed.exists_tells (h : AllNamed pushes)
    (hmem : incoming ∈ Service.callsOf (Incoming.key kParameter_TcpConnectionId) connectionId
      (incomings pushes)) :
    ∃ i, Tells pushes i (channelOf incoming) connectionId := by
  obtain ⟨hmem, hkey⟩ := List.mem_filter.1 hmem
  obtain ⟨push, hpush, hincoming⟩ := List.mem_filterMap.1 hmem
  obtain ⟨hchannel, -⟩ := incoming?_eq_some hincoming
  obtain ⟨connection, hdescribes⟩ := h push hpush (by
    rw [hchannel]
    exact mem_connectionChannels incoming)
  obtain ⟨i, hi⟩ := List.mem_iff_getElem?.1 hpush
  refine ⟨i, push, hi, hchannel, ?_⟩
  rw [hdescribes.find, ← (key_eq hincoming hdescribes).2, of_decide_eq_true hkey]

/-- **A connection that has been closed**: its data, and then its removal. -/
theorem callsOf_closed (horder : InOrder pushes) (h : AllNamed pushes) {j : ℕ}
    (hclosed : Tells pushes j "Connection Closed" connectionId) :
    ∃ during last, Service.callsOf (Incoming.key kParameter_TcpConnectionId) connectionId
        (incomings pushes) = during ++ [.contextRemover last] ∧
      (∀ incoming ∈ during, ∀ packet, incoming ≠ .contextRemover packet) ∧
      (Incoming.contextRemover last).key kParameter_TcpConnectionId = connectionId := by
  obtain ⟨push, hpush, hchannel, hid⟩ := id hclosed
  obtain ⟨hj, hget⟩ := List.getElem?_eq_some_iff.1 hpush
  have hkey : (Incoming.contextRemover push.packet).key kParameter_TcpConnectionId =
      connectionId := by
    rw [Incoming.key, Incoming.packet, keyOf_eq_some.2 hid, Option.getD_some]
  have hsplit : pushes = pushes.take j ++ push :: pushes.drop (j + 1) := by
    rw [← hget, List.getElem_cons_drop, List.take_append_drop]
  have hremover : incoming? push = some (.contextRemover push.packet) := by
    rw [incoming?, if_neg (by rw [hchannel]; decide), if_pos hchannel]
  -- nothing comes for the connection after its removal
  have hafter : Service.callsOf (Incoming.key kParameter_TcpConnectionId) connectionId
      (incomings (pushes.drop (j + 1))) = [] := by
    refine List.eq_nil_iff_forall_not_mem.2 fun incoming hmem => ?_
    have hnamed : AllNamed (pushes.drop (j + 1)) := fun push hpush =>
      h push (List.mem_of_mem_drop hpush)
    obtain ⟨i, other, hother, hothers⟩ := hnamed.exists_tells hmem
    rw [List.getElem?_drop] at hother
    have htells : Tells pushes (j + 1 + i) (channelOf incoming) connectionId :=
      ⟨other, hother, hothers⟩
    cases incoming with
    | contextRouter packet =>
      have := horder.dataBefore connectionId _ _ htells hclosed
      omega
    | contextRemover packet =>
      have := horder.closedOnce connectionId _ _ htells hclosed
      omega
  refine ⟨Service.callsOf (Incoming.key kParameter_TcpConnectionId) connectionId
    (incomings (pushes.take j)), push.packet, ?_, ?_, hkey⟩
  · conv_lhs => rw [hsplit]
    rw [incomings, List.filterMap_append, List.filterMap_cons_some hremover, Service.callsOf_append,
      Service.callsOf_cons_self hkey]
    exact congrArg (fun rest => _ ++ Incoming.contextRemover push.packet :: rest) hafter
  · rintro incoming hmem packet rfl
    have hnamed : AllNamed (pushes.take j) := fun push hpush => h push (List.mem_of_mem_take hpush)
    obtain ⟨i, htells⟩ := hnamed.exists_tells hmem
    have hlt := htells.lt_length
    rw [List.length_take] at hlt
    have hi : i = j := horder.closedOnce connectionId i j
      (by
        have happend := htells.append (push :: pushes.drop (j + 1))
        rwa [← hsplit] at happend) hclosed
    omega

/-- The data for a connection that comes to the router. -/
theorem routed_callsOf (pushes : List Push) (connectionId : ByteString) :
    HttpRequestExtractor.routed (Service.callsOf (Incoming.key kParameter_TcpConnectionId)
        connectionId (incomings pushes)) =
      ((dataPushes pushes).filter fun push =>
        (keyOf kParameter_TcpConnectionId push.packet).getD [] = connectionId).map Push.packet := by
  induction pushes with
  | nil => rfl
  | cons push pushes ih =>
    by_cases hdata : push.channel = "Data Received"
    · have hrouter : incoming? push = some (.contextRouter push.packet) := by
        rw [incoming?, if_pos hdata]
      have hpush : dataPushes (push :: pushes) = push :: dataPushes pushes :=
        List.filter_cons_of_pos (by simpa using hdata)
      rw [incomings, List.filterMap_cons_some hrouter, hpush]
      by_cases hkey :
          (Incoming.contextRouter push.packet).key kParameter_TcpConnectionId = connectionId
      · rw [Service.callsOf_cons_self hkey, List.filter_cons_of_pos (by exact decide_eq_true hkey),
          List.map_cons, ← ih]
        rfl
      · rw [Service.callsOf_cons_of_ne hkey,
          List.filter_cons_of_neg (by exact fun h => hkey (of_decide_eq_true h)), ← ih]
        rfl
    · have hpush : dataPushes (push :: pushes) = dataPushes pushes :=
        List.filter_cons_of_neg (by simpa using hdata)
      rw [hpush, ← ih]
      by_cases hclosed : push.channel = "Connection Closed"
      · have hremover : incoming? push = some (.contextRemover push.packet) := by
          rw [incoming?, if_neg hdata, if_pos hclosed]
        rw [incomings, List.filterMap_cons_some hremover]
        by_cases hkey :
            (Incoming.contextRemover push.packet).key kParameter_TcpConnectionId = connectionId
        · rw [Service.callsOf_cons_self hkey]
          rfl
        · rw [Service.callsOf_cons_of_ne hkey]
          rfl
      · have hnone : incoming? push = none := by
          rw [incoming?, if_neg hdata, if_neg hclosed]
        rw [incomings, List.filterMap_cons_none hnone]
        rfl

end

section

variable {uvStrerror : ℤ → ByteString} {w : WatchedTcp}

/-- What is pushed with data, by what has been read. -/
theorem dataPushes_eq (h : Carries w) : dataPushes w.pushes = w.reads.filterMap readPush := by
  have hmap := congrArg (List.filterMap id) h.data
  rwa [List.filterMap_map, List.filterMap_map, Function.id_comp, Function.id_comp,
    List.filterMap_some] at hmap

/-- The packet that is pushed for what has been read. -/
theorem keyOf_connectionPush (a : Accepted) (buffer : Buffer) :
    keyOf kParameter_TcpConnectionId
      (connectionPush "Data Received" a.connection [buffer]).packet =
        some a.connection.connectionId :=
  keyOf_eq_some.2 (describes_connectionPush [buffer]).find

/-- **What comes to the router for a connection** is what has been read from it. -/
theorem received_callsOf (h : Carries w)
    (hdistinct : w.accepted.Pairwise fun a b =>
      a.connection.connectionId ≠ b.connection.connectionId)
    {a : Accepted} (ha : a ∈ w.accepted) :
    received (HttpRequestExtractor.routed (Service.callsOf (Incoming.key kParameter_TcpConnectionId)
      a.connection.connectionId (incomings w.pushes))) = bytesRead w a := by
  have hnodup : (w.accepted.map fun a => a.connection.connectionId).Nodup :=
    List.pairwise_map.2 hdistinct
  rw [routed_callsOf, dataPushes_eq h, received, bytesRead]
  refine congrArg MemoryStream.bytesOf ?_
  have hknown := h.known
  generalize w.reads = reads at hknown ⊢
  induction reads with
  | nil => rfl
  | cons read reads ih =>
    obtain ⟨hread, hreads⟩ := List.forall_mem_cons.1 hknown
    obtain ⟨from?, buffer⟩ := read
    cases from? with
    | none =>
      rw [List.filterMap_cons_none rfl, List.filter_cons_of_neg (by simp)]
      exact ih hreads
    | some b =>
      rw [List.filterMap_cons_some
        (show readPush (some b, buffer) = some (connectionPush _ b.connection [buffer]) from rfl)]
      by_cases hb : b = a
      · subst hb
        rw [List.filter_cons_of_pos (by simp [keyOf_connectionPush]),
          List.filter_cons_of_pos (by simp), List.map_cons, List.map_cons, List.map_cons,
          ih hreads]
        rfl
      · have hne : b.connection.connectionId ≠ a.connection.connectionId := fun heq =>
          hb (List.inj_on_of_nodup_map hnodup (hread b rfl) ha heq)
        rw [List.filter_cons_of_neg (by simpa [keyOf_connectionPush] using hne),
          List.filter_cons_of_neg (by simpa using hb)]
        exact ih hreads

/-! ### Runs -/

/-- A run in which read starts succeed, ids are new, and libuv reads what fits. -/
def Serving (w : WatchedTcp) (event : Event) : Prop :=
  StartsNew w.toObservedTcp event ∧ ReadsFit event

instance (w : WatchedTcp) : DecidablePred (Serving w) :=
  fun _ => inferInstanceAs (Decidable (_ ∧ _))

/-- What holds in every state of such a run. -/
structure Served (w : WatchedTcp) : Prop where
  consistent : Consistent w.toTcp
  told : Told w.toObservedTcp
  carries : Carries w
  valid : ∀ read ∈ w.reads, read.2.Valid

theorem valid_of_mem_readBy {accepted : List Accepted} {event : Event} (hfit : ReadsFit event)
    {read : Option Accepted × Buffer} (h : read ∈ readBy accepted event) : read.2.Valid := by
  cases event with
  | read stream nread base =>
    rw [readBy] at h
    split at h
    · rw [List.mem_singleton.1 h]
      exact Int.toNat_le.2 hfit
    · cases h
  | _ => cases h

theorem served_empty : Served {} := ⟨consistent_empty, told_empty, carries_empty, by simp⟩

/-- **One step** of such a run. -/
theorem Served.step {w' : WatchedTcp} {event : Event} (h : Served w) (hok : Serving w event)
    (hs : (watchedMachine uvStrerror).step w event = some w') : Served w' := by
  obtain ⟨hstarts, hfit⟩ := hok
  obtain ⟨o, ho, rfl⟩ := Option.map_eq_some_iff.1 hs
  obtain ⟨hconsistent, htold⟩ := h.told.step h.consistent hstarts ho
  refine ⟨hconsistent, htold, h.carries.step h.consistent hs, fun read hread => ?_⟩
  rcases List.mem_append.1 hread with hold | hnew
  · exact h.valid read hold
  · exact valid_of_mem_readBy hfit hnew

theorem served_of_reachable (h : (watchedMachine uvStrerror).Reachable Serving {} w) :
    Served w :=
  h.invariant served_empty fun _ _ _ hserved hok hs => hserved.step hok hs

/-- The packets about connections name them. -/
theorem Served.allNamed (h : Served w) : AllNamed w.pushes := fun push hpush hchannel => by
  obtain ⟨a, -, hdescribes⟩ := h.told.fits.known push hpush hchannel
  exact ⟨a.connection, hdescribes⟩

/-- What is pushed with data has been read from a connection. -/
theorem Served.dataPush (h : Served w) {push : Push} (hpush : push ∈ w.pushes)
    (hchannel : push.channel = "Data Received") : ∃ a ∈ w.accepted, ∃ buffer : Buffer,
      buffer.Valid ∧ push = connectionPush "Data Received" a.connection [buffer] := by
  have hdata : push ∈ dataPushes w.pushes := List.mem_filter.2 ⟨hpush, decide_eq_true hchannel⟩
  rw [dataPushes_eq h.carries] at hdata
  obtain ⟨read, hread, hreadPush⟩ := List.mem_filterMap.1 hdata
  obtain ⟨a, ha, rfl⟩ := Option.map_eq_some_iff.1 hreadPush
  exact ⟨a, h.carries.known read hread a ha, read.2, h.valid read hread, rfl⟩

/-- Packets with data have a buffer. -/
theorem Served.hasBuffer (h : Served w) {packet : Packet}
    (hmem : .contextRouter packet ∈ incomings w.pushes) : HasBuffer packet := by
  obtain ⟨push, hpush, hincoming⟩ := List.mem_filterMap.1 hmem
  obtain ⟨hchannel, hpacket⟩ := incoming?_eq_some hincoming
  obtain ⟨a, -, buffer, hvalid, rfl⟩ := h.dataPush hpush hchannel
  obtain rfl : _ = packet := hpacket
  exact ⟨List.cons_ne_nil _ _, hvalid⟩

end

/-- **A request that has been read from a connection is framed.**  The TCP group does any number of
steps in which read starts succeed, ids are new and libuv reads what fits into its buffers; what it
pushes comes to a contextual group of extractors.  The group answers all of it, and for each
connection that has been closed and from which a request has been read whose last header is no
content length, it has pushed a New Request packet, the body and a Request Ended packet, and then a
Removed Key packet, and nothing else. -/
theorem serves_requests {ι : Type} [DecidableEq ι] (uvStrerror : ℤ → ByteString)
    (F : ImplementationFactory ι) (random : ι → ℕ → ℕ)
    (hfresh : Function.Injective F.createImplementation)
    (hpath : ∀ n, F.isPathable (F.createImplementation n) = true) (initParameters : Json)
    (c₀ : ContextualNode ι)
    (hconstruct : ContextualNode.construct F initParameters = .ok (some c₀))
    (hkey : c₀.mKey = kParameter_TcpConnectionId) (objects : ι → HttpRequestExtractor)
    {w : WatchedTcp} (h : (watchedMachine uvStrerror).Reachable Serving {} w) :
    ∃ replies, Service.answers
        (Hosting.serve F (HttpRequestExtractor.extractorClass random)) ⟨c₀, objects⟩
        (incomings w.pushes) = .ok replies ∧
      ∀ a ∈ w.accepted,
        (∃ i, Tells w.pushes i "Connection Closed" a.connection.connectionId) →
        ∀ request : Http.Request, request.HasLines → 4 ≤ request.block.length →
          ¬ HttpRequestExtractor.ContentLengthLast request.block →
          bytesRead w a = request.encode →
          ∃ pushes ended, (Service.answersOf (Incoming.key kParameter_TcpConnectionId)
              a.connection.connectionId (incomings w.pushes) replies).flatMap Logged.log =
                pushes.map (Interface.contextRouter, ·) ++ (removalReply ended
                  (removedPush kParameter_TcpConnectionId a.connection.connectionId)).log ∧
            HttpRequestExtractor.Frames request (pushes ++ ended) := by
  have hserved := served_of_reachable h
  have hall := Hosting.answers_eq (B := HttpRequestExtractor.extractorClass random) hfresh hpath
    (Hosting.mirrors_construct hconstruct objects)
    (show ∀ incoming ∈ incomings w.pushes, HasKey c₀.mKey incoming by
      rw [hkey]
      exact hserved.allNamed.hasKey)
  rw [hkey] at hall
  -- the extractors answer whatever comes
  have hbuffer : ∀ call ∈ withMade F kParameter_TcpConnectionId (incomings w.pushes), ∀ packet,
      call.2 = .contextRouter packet → HasBuffer packet := fun call hcall packet hpacket =>
    hserved.hasBuffer (by
      rw [← hpacket, ← map_withMade F kParameter_TcpConnectionId (incomings w.pushes)]
      exact List.mem_map_of_mem hcall)
  obtain ⟨replies, hreplies⟩ :=
    HttpRequestExtractor.exists_answers_each random kParameter_TcpConnectionId hbuffer
  refine ⟨replies, hall.trans hreplies, ?_⟩
  rintro a ha ⟨j, hclosed⟩ request hlines hlong hlength hread
  -- what comes for this connection
  obtain ⟨during, last, hcalls, hduring, hlast⟩ :=
    callsOf_closed hserved.told.fits.inOrder hserved.allNamed hclosed
  have hreceived := received_callsOf hserved.carries hserved.told.distinct ha
  obtain ⟨during', last', hsplit, rfl, hlast'⟩ := exists_callsOf_withMade F hcalls
  obtain ⟨⟨made, incoming⟩, rfl, hremover⟩ := List.map_eq_singleton_iff.1 hlast'
  obtain rfl : incoming = .contextRemover last := hremover
  have hrouted : HttpRequestExtractor.routed (during'.map Prod.snd ++ [.contextRemover last]) =
      HttpRequestExtractor.routed (during'.map Prod.snd) := by
    rw [HttpRequestExtractor.routed, List.filterMap_append]
    exact List.append_nil _
  rw [hcalls, hrouted, hread] at hreceived
  have hmem : ∀ call ∈ during', call ∈ withMade F kParameter_TcpConnectionId
      (incomings w.pushes) := fun call hcall => by
    refine List.mem_of_mem_filter (p := fun call => call.2.key kParameter_TcpConnectionId =
      a.connection.connectionId) ?_
    rw [← Service.callsOf, hsplit]
    exact List.mem_append_left _ hcall
  obtain ⟨none', replies', pushes, ended, halone, hlen, -, hlog, hframes⟩ :=
    @HttpRequestExtractor.frames_alone ι random kParameter_TcpConnectionId [] during' made last
      request (fun call hcall => hbuffer call (hmem call hcall))
      (fun _ _ hnone => by cases hnone)
      (fun call hcall => hduring call.2 (List.mem_map_of_mem hcall)) hlines hlong hlength hreceived
  obtain rfl := List.eq_nil_of_length_eq_zero hlen
  -- that is what the group has answered
  have hanswers := Service.answers_callsOf hreplies a.connection.connectionId
  rw [hsplit] at hanswers
  have hsame := Except.ok.inj (hanswers.symm.trans halone)
  refine ⟨pushes, ended, ?_, hframes⟩
  rw [← map_withMade F kParameter_TcpConnectionId (incomings w.pushes), Service.answersOf_map,
    hsame, List.nil_append, List.flatMap_append, hlog, hlast]
  exact congrArg (_ ++ ·) (List.append_nil _)

/-- A request comes in two parts, with data from another connection in between. -/
def requestEvents : List Event :=
  [.newConnection (loopback 1 5000 0), .newConnection (loopback 2 5001 0),
    .read 1 25 (bytes "GET / HTTP/1.1\r\nHost: x\r\n"), .read 2 4 (bytes "\r\n\r\n"),
    .read 1 4 (bytes "\r\nHi"), .read 1 uvEof [], .closed 1]

theorem serves_requests_two :
    let w := ((watchedMachine fun _ => []).exec (fun w event => decide (Serving w event)) {}
      requestEvents).getD {}
    ∃ replies pushes ended,
      Service.answers (Hosting.serve countingFactory
          (HttpRequestExtractor.extractorClass fun i n => 10 * i + n))
          ⟨{ mType := bytes "HTTP Request Extractor", mKey := kParameter_TcpConnectionId,
              created := 1 }, fun _ => HttpRequestExtractor.construct fun _ => 0⟩
          (incomings w.pushes) = .ok replies ∧
        HttpRequestExtractor.Frames HttpRequestExtractor.hiRequest (pushes ++ ended) := by
  intro w
  have hrun : (watchedMachine fun _ => []).Reachable Serving {} w :=
    (Machine.reachable_exec (by decide +kernel)).mono fun _ _ hok => of_decide_eq_true hok
  obtain ⟨replies, hreplies, hframes⟩ := serves_requests (fun _ => []) countingFactory
    (fun i n => 10 * i + n) (fun _ _ h => h) (fun _ => rfl)
    (.object [(bytes "type", .string (bytes "HTTP Request Extractor")),
      (bytes "key", .string (bytes "TcpConnectionId"))])
    { mType := bytes "HTTP Request Extractor", mKey := kParameter_TcpConnectionId, created := 1 }
    (by rfl) rfl (fun _ => HttpRequestExtractor.construct fun _ => 0) hrun
  obtain ⟨pushes, ended, -, h⟩ := hframes
    ⟨({} : Tcp).newConnection (loopback 1 5000 0), 0⟩ (by decide +kernel)
    ⟨5, by decide +kernel⟩
    HttpRequestExtractor.hiRequest (by unfold Http.Request.HasLines; decide) (by decide) (by decide)
    (by decide +kernel)
  exact ⟨replies, pushes, ended, hreplies, h⟩

end IpEcho

end Maplang
