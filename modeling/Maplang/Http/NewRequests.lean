import Maplang.Http.IpEcho

/-!
# The New Request packets of the IP echo demo

The extractor of a connection pushes a New Request packet when the headers are complete, unless the
last of them is a content length.  If the push throws, the extractor catches what is thrown and
keeps the headers; when the next packet comes it finds them again, and pushes again.

* `HasRequest` : the bytes that make an extractor push a New Request packet.
* `handlePacket_request` : one packet, for an extractor that gathers headers.
* `Knows` : an extractor, by what has been received and whether a New Request packet has got
  through.
* `Asks`, `GroupAsks` : a connection and the contextual group, by what has come to the group and the
  connections for which a New Request packet has got through.
* `GroupAsks.router`, `GroupAsks.remover` : **one packet** to the contextual group.
-/

namespace Maplang

open Tcp ContextualNode HttpRequestExtractor Http

namespace IpEcho

/-- The bytes that make an extractor push a New Request packet: an empty line, and no content length
on the line before it. -/
def HasRequest (input : ByteString) : Prop :=
  ∃ n, Search.indexFrom? kDoubleCrLf input kDoubleCrLfLength = some n ∧
    ¬ ContentLengthLast (input.take n)

instance : DecidablePred HasRequest := fun input =>
  inferInstanceAs (Decidable (∃ n ∈ Search.indexFrom? kDoubleCrLf input kDoubleCrLfLength,
    ¬ ContentLengthLast (input.take n)))

/-- The New Request packets that the Context Router has pushed. -/
def newRequestsOf (reply : Reply) : List Push :=
  (reply.log.filter fun p =>
    p.1 = Interface.contextRouter ∧ p.2.channel = "New Request").map Prod.snd

/-- The pushes on a channel. -/
def newRequestPushes (pushes : List Push) : List Push :=
  pushes.filter fun push => push.channel = "New Request"

theorem HasRequest.append {input : ByteString} (h : HasRequest input) (more : ByteString) :
    HasRequest (input ++ more) := by
  obtain ⟨n, hfound, hnot⟩ := h
  refine ⟨n, Search.indexFrom?_append kDoubleCrLf_ne_nil hfound more, ?_⟩
  rwa [(take_of_found hfound).2.1]

/-- The New Request packets of an extractor's reply. -/
theorem newRequestsOf_router (new : List Push) (result : Code Unit) :
    newRequestsOf ⟨new.map (Interface.contextRouter, ·), result⟩ = newRequestPushes new := by
  rw [newRequestsOf, newRequestPushes, List.filter_map, List.map_map]
  refine (List.map_id _).trans (List.filter_congr fun push _ => ?_)
  simp

/-- When an extractor is destroyed, it pushes no New Request packet. -/
theorem newRequestsOf_removal (mKey : ByteString) (x : HttpRequestExtractor) (k : ByteString) :
    newRequestsOf (removalReply x.destroy (removedPush mKey k)) = [] := by
  rw [newRequestsOf, removalReply, List.map_eq_nil_iff, List.filter_eq_nil_iff]
  intro p hp
  rcases List.mem_append.1 hp with hended | hremoved
  · obtain ⟨push, hpush, rfl⟩ := List.mem_map.1 hended
    rw [destroy, sendEndOfRequestPacketIfRequestPending] at hpush
    split at hpush
    · rw [List.mem_singleton.1 hpush]
      simp
    · cases hpush
  · rw [List.mem_singleton.1 hremoved]
    simp

/-! ### An extractor -/

section

variable {requestId input : ByteString} {x : HttpRequestExtractor} {packet : Packet}

/-- A New Request packet has got through, and what comes is passed on. -/
structure Sent (x : HttpRequestExtractor) : Prop where
  mSentHeaders : x.mSentHeaders = true
  mBodyLength : x.mBodyLength = sizeMax

theorem Sent.handlePacket_spec (h : Sent x) (random : ℕ → ℕ) (hpacket : HasBuffer packet)
    (thrownBy : Push → Option Fault) :
    ∃ new, x.handlePacket random packet thrownBy = .ok (new, x) ∧ newRequestPushes new = [] := by
  obtain ⟨b, bs, hbuffers⟩ := List.exists_cons_of_ne_nil hpacket.1
  refine ⟨[bodyPush x.mRequestId b], ?_, rfl⟩
  simp [handlePacket, hbuffers, h.mSentHeaders, handleBody, h.mBodyLength, createBodyPacket,
    bodyPush]

/-- The headers are complete: the New Request packet is pushed, and nothing changes if the push
throws. -/
theorem handleHeaders_request (h : Gathering requestId input x) {b : Buffer}
    (hb : b.Valid) {n : ℕ}
    (hfound : Search.indexFrom? kDoubleCrLf (input ++ b.contents) kDoubleCrLfLength = some n)
    (hlast : ¬ ContentLengthLast ((input ++ b.contents).take n))
    (thrownBy : Push → Option Fault) :
    (∀ fault, thrownBy (requestPush ((input ++ b.contents).take n) requestId) = some fault →
      ∃ x', x.handleHeaders b thrownBy =
          ⟨[requestPush ((input ++ b.contents).take n) requestId], x', some fault⟩ ∧
        Gathering requestId (input ++ b.contents) x') ∧
    (thrownBy (requestPush ((input ++ b.contents).take n) requestId) = none →
      ∃ rest x', x.handleHeaders b thrownBy =
          ⟨requestPush ((input ++ b.contents).take n) requestId :: rest, x', none⟩ ∧
        newRequestPushes rest = [] ∧ Sent x') := by
  obtain ⟨s, hs, hgathering⟩ := h.append hb
  have hrequest := createRequestPacket_spec hgathering.mHeaderData (n := n)
    (by rw [hgathering.contents]; have := (take_of_found (m := []) hfound).1; omega)
  rw [hgathering.contents, if_neg hlast] at hrequest
  obtain rfl : x.mRequestId = requestId := h.mRequestId
  simp only [handleHeaders, hs, firstIndexOfCString_spec hgathering.mHeaderData,
    hgathering.contents, hfound, hrequest]
  refine ⟨fun fault hthrown => ⟨_, ?_, hgathering⟩, fun hthrown => ?_⟩
  · rw [requestPush] at hthrown
    simp only [hthrown]
    rfl
  · rw [requestPush] at hthrown
    simp only [hthrown]
    split
    · exact ⟨[_], _, rfl, rfl, rfl, h.mBodyLength⟩
    · exact ⟨[], _, rfl, rfl, rfl, h.mBodyLength⟩

/-- **One packet, while headers are gathered.** -/
theorem handlePacket_request (h : Gathering requestId input x) (random : ℕ → ℕ)
    (hpacket : HasBuffer packet) (thrownBy : Push → Option Fault) :
    (¬ HasRequest (input ++ (firstBuffer packet).contents) ∧
      ∃ new x', x.handlePacket random packet thrownBy = .ok (new, x') ∧
        newRequestPushes new = [] ∧
        Gathering requestId (input ++ (firstBuffer packet).contents) x') ∨
    (HasRequest (input ++ (firstBuffer packet).contents) ∧ ∃ block,
      (∀ what, thrownBy (requestPush block requestId) = some (.exception what) →
        ∃ new x', x.handlePacket random packet thrownBy = .ok (new, x') ∧
          newRequestPushes new = [requestPush block requestId] ∧
          Gathering requestId (input ++ (firstBuffer packet).contents) x') ∧
      (thrownBy (requestPush block requestId) = none →
        ∃ new x', x.handlePacket random packet thrownBy = .ok (new, x') ∧
          newRequestPushes new = [requestPush block requestId] ∧ Sent x')) := by
  cases hfound : Search.indexFrom? kDoubleCrLf (input ++ (firstBuffer packet).contents)
      kDoubleCrLfLength with
  | none =>
    obtain ⟨x', hx', hgathering⟩ := handleHeaders_missing h hpacket.2 hfound thrownBy
    refine .inl ⟨?_, _, _, handlePacket_gathering random hpacket h hx', rfl, hgathering⟩
    rintro ⟨n, hn, -⟩
    cases hfound.symm.trans hn
  | some n =>
    by_cases hlast : ContentLengthLast ((input ++ (firstBuffer packet).contents).take n)
    · obtain ⟨x', hx', hgathering⟩ := handleHeaders_failed h hpacket.2 hfound hlast thrownBy
      refine .inl ⟨?_, _, _, handlePacket_gathering random hpacket h hx', rfl, hgathering⟩
      rintro ⟨m, hm, hnot⟩
      obtain rfl := Option.some.inj (hfound.symm.trans hm)
      exact hnot hlast
    · obtain ⟨hthrows, hpasses⟩ := handleHeaders_request h hpacket.2 hfound hlast thrownBy
      refine .inr ⟨⟨n, hfound, hlast⟩, (input ++ (firstBuffer packet).contents).take n,
        fun what hwhat => ?_, fun hnone => ?_⟩
      · obtain ⟨x', hx', hgathering⟩ := hthrows _ hwhat
        exact ⟨_, _, handlePacket_gathering random hpacket h hx', rfl, hgathering⟩
      · obtain ⟨rest, x', hx', hrest, hsent⟩ := hpasses hnone
        refine ⟨_, _, handlePacket_gathering random hpacket h hx', ?_, hsent⟩
        rw [newRequestPushes, List.filter_cons_of_pos (by simp [requestPush])]
        exact congrArg _ hrest

end

/-! ### A connection -/

section

variable {ι : Type} {random : ι → ℕ → ℕ} {live : Option (ι × HttpRequestExtractor)}
  {input : ByteString} {asked : Prop}

/-- What is known of a connection that is open: what has been received on it, and whether a New
Request packet has got through. -/
def Knows (random : ι → ℕ → ℕ) (input : ByteString) (asked : Prop) :
    Option (ι × HttpRequestExtractor) → Prop
  | none => input = [] ∧ ¬ asked
  | some (i, x) => Gathering (firstRequestId random i) input x ∧ ¬ asked ∨ Sent x ∧ asked

/-- The push throws nothing but exceptions. -/
def OnlyThrows (thrown : Option Fault) : Prop :=
  thrown = none ∨ ∃ what, thrown = some (.exception what)

/-- **A packet with data.**  A New Request packet is pushed as long as none has got through. -/
theorem Knows.router (h : Knows random input asked live) (mKey : ByteString) (made : ι)
    {packet : Packet} (hpacket : HasBuffer packet) {thrownBy : Packet → Push → Option Fault}
    (hthrown : ∀ block requestId, OnlyThrows (thrownBy packet (requestPush block requestId))) :
    ∃ reply live', (extractorClass random thrownBy).serveAlone mKey live
        (made, .contextRouter packet) = .ok (reply, live') ∧ reply.result = .ok () ∧
      (newRequestsOf reply = [] ∧
          Knows random (input ++ (firstBuffer packet).contents) asked live' ∧
          (HasRequest (input ++ (firstBuffer packet).contents) → asked) ∨
        HasRequest (input ++ (firstBuffer packet).contents) ∧ ¬ asked ∧ ∃ block requestId,
          newRequestsOf reply = [requestPush block requestId] ∧
          Knows random (input ++ (firstBuffer packet).contents)
            (thrownBy packet (requestPush block requestId) = none) live') := by
  obtain ⟨i, x, hlive, hknows⟩ : ∃ i x, live.getD (made, construct (random made)) = (i, x) ∧
      (Gathering (firstRequestId random i) input x ∧ ¬ asked ∨ Sent x ∧ asked) := by
    cases live with
    | none =>
      obtain ⟨rfl, hnot⟩ := h
      exact ⟨_, _, rfl, .inl ⟨⟨rfl, rfl, rfl, MemoryStream.valid_empty, rfl⟩, hnot⟩⟩
    | some known => exact ⟨known.1, known.2, rfl, h⟩
  -- what the extractor does is what the service does
  have hserve : ∀ new x', x.handlePacket (random i) packet (thrownBy packet) = .ok (new, x') →
      (extractorClass random thrownBy).serveAlone mKey live (made, .contextRouter packet) =
        .ok (⟨new.map (Interface.contextRouter, ·), .ok ()⟩, some (i, x')) := by
    intro new x' hhandle
    rw [ObjectClass.serveAlone_router (B := extractorClass random thrownBy) hlive]
    simp only [extractorClass, hhandle]
    rfl
  rcases hknows with ⟨hgathering, hnot⟩ | ⟨hsent, hasked⟩
  · rcases handlePacket_request hgathering (random i) hpacket (thrownBy packet) with
      ⟨hnone, new, x', hhandle, hnew, hgathering'⟩ | ⟨hrequest, block, hthrows, hpasses⟩
    · refine ⟨_, _, hserve new x' hhandle, rfl,
        .inl ⟨?_, .inl ⟨hgathering', hnot⟩, fun hrequest => absurd hrequest hnone⟩⟩
      rw [newRequestsOf_router, hnew]
    · rcases hthrown block (firstRequestId random i) with hpass | ⟨what, hwhat⟩
      · obtain ⟨new, x', hhandle, hnew, hsent⟩ := hpasses hpass
        refine ⟨_, _, hserve new x' hhandle, rfl,
          .inr ⟨hrequest, hnot, block, firstRequestId random i, ?_, .inr ⟨hsent, hpass⟩⟩⟩
        rw [newRequestsOf_router, hnew]
      · obtain ⟨new, x', hhandle, hnew, hgathering'⟩ := hthrows what hwhat
        refine ⟨_, _, hserve new x' hhandle, rfl,
          .inr ⟨hrequest, hnot, block, firstRequestId random i, ?_, .inl ⟨hgathering', ?_⟩⟩⟩
        · rw [newRequestsOf_router, hnew]
        · rw [hwhat]
          exact Option.some_ne_none _
  · obtain ⟨new, hhandle, hnew⟩ := hsent.handlePacket_spec (random i) hpacket (thrownBy packet)
    refine ⟨_, _, hserve new x hhandle, rfl, .inl ⟨?_, .inr ⟨hsent, hasked⟩, fun _ => hasked⟩⟩
    rw [newRequestsOf_router, hnew]

/-- A connection is removed. -/
theorem newRequestsOf_remover (thrownBy : Packet → Push → Option Fault) (mKey : ByteString)
    (made : ι) (packet : Packet) {reply : Reply} {live' : Option (ι × HttpRequestExtractor)}
    (h : (extractorClass random thrownBy).serveAlone mKey live (made, .contextRemover packet) =
      .ok (reply, live')) : reply.result = .ok () ∧ newRequestsOf reply = [] := by
  cases live with
  | none =>
    obtain ⟨rfl, -⟩ := Prod.mk.inj (Except.ok.inj h)
    exact ⟨rfl, rfl⟩
  | some known =>
    obtain ⟨rfl, -⟩ := Prod.mk.inj (Except.ok.inj h)
    exact ⟨rfl, newRequestsOf_removal mKey known.2 _⟩

end

/-! ### The contextual group -/

/-- A contextual group of extractors, whose key is the id of the connection. -/
structure Grouped {ι : Type} (F : ImplementationFactory ι) (c₀ : ContextualNode ι) : Prop where
  fresh : Function.Injective F.createImplementation
  path : ∀ n, F.isPathable (F.createImplementation n) = true
  constructed : ∃ initParameters, ContextualNode.construct F initParameters = .ok (some c₀)
  key : c₀.mKey = kParameter_TcpConnectionId

/-- What comes for a connection. -/
def callsFor (calls : List Incoming) (connectionId : ByteString) : List Incoming :=
  Service.callsOf (Incoming.key kParameter_TcpConnectionId) connectionId calls

/-- The data that has come for a connection. -/
def inputOf (calls : List Incoming) (connectionId : ByteString) : ByteString :=
  received (routed (callsFor calls connectionId))

/-- The connection has been removed. -/
def Removed (calls : List Incoming) (connectionId : ByteString) : Prop :=
  ∃ last, .contextRemover last ∈ callsFor calls connectionId

section

variable {calls : List Incoming} {incoming : Incoming} {connectionId : ByteString}

theorem callsFor_append (calls : List Incoming) (incoming : Incoming) (connectionId : ByteString) :
    callsFor (calls ++ [incoming]) connectionId = callsFor calls connectionId ++
      if incoming.key kParameter_TcpConnectionId = connectionId then [incoming] else [] := by
  rw [callsFor, Service.callsOf_append, callsFor]
  split_ifs with hkey
  · rw [Service.callsOf_cons_self hkey]
    rfl
  · rw [Service.callsOf_cons_of_ne hkey]
    rfl

theorem Removed.append (h : Removed calls connectionId) (incoming : Incoming) :
    Removed (calls ++ [incoming]) connectionId := by
  obtain ⟨last, hlast⟩ := h
  refine ⟨last, ?_⟩
  rw [callsFor_append]
  exact List.mem_append_left _ hlast

theorem inputOf_router (calls : List Incoming) {packet : Packet}
    (hkey : (Incoming.contextRouter packet).key kParameter_TcpConnectionId = connectionId) :
    inputOf (calls ++ [.contextRouter packet]) connectionId =
      inputOf calls connectionId ++ (firstBuffer packet).contents := by
  rw [inputOf, callsFor_append, if_pos hkey, routed, List.filterMap_append, received,
    List.map_append, MemoryStream.bytesOf_append]
  refine congrArg (_ ++ ·) ?_
  exact (MemoryStream.bytesOf_cons ..).trans (List.append_nil _)

theorem inputOf_of_ne (calls : List Incoming)
    (h : incoming.key kParameter_TcpConnectionId ≠ connectionId) :
    inputOf (calls ++ [incoming]) connectionId = inputOf calls connectionId := by
  rw [inputOf, callsFor_append, if_neg h, List.append_nil, inputOf]

theorem inputOf_remover (calls : List Incoming) (packet : Packet) (connectionId : ByteString) :
    inputOf (calls ++ [.contextRemover packet]) connectionId = inputOf calls connectionId := by
  rw [inputOf, callsFor_append, routed, List.filterMap_append]
  split_ifs
  · exact congrArg received (List.append_nil _)
  · exact congrArg received (List.append_nil _)

end

/-- What a connection has come to.  If a New Request packet has got through, there was a request; if
there was a request and none has got through, the connection has been refused. -/
structure Asks {ι : Type} (random : ι → ℕ → ℕ) (calls : List Incoming) (asked : List ByteString)
    (refused : ByteString → Prop) (connectionId : ByteString)
    (live : Option (ι × HttpRequestExtractor)) : Prop where
  knows : ¬ Removed calls connectionId →
    Knows random (inputOf calls connectionId) (connectionId ∈ asked) live
  requested : connectionId ∈ asked → HasRequest (inputOf calls connectionId)
  refused : HasRequest (inputOf calls connectionId) → connectionId ∉ asked → refused connectionId

/-- What a contextual group of extractors has come to. -/
structure GroupAsks {ι : Type} [DecidableEq ι] (F : ImplementationFactory ι) (random : ι → ℕ → ℕ)
    (calls : List Incoming) (host : Hosting ι HttpRequestExtractor) (asked : List ByteString)
    (refused : ByteString → Prop) : Prop where
  once : asked.Nodup
  mirrors : ∃ events live, Hosting.Mirrors F kParameter_TcpConnectionId events host live ∧
    ∀ connectionId, Asks random calls asked refused connectionId (live connectionId)

section

variable {ι : Type} {random : ι → ℕ → ℕ} {calls : List Incoming} {incoming : Incoming}
  {asked asked' : List ByteString} {refused : ByteString → Prop} {connectionId : ByteString}
  {live : Option (ι × HttpRequestExtractor)}

/-- What comes for another connection. -/
theorem Asks.of_ne (h : Asks random calls asked refused connectionId live)
    (hne : incoming.key kParameter_TcpConnectionId ≠ connectionId)
    (hasked : connectionId ∈ asked' ↔ connectionId ∈ asked) :
    Asks random (calls ++ [incoming]) asked' refused connectionId live := by
  refine ⟨fun hopen => ?_, fun hmem => ?_, fun hrequest hnot => ?_⟩
  · rw [inputOf_of_ne calls hne, hasked]
    exact h.knows fun hremoved => hopen (hremoved.append incoming)
  · rw [inputOf_of_ne calls hne]
    exact h.requested (hasked.1 hmem)
  · rw [inputOf_of_ne calls hne] at hrequest
    exact h.refused hrequest fun hmem => hnot (hasked.2 hmem)

/-- Data comes for the connection, and no New Request packet is pushed. -/
theorem Asks.silent (h : Asks random calls asked refused connectionId live) {packet : Packet}
    (hkey : (Incoming.contextRouter packet).key kParameter_TcpConnectionId = connectionId)
    {live' : Option (ι × HttpRequestExtractor)}
    (hknows : Knows random (inputOf calls connectionId ++ (firstBuffer packet).contents)
      (connectionId ∈ asked) live')
    (hall : HasRequest (inputOf calls connectionId ++ (firstBuffer packet).contents) →
      connectionId ∈ asked) :
    Asks random (calls ++ [.contextRouter packet]) asked refused connectionId live' := by
  have hinput := inputOf_router calls hkey
  refine ⟨fun _ => ?_, fun hmem => ?_, fun hrequest hnot => ?_⟩
  · rw [hinput]
    exact hknows
  · rw [hinput]
    exact (h.requested hmem).append _
  · rw [hinput] at hrequest
    exact absurd (hall hrequest) hnot

/-- A New Request packet gets through. -/
theorem asks_through {packet : Packet}
    (hkey : (Incoming.contextRouter packet).key kParameter_TcpConnectionId = connectionId)
    (hrequest : HasRequest (inputOf calls connectionId ++ (firstBuffer packet).contents))
    {through : Prop} (hthrough : through) {live' : Option (ι × HttpRequestExtractor)}
    (hknows : Knows random (inputOf calls connectionId ++ (firstBuffer packet).contents) through
      live') :
    Asks random (calls ++ [.contextRouter packet]) (asked ++ [connectionId]) refused connectionId
      live' := by
  have hinput := inputOf_router calls hkey
  have hmem : connectionId ∈ asked ++ [connectionId] :=
    List.mem_append_right _ (List.mem_singleton_self _)
  refine ⟨fun _ => ?_, fun _ => ?_, fun _ hnot => absurd hmem hnot⟩
  · rw [hinput]
    rwa [eq_true hthrough, ← eq_true hmem] at hknows
  · rw [hinput]
    exact hrequest

/-- A New Request packet does not get through. -/
theorem asks_refused {packet : Packet}
    (hkey : (Incoming.contextRouter packet).key kParameter_TcpConnectionId = connectionId)
    (hnot : connectionId ∉ asked) (hrefused : refused connectionId)
    {through : Prop} (hthrough : ¬ through) {live' : Option (ι × HttpRequestExtractor)}
    (hknows : Knows random (inputOf calls connectionId ++ (firstBuffer packet).contents) through
      live') :
    Asks random (calls ++ [.contextRouter packet]) asked refused connectionId live' := by
  refine ⟨fun _ => ?_, fun hmem => absurd hmem hnot, fun _ _ => hrefused⟩
  rw [inputOf_router calls hkey]
  rwa [eq_false hthrough, ← eq_false hnot] at hknows

/-- The connection is removed. -/
theorem Asks.remover (h : Asks random calls asked refused connectionId live) {packet : Packet}
    (hkey : (Incoming.contextRemover packet).key kParameter_TcpConnectionId = connectionId) :
    Asks random (calls ++ [.contextRemover packet]) asked refused connectionId none := by
  have hremoved : Removed (calls ++ [.contextRemover packet]) connectionId := by
    refine ⟨packet, ?_⟩
    rw [callsFor_append, if_pos hkey]
    exact List.mem_append_right _ (List.mem_singleton_self _)
  refine ⟨fun hopen => absurd hremoved hopen, fun hmem => ?_, fun hrequest hnot => ?_⟩
  · rw [inputOf_remover]
    exact h.requested hmem
  · rw [inputOf_remover] at hrequest
    exact h.refused hrequest hnot

end

section

variable {ι : Type} [DecidableEq ι] {F : ImplementationFactory ι} {random : ι → ℕ → ℕ}
  {c₀ : ContextualNode ι} {calls : List Incoming} {host : Hosting ι HttpRequestExtractor}
  {asked : List ByteString} {refused : ByteString → Prop}

theorem groupAsks_construct (hgroup : Grouped F c₀) (objects : ι → HttpRequestExtractor) :
    GroupAsks F random [] ⟨c₀, objects⟩ [] refused := by
  obtain ⟨initParameters, hconstruct⟩ := hgroup.constructed
  have hmirrors := Hosting.mirrors_construct hconstruct objects
  rw [hgroup.key] at hmirrors
  refine ⟨.nil, [], _, hmirrors, fun connectionId => ⟨fun _ => ⟨rfl, List.not_mem_nil⟩, ?_, ?_⟩⟩
  · exact fun hmem => absurd hmem List.not_mem_nil
  · rintro ⟨n, hfound, -⟩
    cases hfound

/-- A connection that has been refused is known to have been. -/
theorem GroupAsks.imp (h : GroupAsks F random calls host asked refused)
    {refused' : ByteString → Prop}
    (himp : ∀ connectionId, refused connectionId → refused' connectionId) :
    GroupAsks F random calls host asked refused' := by
  obtain ⟨honce, events, live, hmirrors, hasks⟩ := h
  refine ⟨honce, events, live, hmirrors, fun connectionId => ?_⟩
  obtain ⟨hknows, hrequested, hrefused⟩ := hasks connectionId
  exact ⟨hknows, hrequested, fun hrequest hnot => himp connectionId (hrefused hrequest hnot)⟩

/-- What comes for a connection leaves the other ones as they are. -/
theorem groupAsks_of_own {events : List (Sessions.Event ByteString)}
    {live : ByteString → Option (ι × HttpRequestExtractor)} {incoming : Incoming}
    {connectionId : ByteString} {asked' : List ByteString}
    (hasks : ∀ other, Asks random calls asked refused other (live other))
    (hkey : incoming.key kParameter_TcpConnectionId = connectionId)
    {live' : Option (ι × HttpRequestExtractor)}
    (hmirrors : Hosting.Mirrors F kParameter_TcpConnectionId events host
      (Function.update live connectionId live'))
    (honce : asked'.Nodup) (hasked : ∀ other ≠ connectionId, other ∈ asked' ↔ other ∈ asked)
    (hown : Asks random (calls ++ [incoming]) asked' refused connectionId live') :
    GroupAsks F random (calls ++ [incoming]) host asked' refused := by
  refine ⟨honce, _, _, hmirrors, fun other => ?_⟩
  by_cases hother : other = connectionId
  · rw [hother, Function.update_self]
    exact hown
  · rw [Function.update_of_ne hother]
    exact (hasks other).of_ne (by rw [hkey]; exact Ne.symm hother) (hasked other hother)

/-- **A packet with data**: if a New Request packet is pushed, it gets through or its connection is
refused, and the group goes on in both cases. -/
theorem GroupAsks.router (thrownBy : Packet → Push → Option Fault) (hgroup : Grouped F c₀)
    (h : GroupAsks F random calls host asked refused)
    {packet : Packet} {connectionId : ByteString}
    (hkey : keyOf kParameter_TcpConnectionId packet = some connectionId)
    (hpacket : HasBuffer packet) (hopen : ¬ Removed calls connectionId)
    (hthrown : ∀ block requestId, OnlyThrows (thrownBy packet (requestPush block requestId))) :
    ∃ reply host', Hosting.serve F (extractorClass random thrownBy) host (.contextRouter packet) =
        .ok (reply, host') ∧ reply.result = .ok () ∧
      (newRequestsOf reply = [] ∧
          GroupAsks F random (calls ++ [.contextRouter packet]) host' asked refused ∨
        ∃ block requestId, newRequestsOf reply = [requestPush block requestId] ∧
          (thrownBy packet (requestPush block requestId) = none →
            GroupAsks F random (calls ++ [.contextRouter packet]) host'
              (asked ++ [connectionId]) refused) ∧
          (thrownBy packet (requestPush block requestId) ≠ none → refused connectionId →
            GroupAsks F random (calls ++ [.contextRouter packet]) host' asked refused)) := by
  obtain ⟨honce, events, live, hmirrors, hasks⟩ := h
  have hkey' : (Incoming.contextRouter packet).key kParameter_TcpConnectionId = connectionId := by
    rw [Incoming.key, Incoming.packet, hkey, Option.getD_some]
  obtain ⟨host', state', code, hserve, halone, hmirrors'⟩ :=
    hmirrors.serve_router (B := extractorClass random thrownBy) hgroup.fresh hgroup.path hkey
  obtain ⟨reply, live', halone', hresult, hcases⟩ := ((hasks connectionId).knows hopen).router
    kParameter_TcpConnectionId (ContextualNode.instanceOf F events events.length) hpacket hthrown
  obtain ⟨rfl, rfl⟩ : code = .ok reply ∧ state' = live' := by
    rw [halone'] at halone
    cases code with
    | error fault => cases halone
    | ok reply' =>
      obtain ⟨rfl, rfl⟩ := Prod.mk.inj (Except.ok.inj halone)
      exact ⟨rfl, rfl⟩
  refine ⟨reply, host', hserve, hresult, ?_⟩
  rcases hcases with ⟨hnone, hknows, hall⟩ | ⟨hrequest, hnot, block, requestId, hnew, hknows⟩
  · exact .inl ⟨hnone, groupAsks_of_own hasks hkey' hmirrors' honce (fun _ _ => Iff.rfl)
      ((hasks connectionId).silent hkey' hknows hall)⟩
  · refine .inr ⟨block, requestId, hnew, fun hpass => ?_, fun hthrows hrefused => ?_⟩
    · refine groupAsks_of_own hasks hkey' hmirrors' ?_ (fun other hne => ?_)
        (asks_through hkey' hrequest hpass hknows)
      · exact List.nodup_append.2 ⟨honce, List.nodup_singleton _, fun a ha b hb heq =>
          hnot (List.mem_singleton.1 hb ▸ heq ▸ ha)⟩
      · rw [List.mem_append, List.mem_singleton, or_iff_left hne]
    · exact groupAsks_of_own hasks hkey' hmirrors' honce (fun _ _ => Iff.rfl)
        (asks_refused hkey' hnot hrefused hthrows hknows)

/-- **A connection is removed.** -/
theorem GroupAsks.remover (h : GroupAsks F random calls host asked refused) {packet : Packet}
    {connectionId : ByteString} (hkey : keyOf kParameter_TcpConnectionId packet = some connectionId)
    (thrownBy : Packet → Push → Option Fault) :
    ∃ reply host', Hosting.serve F (extractorClass random thrownBy) host (.contextRemover packet) =
        .ok (reply, host') ∧ reply.result = .ok () ∧ newRequestsOf reply = [] ∧
      GroupAsks F random (calls ++ [.contextRemover packet]) host' asked refused := by
  obtain ⟨honce, events, live, hmirrors, hasks⟩ := h
  have hkey' : (Incoming.contextRemover packet).key kParameter_TcpConnectionId = connectionId := by
    rw [Incoming.key, Incoming.packet, hkey, Option.getD_some]
  obtain ⟨host', reply, hserve, halone, hmirrors'⟩ :=
    hmirrors.serve_remover (B := extractorClass random thrownBy) hkey
      (ContextualNode.instanceOf F events events.length)
  obtain ⟨hresult, hnone⟩ := newRequestsOf_remover thrownBy _ _ packet halone
  exact ⟨reply, host', hserve, hresult, hnone, groupAsks_of_own hasks hkey' hmirrors' honce
    (fun _ _ => Iff.rfl) ((hasks connectionId).remover hkey')⟩

end

end IpEcho

end Maplang
