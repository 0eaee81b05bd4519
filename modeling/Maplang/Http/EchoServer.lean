import Maplang.Http.AddressResponse
import Maplang.Http.NewRequests

/-!
# The IP echo server

The whole demo as one machine: libuv calls back, the TCP group pushes what it has read, the
extractor of the connection pushes a New Request packet when the headers are complete, and the
response to that is written to the connection.

When `new` throws for a response, the extractor that has pushed the New Request packet catches the
exception, and the demo goes on; the headers are kept, and when the next packet comes for the
connection another attempt is made.  The error packet of the extractor has no edge to go along.

## Main definitions

* `EchoServer`, `echoMachine` : the demo, step by step.
* `Findable` : connections that have not been closed are in the table.
* `Echoing` : what has been written are the responses to the New Request packets that got through.

## Main results

* `brings_step` : a step of the TCP group brings at most one packet to the contextual group.
* `pushNewRequest_spec` : a New Request packet for an open connection is answered, or `new` throws.
* `Echoing.step` : one step of the server.
* `echoes_addresses` : **each connection is answered once** at most, after a request has been read
  from it, and with its own address.
-/

namespace Maplang

open Tcp ContextualNode HttpRequestExtractor

namespace IpEcho

/-- The demo at work. -/
structure EchoServer (ι : Type) where
  tcp : WatchedTcp
  host : Hosting ι HttpRequestExtractor

/-- What libuv calls back for, or what happens elsewhere: the demo has no edge to the Disconnector,
and only one to the Sender. -/
def FromOutside : Event → Prop
  | .send _ | .disconnect _ => False
  | _ => True

instance : DecidablePred FromOutside
  | .send _ | .disconnect _ => inferInstanceAs (Decidable False)
  | .newConnection _ | .errorPushed | .read _ _ _ | .closed _ | .indexDrawn =>
    inferInstanceAs (Decidable True)

/-- A New Request packet goes along its edges, up to the Sender. -/
def pushNewRequest (factory : BufferFactory) (received : Packet) (w : WatchedTcp)
    (newRequest : Push) : Code WatchedTcp := do
  let sent ← answer factory received newRequest
  let tcp ← w.toTcp.sendData sent
  return { tcp with accepted := w.accepted, reads := w.reads }

/-- What the push throws. -/
def thrownBy (factory : BufferFactory) (w : WatchedTcp) (received : Packet) (newRequest : Push) :
    Option Fault :=
  match pushNewRequest factory received w newRequest with
  | .ok _ => none
  | .error fault => some fault

/-- The TCP group after the push; an exception leaves it as it was. -/
def respond (factory : BufferFactory) (received : Packet) (w : WatchedTcp) (newRequest : Push) :
    WatchedTcp :=
  (pushNewRequest factory received w newRequest).toOption.getD w

section

variable {ι : Type} [DecidableEq ι] (uvStrerror : ℤ → ByteString) (factory : BufferFactory)
  (F : ImplementationFactory ι) (random : ι → ℕ → ℕ)

/-- A packet comes to the contextual group.  An extractor pushes one New Request packet at most for
it, and nothing before that, so that the TCP group is then still as it was. -/
def handleIncoming (s : EchoServer ι) (incoming : Incoming) : Option (EchoServer ι) :=
  match Hosting.serve F (extractorClass random (thrownBy factory s.tcp)) s.host incoming with
  | .error _ => none
  | .ok (reply, host) =>
    match reply.result with
    -- an exception would leave the callback of libuv
    | .error _ => none
    | .ok () =>
      some { tcp := (newRequestsOf reply).foldl (respond factory incoming.packet) s.tcp, host }

/-- The machine of the demo: a step of the TCP group, and what its packets lead to.  What `new` does
may be different in each step. -/
def echoMachine : Machine (EchoServer ι) (Event × BufferFactory) where
  step s event :=
    if FromOutside event.1 then
      ((watchedMachine uvStrerror).step s.tcp event.1).bind fun w =>
        (incomings (w.pushes.drop s.tcp.pushes.length)).foldlM
          (handleIncoming event.2 F random) { s with tcp := w }
    else none

end

/-! ### The TCP group -/

/-- A connection that has not been closed is in the table. -/
def FindableIn (pushes : List Push) (connections : UnorderedMap ByteString UvTcpConnection)
    (a : Accepted) : Prop :=
  (∃ i, Tells pushes i "Connection Closed" a.connection.connectionId) ∨
    ∃ handle, a.connection.uvSocket = some handle ∧
      socketAt connections a.connection.connectionId = some handle

/-- All connections that have not been closed are in the table. -/
def Findable (w : WatchedTcp) : Prop :=
  ∀ a ∈ w.accepted, FindableIn w.pushes w.mConnections a

section

variable {uvStrerror : ℤ → ByteString} {T T' : Tcp} {w w' : WatchedTcp} {event : Event}
  {a : Accepted}

theorem FindableIn.append {pushes : List Push}
    {connections connections' : UnorderedMap ByteString UvTcpConnection}
    (h : FindableIn pushes connections a) (more : List Push)
    (hsame : socketAt connections' a.connection.connectionId =
      socketAt connections a.connection.connectionId) :
    FindableIn (pushes ++ more) connections' a := by
  rcases h with ⟨i, htells⟩ | ⟨handle, hsocket, hat⟩
  · exact .inl ⟨i, htells.append more⟩
  · exact .inr ⟨handle, hsocket, hsame.trans hat⟩

/-- A change that adds no connection with the same id. -/
theorem FindableIn.change (h : FindableIn T.pushes T.mConnections a)
    (hlinked : Linked T.toUvTcpImpl T.handles) (hc : Change T event T')
    (hne : ∀ incoming, event = .newConnection incoming → Opens incoming →
      a.connection.connectionId ≠ T.nextConnectionId incoming) :
    FindableIn T'.pushes T'.mConnections a := by
  cases hc with
  | same same =>
    obtain ⟨pushes, hpushes, -⟩ := same.pushes
    rw [same.tables, hpushes]
    exact h.append pushes rfl
  | @added incoming _ opens added =>
    obtain ⟨errors, hpushes, -⟩ := added.pushes
    rw [added.tables, hpushes, List.append_assoc]
    refine h.append _ ?_
    rw [addConnection, socketAt_put, Function.update_of_ne (hne incoming rfl opens)]
  | closed reason found socket cause =>
    refine (List.append_nil T.pushes ▸ h.append [] ?_ :)
    exact congrFun (socketAt_put_closedReason found reason) _
  | failed starting => exact h
  | @removed handle connectionId connection _ idle phase found socket drawn tables handles starting
      pushes =>
    rw [tables, pushes]
    by_cases heq : a.connection.connectionId = connectionId
    · refine .inl ⟨_, tells_last rfl ?_⟩
      rw [heq, ← hlinked.own connectionId connection found (by simp [socket])]
      exact describes_closedPush.find
    · refine h.append _ ?_
      rw [socketAt_erase, Function.update_of_ne heq]
  | inserted names missing drawn tables handles starting pushes =>
    rw [tables, pushes, ← List.append_nil T.pushes]
    exact h.append [] (congrFun (socketAt_touch missing) _)

theorem Findable.step (h : Findable w) (hserved : Served w) (hok : Serving w event)
    (hs : (watchedMachine uvStrerror).step w event = some w') : Findable w' := by
  obtain ⟨o, ho, rfl⟩ := Option.map_eq_some_iff.1 hs
  obtain ⟨T, hT, rfl⟩ := Option.map_eq_some_iff.1 ho
  have hlinked := hserved.consistent.linked
  intro a ha
  rcases List.mem_append.1 ha with hold | hnew
  · refine (h a hold).change hlinked (Tcp.step_cases hlinked hT) ?_
    rintro incoming rfl hopens
    exact hserved.told.id_ne (hok.1 hopens).2 a hold
  · cases event with
    | newConnection incoming =>
      rw [acceptedBy] at hnew
      split at hnew
      · rename_i hopens
        obtain rfl := List.mem_singleton.1 hnew
        refine .inr ⟨incoming.client, rfl, ?_⟩
        have htables := (added_of_step hopens ho).1.tables
        change T.toUvTcpImpl = _ at htables
        change socketAt T.mConnections _ = _
        rw [htables, addConnection, socketAt_put]
        exact Function.update_self ..
      · cases hnew
    | _ => cases hnew

theorem incomings_append (pushes more : List Push) :
    incomings (pushes ++ more) = incomings pushes ++ incomings more := List.filterMap_append ..

theorem incomings_eq_nil {pushes : List Push} (h : ∀ push ∈ pushes, incoming? push = none) :
    incomings pushes = [] := List.filterMap_eq_nil_iff.2 h

theorem incoming?_error {push : Push} (h : push.channel = "error") : incoming? push = none := by
  rw [incoming?, h]
  rfl

theorem incomings_lookupErrors (addressLookup : AddressLookup) :
    incomings (lookupErrors uvStrerror addressLookup) = [] :=
  incomings_eq_nil fun _ hpush => incoming?_error (channel_lookupErrors hpush)

/-- What a step that comes from outside leaves as it is, and what it adds: nothing is written, and
at most one packet goes to the contextual group. -/
structure Brings (T T' : Tcp) : Prop where
  writes : T'.writes = T.writes
  pushes : ∃ new, T'.pushes = T.pushes ++ new ∧
    (incomings new = [] ∨ ∃ push incoming, new = [push] ∧ incoming? push = some incoming)

theorem Brings.of_none (hwrites : T'.writes = T.writes) {new : List Push}
    (hpushes : T'.pushes = T.pushes ++ new) (hnone : incomings new = []) : Brings T T' :=
  ⟨hwrites, new, hpushes, .inl hnone⟩

theorem Brings.of_same (hwrites : T'.writes = T.writes) (hpushes : T'.pushes = T.pushes) :
    Brings T T' :=
  .of_none hwrites (hpushes.trans (List.append_nil _).symm) rfl

theorem Brings.of_one (hwrites : T'.writes = T.writes) {push : Push}
    (hpushes : T'.pushes = T.pushes ++ [push]) : Brings T T' := by
  refine ⟨hwrites, [push], hpushes, ?_⟩
  cases hincoming : incoming? push with
  | none => exact .inl (List.filterMap_cons_none hincoming)
  | some incoming => exact .inr ⟨push, incoming, rfl, hincoming⟩

theorem brings_onNewIncomingConnection (incoming : IncomingConnection) :
    Brings T (T.onNewIncomingConnection uvStrerror incoming) := by
  have hlookups : incomings (lookupErrors uvStrerror incoming.remote ++
      lookupErrors uvStrerror incoming.localSide) = [] := by
    rw [incomings_append, incomings_lookupErrors, incomings_lookupErrors, List.append_nil]
  unfold onNewIncomingConnection
  split_ifs with hstatus haccept hremote hlocal hread
  · exact .of_one rfl rfl
  · exact .of_one rfl rfl
  · exact .of_none rfl rfl (incomings_lookupErrors _)
  · exact .of_none rfl rfl hlookups
  · refine .of_none rfl (List.append_assoc ..) ?_
    rw [incomings_append, hlookups]
    rfl
  · refine .of_none rfl (List.append_assoc ..) ?_
    rw [incomings_append, hlookups]
    rfl

theorem brings_dataReceived (hlinked : Linked T.toUvTcpImpl T.handles) {stream : ℕ} {nread : ℤ}
    {base : List UInt8} (hreading : (T.handles stream).phase = .reading)
    (hs : T.after (T.dataReceived uvStrerror stream nread base) = some T') : Brings T T' := by
  obtain ⟨connectionId, connection, hpointer, hfound, hsocket, -⟩ :=
    hlinked.exists_entry (by simp [hreading] : (T.handles stream).phase ≠ .unknown)
  rw [dataReceived_eq hpointer hfound hsocket] at hs
  obtain rfl := Option.some.inj hs
  split_ifs with heof herror hzero
  · exact .of_same rfl rfl
  · exact .of_one rfl rfl
  · exact .of_same rfl rfl
  · exact .of_one rfl rfl

theorem brings_onConnectionRemoved (hlinked : Linked T.toUvTcpImpl T.handles) {handle : ℕ}
    (hphase : (T.handles handle).phase = .closing)
    (hs : T.after (T.onConnectionRemoved handle) = some T') : Brings T T' := by
  obtain ⟨connectionId, connection, hpointer, hfound, -, hid⟩ :=
    hlinked.exists_entry (by simp [hphase] : (T.handles handle).phase ≠ .unknown)
  rw [onConnectionRemoved_eq hpointer hfound hid] at hs
  obtain rfl := Option.some.inj hs
  exact .of_one rfl rfl

/-- **One step of the TCP group** brings at most one packet to the contextual group. -/
theorem brings_step (hlinked : Linked T.toUvTcpImpl T.handles) (houtside : FromOutside event)
    (hs : (tcpMachine uvStrerror).step T event = some T') : Brings T T' := by
  cases event with
  | newConnection incoming =>
    simp only [tcpMachine] at hs
    split at hs
    · obtain rfl := Option.some.inj hs
      exact brings_onNewIncomingConnection incoming
    · cases hs
  | errorPushed =>
    obtain ⟨handle, -, rfl⟩ := Option.map_eq_some_iff.1 hs
    exact .of_same rfl rfl
  | read stream nread base =>
    simp only [tcpMachine] at hs
    split at hs
    · rename_i hready
      exact brings_dataReceived hlinked hready.2 hs
    · cases hs
  | send packet => exact houtside.elim
  | disconnect packet => exact houtside.elim
  | closed handle =>
    simp only [tcpMachine] at hs
    split at hs
    · rename_i hready
      obtain ⟨U, hU, rfl⟩ := Option.map_eq_some_iff.1 hs
      obtain ⟨hwrites, hpushes⟩ := brings_onConnectionRemoved hlinked hready.2 hU
      exact ⟨hwrites, hpushes⟩
    · cases hs
  | indexDrawn =>
    obtain rfl := Option.some.inj hs
    exact .of_same rfl rfl

theorem Served.brings (h : Served w) (houtside : FromOutside event)
    (hs : (watchedMachine uvStrerror).step w event = some w') :
    Brings w.toTcp w'.toTcp ∧ w.accepted <+: w'.accepted := by
  obtain ⟨o, ho, rfl⟩ := Option.map_eq_some_iff.1 hs
  obtain ⟨T, hT, rfl⟩ := Option.map_eq_some_iff.1 ho
  exact ⟨brings_step h.consistent.linked houtside hT, List.prefix_append ..⟩

/-- The answer to a request is written to the socket of its connection. -/
theorem sendData_of_socket {sent : Packet} {connectionId : ByteString} {handle : ℕ}
    {response : Buffer} (hid : connectionIdOf sent = .ok connectionId)
    (hbuffers : sent.buffers = [response])
    (hsocket : socketAt T.mConnections connectionId = some handle) :
    T.sendData sent = .ok { T with writes := T.writes ++ [(some handle, response)] } := by
  obtain ⟨connection, hfound, hconnection⟩ := socketAt_eq_some.1 hsocket
  have htouch : T.mConnections.touch connectionId {} = T.mConnections :=
    UnorderedMap.touch_of_some {} hfound
  simp only [sendData, hid, hbuffers, hfound, htouch, Option.getD_some, hconnection, bind,
    Except.bind]
  rfl

/-- The handle of a connection stands for this connection. -/
def Current (w : WatchedTcp) (a : Accepted) : Prop :=
  ∃ handle, a.connection.uvSocket = some handle ∧ lastOn w.accepted handle = some a

/-- A connection that is in the table has its handle for itself. -/
theorem Served.current (h : Served w) (ha : a ∈ w.accepted) {handle : ℕ}
    (hhandle : a.connection.uvSocket = some handle)
    (hsocket : socketAt w.mConnections a.connection.connectionId = some handle) : Current w a := by
  obtain ⟨b, hb, hid⟩ := h.carries.recent.socketAt h.consistent.linked.own hsocket
  obtain rfl : b = a := List.inj_on_of_nodup_map (List.pairwise_map.2 h.told.distinct)
    (lastOn_mem hb).1 ha hid
  exact ⟨handle, hhandle, hb⟩

/-- Nothing is said to be closed before its last data. -/
theorem Findable.socket_of_data (h : Findable w) (hserved : Served w) {pushes : List Push}
    {buffer : Buffer} (ha : a ∈ w.accepted)
    (hpushes : w.pushes = pushes ++ [connectionPush "Data Received" a.connection [buffer]]) :
    ∃ handle, a.connection.uvSocket = some handle ∧
      socketAt w.mConnections a.connection.connectionId = some handle := by
  rcases h a ha with ⟨i, hclosed⟩ | hsocket
  · have hlast : Tells w.pushes pushes.length "Data Received" a.connection.connectionId := by
      rw [hpushes]
      exact tells_last rfl (describes_connectionPush _).find
    have hbefore := hserved.told.fits.inOrder.dataBefore _ _ _ hlast hclosed
    have hlength := hclosed.lt_length
    rw [hpushes, List.length_append, List.length_singleton] at hlength
    omega
  · exact hsocket

end

/-! ### The responses -/

section

variable {uvStrerror : ℤ → ByteString} {w : WatchedTcp} {a : Accepted}

/-- What is written to a connection for a request. -/
def responseTo (a : Accepted) : Option ℕ × ByteString :=
  (a.connection.uvSocket, responseText a.connection.remoteAddress)

/-- What has been written, byte by byte. -/
def written (writes : List (Option ℕ × Buffer)) : List (Option ℕ × ByteString) :=
  writes.map fun write => (write.1, write.2.contents)

/-- `new` throws when a buffer of the response to a request is created. -/
def Throws (factory : BufferFactory) (a : Accepted) : Prop :=
  ∃ buffer block requestId bufferSize what,
    factory.Create bufferSize = .error (.exception what) ∧
    answer factory (connectionPush "Data Received" a.connection [buffer]).packet
      (HttpRequestExtractor.requestPush block requestId) = .error (.exception what)

/-- **A New Request packet for an open connection** is answered with its own address, or `new`
throws. -/
theorem pushNewRequest_spec (factory : BufferFactory) (buffer : Buffer) {handle : ℕ}
    (hhandle : a.connection.uvSocket = some handle)
    (hsocket : socketAt w.mConnections a.connection.connectionId = some handle)
    (block requestId : ByteString) :
    (∃ response : Buffer, pushNewRequest factory
        (connectionPush "Data Received" a.connection [buffer]).packet w
        (HttpRequestExtractor.requestPush block requestId) =
          .ok { w with writes := w.writes ++ [(some handle, response)] } ∧
      written [(some handle, response)] = [responseTo a]) ∨
    (∃ what, pushNewRequest factory
        (connectionPush "Data Received" a.connection [buffer]).packet w
        (HttpRequestExtractor.requestPush block requestId) = .error (.exception what)) ∧
      Throws factory a := by
  have hanswer := @answer_spec factory
    (connectionPush "Data Received" a.connection [buffer]).packet
    a.connection.connectionId a.connection.remoteAddress block requestId rfl rfl rfl rfl
  rcases hanswer with ⟨sent, hsent, hid, response, hbuffers, hcontents⟩ |
    ⟨bufferSize, what, hcreate, hthrown⟩
  · refine .inl ⟨response, ?_, ?_⟩
    · simp only [pushNewRequest, hsent, sendData_of_socket hid hbuffers hsocket, bind, Except.bind]
      rfl
    · rw [responseTo, hhandle, ← hcontents]
      rfl
  · refine .inr ⟨⟨what, ?_⟩, buffer, block, requestId, bufferSize, what, hcreate, hthrown⟩
    rw [pushNewRequest, hthrown]
    rfl

end

/-! ### Runs -/

/-- `new` has thrown for a response to the connection with this id. -/
def Refused (Available : BufferFactory → Prop) (accepted : List Accepted)
    (connectionId : ByteString) : Prop :=
  ∃ a ∈ accepted, a.connection.connectionId = connectionId ∧
    ∃ factory, Available factory ∧ Throws factory a

/-- What holds in every state of a run in which `new` does one of several things in each step: what
has been written are the responses to the connections in a list, and these are the connections for
which a New Request packet has got through. -/
structure Echoing {ι : Type} [DecidableEq ι] (F : ImplementationFactory ι) (random : ι → ℕ → ℕ)
    (Available : BufferFactory → Prop) (s : EchoServer ι) (answered : List Accepted) : Prop where
  served : Served s.tcp
  findable : Findable s.tcp
  known : ∀ a ∈ answered, a ∈ s.tcp.accepted
  writes : written s.tcp.writes = answered.map responseTo
  asks : GroupAsks F random (incomings s.tcp.pushes) s.host
    (answered.map fun a => a.connection.connectionId) (Refused Available s.tcp.accepted)

section

variable {ι : Type} [DecidableEq ι] {uvStrerror : ℤ → ByteString} {factory : BufferFactory}
  {F : ImplementationFactory ι} {random : ι → ℕ → ℕ} {c₀ : ContextualNode ι}
  {Available : BufferFactory → Prop} {s : EchoServer ι} {answered : List Accepted}
  {event : Event} {w : WatchedTcp}

theorem echoing_empty (hgroup : Grouped F c₀) (objects : ι → HttpRequestExtractor) :
    Echoing F random Available ⟨{}, ⟨c₀, objects⟩⟩ [] where
  served := served_empty
  findable := by simp [Findable]
  known := by simp
  writes := rfl
  asks := groupAsks_construct hgroup objects

/-- A connection stays refused. -/
theorem Refused.mono {accepted accepted' : List Accepted} {connectionId : ByteString}
    (h : Refused Available accepted connectionId) (hsub : accepted ⊆ accepted') :
    Refused Available accepted' connectionId := by
  obtain ⟨a, ha, hthrows⟩ := h
  exact ⟨a, hsub ha, hthrows⟩

/-- The TCP group has done a step, in which nothing was written, and the contextual group has
handled what that brought. -/
theorem Echoing.next (h : Echoing F random Available s answered) (hserved : Served w)
    (hfindable : Findable w) (haccepted : s.tcp.accepted <+: w.accepted)
    (hwrites : w.writes = s.tcp.writes) {host' : Hosting ι HttpRequestExtractor}
    (hasks : GroupAsks F random (incomings w.pushes) host'
      (answered.map fun a => a.connection.connectionId) (Refused Available w.accepted)) :
    Echoing F random Available ⟨w, host'⟩ answered where
  served := hserved
  findable := hfindable
  known a ha := haccepted.subset (h.known a ha)
  writes := (congrArg written hwrites).trans h.writes
  asks := hasks

/-- What is written does not change what has been read and pushed. -/
theorem Served.withWrites (h : Served w) (writes : List (Option ℕ × Buffer)) :
    Served { w with writes } :=
  ⟨⟨h.consistent.linked, h.consistent.starting⟩, ⟨h.told.idle, h.told.fits, h.told.ids,
    h.told.distinct⟩, ⟨h.carries.recent, h.carries.data, h.carries.known⟩, h.valid⟩

/-- A response has been written as well. -/
theorem Echoing.next_written (h : Echoing F random Available s answered) (hserved : Served w)
    (hfindable : Findable w) (haccepted : s.tcp.accepted <+: w.accepted)
    (hwrites : w.writes = s.tcp.writes) {a : Accepted} (ha : a ∈ w.accepted)
    {writes : List (Option ℕ × Buffer)} (hwritten : written writes = [responseTo a])
    {host' : Hosting ι HttpRequestExtractor}
    (hasks : GroupAsks F random (incomings w.pushes) host'
      ((answered.map fun a => a.connection.connectionId) ++ [a.connection.connectionId])
      (Refused Available w.accepted)) :
    Echoing F random Available ⟨{ w with writes := w.writes ++ writes }, host'⟩
      (answered ++ [a]) where
  served := hserved.withWrites _
  findable := hfindable
  known b hb := by
    rcases List.mem_append.1 hb with hold | hmore
    · exact haccepted.subset (h.known b hold)
    · rwa [List.mem_singleton.1 hmore]
  writes := by
    rw [List.map_append, ← h.writes, ← hwrites]
    exact List.map_append.trans (congrArg _ hwritten)
  asks := by
    rw [List.map_append]
    exact hasks

/-- Data does not come for a connection that has been removed. -/
theorem Served.not_removed (h : Served w) {pushes : List Push} {a : Accepted} {buffer : Buffer}
    (hpushes : w.pushes = pushes ++ [connectionPush "Data Received" a.connection [buffer]]) :
    ¬ Removed (incomings pushes) a.connection.connectionId := by
  rintro ⟨last, hlast⟩
  have hnamed : AllNamed pushes := fun push hpush =>
    h.allNamed push (hpushes ▸ List.mem_append_left _ hpush)
  obtain ⟨i, hclosed⟩ := hnamed.exists_tells hlast
  have hdata : Tells w.pushes pushes.length "Data Received" a.connection.connectionId := by
    rw [hpushes]
    exact tells_last rfl (describes_connectionPush _).find
  have hlength := hclosed.lt_length
  have hclosed' := hclosed.append [connectionPush "Data Received" a.connection [buffer]]
  rw [← hpushes] at hclosed'
  have hbefore := h.told.fits.inOrder.dataBefore _ _ _ hdata hclosed'
  omega

/-- A packet with data: the extractor of the connection goes on, whether `new` throws or not. -/
theorem Echoing.router (hgroup : Grouped F c₀)
    (h : Echoing F random Available s answered) (hfactory : Available factory)
    (hserved : Served w) (hfindable : Findable w) (haccepted : s.tcp.accepted <+: w.accepted)
    (hwrites : w.writes = s.tcp.writes) {a : Accepted} {buffer : Buffer} (ha : a ∈ w.accepted)
    (hbuffer : buffer.Valid) (hpushes : w.pushes =
      s.tcp.pushes ++ [connectionPush "Data Received" a.connection [buffer]]) {packet : Packet}
    (hpacket : packet = (connectionPush "Data Received" a.connection [buffer]).packet) :
    ∃ s' more, handleIncoming factory F random { s with tcp := w } (.contextRouter packet) =
        some s' ∧
      s'.tcp = { w with writes := s'.tcp.writes } ∧
      Echoing F random Available s' (answered ++ more) ∧ ∀ b ∈ more, Current s'.tcp b := by
  obtain ⟨handle, hhandle, hsocket⟩ := hfindable.socket_of_data hserved ha hpushes
  have hspec := pushNewRequest_spec factory buffer hhandle hsocket
  rw [← hpacket] at hspec
  have hincomings : incomings w.pushes = incomings s.tcp.pushes ++ [.contextRouter packet] := by
    rw [hpushes, incomings_append, hpacket]
    rfl
  have hasks := h.asks.imp fun _ hrefused => hrefused.mono haccepted.subset
  have hthrows : ∀ block requestId, OnlyThrows (thrownBy factory w packet
      (HttpRequestExtractor.requestPush block requestId)) := fun block requestId => by
    rcases hspec block requestId with ⟨response, hok, -⟩ | ⟨⟨what, hthrown⟩, -⟩
    · exact .inl (by rw [thrownBy, hok])
    · exact .inr ⟨what, by rw [thrownBy, hthrown]⟩
  obtain ⟨reply, host', hserve, hresult, hcases⟩ := hasks.router (thrownBy factory w) hgroup
    (hpacket ▸ keyOf_connectionPush a buffer) (hpacket ▸ ⟨List.cons_ne_nil _ _, hbuffer⟩)
    (hserved.not_removed hpushes) hthrows
  rw [← hincomings] at hcases
  have hhandle' : handleIncoming factory F random { s with tcp := w } (.contextRouter packet) =
      some ⟨(newRequestsOf reply).foldl (respond factory packet) w, host'⟩ := by
    simp only [handleIncoming, hserve, hresult]
    rfl
  rcases hcases with ⟨hnone, hnext⟩ | ⟨block, requestId, hnew, hpass, hthrow⟩
  · refine ⟨_, [], hhandle', ?_, ?_, by simp⟩
    · rw [hnone]
      rfl
    · rw [hnone, List.append_nil]
      exact h.next hserved hfindable haccepted hwrites hnext
  · rcases hspec block requestId with ⟨response, hok, hwritten⟩ | ⟨⟨what, hthrown⟩, hthrows⟩
    -- the response is written
    · have htcp : (newRequestsOf reply).foldl (respond factory packet) w =
          { w with writes := w.writes ++ [(some handle, response)] } := by
        rw [hnew, List.foldl_cons, List.foldl_nil, respond, hok]
        rfl
      rw [htcp] at hhandle'
      refine ⟨_, [a], hhandle', rfl, h.next_written hserved hfindable haccepted hwrites ha hwritten
        (hpass (by rw [thrownBy, hok])), fun b hb => ?_⟩
      rw [List.mem_singleton.1 hb]
      exact hserved.current ha hhandle hsocket
    -- the extractor catches the exception
    · have htcp : (newRequestsOf reply).foldl (respond factory packet) w = w := by
        rw [hnew, List.foldl_cons, List.foldl_nil, respond, hthrown]
        rfl
      rw [htcp] at hhandle'
      refine ⟨_, [], hhandle', rfl, ?_, by simp⟩
      rw [List.append_nil]
      refine h.next hserved hfindable haccepted hwrites (hthrow ?_ ⟨a, ha, rfl, factory, hfactory,
        hthrows⟩)
      rw [thrownBy, hthrown]
      exact Option.some_ne_none _

/-- **One step.**  What the TCP group does can always be followed, and what is written are
responses. -/
theorem Echoing.step (factory : BufferFactory) (hgroup : Grouped F c₀)
    (h : Echoing F random Available s answered) (hfactory : Available factory)
    (hok : Serving s.tcp event) (houtside : FromOutside event)
    (hs : (watchedMachine uvStrerror).step s.tcp event = some w) :
    ∃ s' more, (echoMachine uvStrerror F random).step s (event, factory) = some s' ∧
      s'.tcp = { w with writes := s'.tcp.writes } ∧
      Echoing F random Available s' (answered ++ more) ∧ ∀ a ∈ more, Current s'.tcp a := by
  have hserved := h.served.step hok hs
  have hfindable := h.findable.step h.served hok hs
  obtain ⟨⟨hwrites, new, hpushes, hnew⟩, haccepted⟩ := h.served.brings houtside hs
  have hstep : (echoMachine uvStrerror F random).step s (event, factory) =
      (incomings new).foldlM (handleIncoming factory F random) { s with tcp := w } := by
    simp only [echoMachine, if_pos houtside, hs, Option.bind_some, hpushes, List.drop_left]
  have hasks := h.asks.imp fun _ hrefused => hrefused.mono haccepted.subset
  rcases hnew with hnil | ⟨push, incoming, rfl, hincoming⟩
  -- nothing comes to the contextual group
  · rw [hnil] at hstep
    refine ⟨{ s with tcp := w }, [], hstep, rfl, ?_, by simp⟩
    rw [List.append_nil]
    refine h.next hserved hfindable haccepted hwrites ?_
    rwa [hpushes, incomings_append, hnil, List.append_nil]
  -- a packet comes to it
  · have hone : incomings [push] = [incoming] := List.filterMap_cons_some hincoming
    rw [hone, List.foldlM_cons] at hstep
    obtain ⟨hchannel, hpacket⟩ := incoming?_eq_some hincoming
    have hmem : push ∈ w.pushes := by simp [hpushes]
    cases incoming with
    | contextRouter packet =>
      obtain ⟨a, ha, buffer, hbuffer, rfl⟩ := hserved.dataPush hmem hchannel
      obtain rfl : _ = packet := hpacket
      obtain ⟨s', more, hhandle, hrest⟩ := h.router hgroup hfactory hserved hfindable haccepted
        hwrites ha hbuffer hpushes rfl
      rw [hhandle] at hstep
      exact ⟨s', more, hstep, hrest⟩
    | contextRemover packet =>
      obtain ⟨a, -, hdescribes⟩ := hserved.told.fits.known push hmem (by
        rw [hchannel]
        exact mem_connectionChannels _)
      have hkey : keyOf kParameter_TcpConnectionId packet = some a.connection.connectionId := by
        rw [keyOf_eq_some, ← hdescribes.find, hpacket]
        rfl
      obtain ⟨reply, host', hserve, hresult, hnone, hnext⟩ :=
        hasks.remover hkey (thrownBy factory w)
      have hhandle : handleIncoming factory F random { s with tcp := w } (.contextRemover packet) =
          some ⟨w, host'⟩ := by
        simp only [handleIncoming, hserve, hresult, hnone]
        rfl
      rw [hhandle] at hstep
      refine ⟨⟨w, host'⟩, [], hstep, rfl, ?_, by simp⟩
      rw [List.append_nil]
      refine h.next hserved hfindable haccepted hwrites ?_
      rwa [hpushes, incomings_append, hone]

theorem Echoing.of_step {s' : EchoServer ι} (hgroup : Grouped F c₀)
    (h : Echoing F random Available s answered) (hfactory : Available factory)
    (hok : Serving s.tcp event)
    (hs : (echoMachine uvStrerror F random).step s (event, factory) = some s') :
    ∃ answered', Echoing F random Available s' answered' := by
  have houtside : FromOutside event := by
    by_contra hnot
    simp only [echoMachine, if_neg hnot] at hs
    cases hs
  obtain ⟨w, hw⟩ : ∃ w, (watchedMachine uvStrerror).step s.tcp event = some w := by
    simp only [echoMachine, if_pos houtside] at hs
    obtain ⟨w, hw, -⟩ := Option.bind_eq_some_iff.1 hs
    exact ⟨w, hw⟩
  obtain ⟨u, more, hstep, -, hechoing, -⟩ := h.step factory hgroup hfactory hok houtside hw
  obtain rfl := Option.some.inj (hs.symm.trans hstep)
  exact ⟨_, hechoing⟩

/-- No two connections have one id. -/
theorem Served.eq_of_id (h : Served w) {a b : Accepted} (ha : a ∈ w.accepted) (hb : b ∈ w.accepted)
    (hid : a.connection.connectionId = b.connection.connectionId) : a = b :=
  List.inj_on_of_nodup_map (List.pairwise_map.2 h.told.distinct) ha hb hid

/-- **Which connections have been answered**, by what has been read from them. -/
theorem Echoing.answered_spec (h : Echoing F random Available s answered) :
    answered.Nodup ∧
      (∀ a ∈ answered, a ∈ s.tcp.accepted ∧ HasRequest (bytesRead s.tcp a)) ∧
      ∀ a ∈ s.tcp.accepted, HasRequest (bytesRead s.tcp a) → a ∉ answered →
        ∃ factory, Available factory ∧ Throws factory a := by
  have hread : ∀ a ∈ s.tcp.accepted,
      inputOf (incomings s.tcp.pushes) a.connection.connectionId = bytesRead s.tcp a :=
    fun a ha => received_callsOf h.served.carries h.served.told.distinct ha
  obtain ⟨honce, events, live, -, hasks⟩ := h.asks
  refine ⟨.of_map _ honce, fun a ha => ⟨h.known a ha, ?_⟩, fun a ha hrequest hnot => ?_⟩
  · rw [← hread a (h.known a ha)]
    exact (hasks _).requested (List.mem_map_of_mem ha)
  · rw [← hread a ha] at hrequest
    obtain ⟨b, hb, hid, hthrows⟩ := (hasks _).refused hrequest fun hmem => by
      obtain ⟨b, hb, hid⟩ := List.mem_map.1 hmem
      exact hnot (h.served.eq_of_id (h.known b hb) ha hid ▸ hb)
    rwa [h.served.eq_of_id hb ha hid] at hthrows

end

/-- **Each connection is answered once.**  The TCP group does any number of steps in which read
starts succeed, ids are new and libuv reads what fits into its buffers, and each time the rest of
the demo does what follows; in each step `new` does one of several things.  Then what has been
written are the responses to the connections in a list, each with the address of its own remote
end, to its own socket.  No connection is in the list twice; what has been read from those in the
list makes a request, and a connection with a request that is not in the list is one for whose
response `new` may throw.  What the TCP group does next can always be followed again, whatever `new`
does; the rest of the demo changes nothing in the TCP group but what is written, and that goes to
handles that stand for the connections of the responses. -/
theorem echoes_addresses {ι : Type} [DecidableEq ι] (uvStrerror : ℤ → ByteString)
    (F : ImplementationFactory ι) (random : ι → ℕ → ℕ) {c₀ : ContextualNode ι}
    (hgroup : Grouped F c₀) (objects : ι → HttpRequestExtractor)
    (Available : BufferFactory → Prop) {s : EchoServer ι}
    (h : (echoMachine uvStrerror F random).Reachable
      (fun s event => Serving s.tcp event.1 ∧ Available event.2) ⟨{}, ⟨c₀, objects⟩⟩ s) :
    (∃ answered : List Accepted, written s.tcp.writes = answered.map responseTo ∧
      answered.Nodup ∧
      (∀ a ∈ answered, a ∈ s.tcp.accepted ∧ HasRequest (bytesRead s.tcp a)) ∧
      ∀ a ∈ s.tcp.accepted, HasRequest (bytesRead s.tcp a) → a ∉ answered →
        ∃ factory, Available factory ∧ Throws factory a) ∧
    ∀ event factory w, FromOutside event → Serving s.tcp event →
      (watchedMachine uvStrerror).step s.tcp event = some w →
      ∃ (s' : EchoServer ι) (more : List Accepted),
        (echoMachine uvStrerror F random).step s (event, factory) = some s' ∧
        s'.tcp = { w with writes := s'.tcp.writes } ∧
        written s'.tcp.writes = written s.tcp.writes ++ more.map responseTo ∧
        ∀ a ∈ more, Current s'.tcp a := by
  have hechoing : ∀ Available : BufferFactory → Prop,
      (echoMachine uvStrerror F random).Reachable
        (fun s event => Serving s.tcp event.1 ∧ Available event.2) ⟨{}, ⟨c₀, objects⟩⟩ s →
      ∃ answered, Echoing F random Available s answered := fun _ h => by
    refine h.invariant (I := fun s => ∃ answered, Echoing F random _ s answered)
      ⟨[], echoing_empty hgroup objects⟩ ?_
    rintro s event s' ⟨answered, hechoing⟩ ⟨hok, hfactory⟩ hs
    exact hechoing.of_step hgroup hfactory hok hs
  refine ⟨?_, fun event factory w houtside hok hs => ?_⟩
  · obtain ⟨answered, hanswered⟩ := hechoing Available h
    exact ⟨answered, hanswered.writes, hanswered.answered_spec⟩
  -- whatever `new` does next
  · obtain ⟨answered, hanswered⟩ := hechoing (fun _ => True)
      (h.mono fun _ _ ⟨hok, _⟩ => ⟨hok, trivial⟩)
    obtain ⟨s', more, hs', hsame, hanswered', hcurrent⟩ :=
      hanswered.step factory hgroup trivial hok houtside hs
    refine ⟨s', more, hs', hsame, ?_, hcurrent⟩
    rw [hanswered'.writes, List.map_append, hanswered.writes]

/-- The demo before its first connection. -/
def idleServer : EchoServer ℕ where
  tcp := {}
  host :=
    { node := { mType := bytes "HTTP Request Extractor", mKey := kParameter_TcpConnectionId,
                created := 1 }
      objects := fun _ => construct fun _ => 0 }

/-- There is no memory. -/
def noMemory : BufferFactory where
  Create _ := .error (.exception "std::bad_alloc")
  create_length := nofun
  create_allocated := nofun
  create_error h := ⟨_, (Except.error.inj h).symm⟩

/-- Two connections send requests while there is no memory; one of them sends something else when
there is. -/
def refusedEvents : List (Event × BufferFactory) :=
  [(.newConnection (loopback 1 5000 0), .zeros), (.newConnection (loopback 2 5001 0), .zeros),
    (.read 1 18 (bytes "GET / HTTP/1.1\r\n\r\n"), noMemory),
    (.read 2 18 (bytes "GET / HTTP/1.1\r\n\r\n"), noMemory), (.read 1 2 (bytes "Hi"), .zeros)]

theorem echoes_addresses_two :
    let s := ((echoMachine (fun _ => []) countingFactory fun i n => 10 * i + n).exec
      (fun s event => decide (Serving s.tcp event.1)) idleServer refusedEvents).getD idleServer
    written s.tcp.writes = [(some 1, responseText (bytes "127.0.0.1"))] ∧
      s.tcp.accepted.length = 2 ∧
      ∃ answered : List Accepted, written s.tcp.writes = answered.map responseTo ∧
        answered.Nodup ∧ ∀ a ∈ s.tcp.accepted, a ∉ answered → ∃ factory, Throws factory a := by
  intro s
  have hrun : (echoMachine (fun _ => []) countingFactory fun i n => 10 * i + n).Reachable
      (fun s event => Serving s.tcp event.1 ∧ True) idleServer s :=
    (Machine.reachable_exec (by decide +kernel)).mono fun _ _ hok =>
      ⟨of_decide_eq_true hok, trivial⟩
  have hgroup : Grouped countingFactory idleServer.host.node := by
    refine ⟨fun _ _ h => h, fun _ => rfl, ⟨.object
      [(bytes "type", .string (bytes "HTTP Request Extractor")),
        (bytes "key", .string (bytes "TcpConnectionId"))], ?_⟩, rfl⟩
    rfl
  obtain ⟨⟨answered, hwritten, honce, -, hmissed⟩, -⟩ :=
    echoes_addresses (fun _ => []) countingFactory (fun i n => 10 * i + n) hgroup
      idleServer.host.objects (fun _ => True) hrun
  have hrequests : ∀ a ∈ s.tcp.accepted, HasRequest (bytesRead s.tcp a) := by decide +kernel
  refine ⟨by decide +kernel, by decide +kernel, answered, hwritten, honce, fun a ha hnot => ?_⟩
  obtain ⟨factory, -, hthrows⟩ := hmissed a ha (hrequests a ha) hnot
  exact ⟨factory, hthrows⟩

end IpEcho

end Maplang
