import Maplang.Tcp.Lifecycle

/-!
# What is read from a connection is pushed for it

libuv knows connections by the addresses of their handles, packets name them by their ids.  An
address is used again for another connection when the one before is gone, so that what an address
stands for depends on the time: it is the connection that was accepted last on the handle.

* `watchedMachine` : a TCP group, its connections, and what libuv has read from each of them.
* `pushes_what_is_read` : **the packets with data are what has been read**, each for the connection
  that it has been read from, in order.
* `Recent.socketAt` : the socket of an entry is that of the connection with its id.
-/

namespace Maplang

namespace Tcp

deriving instance DecidableEq for Accepted

/-- The connection that was accepted last on a handle. -/
def lastOn (accepted : List Accepted) (handle : ℕ) : Option Accepted :=
  (accepted.filter fun a => a.connection.uvSocket = some handle).getLast?

/-- What libuv has read when it calls back, and from which connection. -/
def readBy (accepted : List Accepted) : Event → List (Option Accepted × Buffer)
  | .read stream nread base =>
    if 0 < nread then [(lastOn accepted stream, { data := some base, length := nread.toNat })]
    else []
  | _ => []

end Tcp

open Tcp

/-- A TCP group, the connections that it has accepted so far, and what has been read from them. -/
structure WatchedTcp extends ObservedTcp where
  reads : List (Option Accepted × Buffer) := []

/-- The machine of a TCP group, which remembers what libuv reads. -/
def watchedMachine (uvStrerror : ℤ → ByteString) : Machine WatchedTcp Tcp.Event where
  step w event := ((observedMachine uvStrerror).step w.toObservedTcp event).map fun o =>
    { o with reads := w.reads ++ readBy w.accepted event }

namespace Tcp

/-- The packets with data. -/
def dataPushes (pushes : List Push) : List Push :=
  pushes.filter fun push => push.channel = "Data Received"

theorem dataPushes_append (pushes pushes' : List Push) :
    dataPushes (pushes ++ pushes') = dataPushes pushes ++ dataPushes pushes' :=
  List.filter_append ..

theorem dataPushes_eq_nil {pushes : List Push}
    (h : ∀ push ∈ pushes, push.channel ≠ "Data Received") : dataPushes pushes = [] :=
  List.filter_eq_nil_iff.2 fun push hpush => by simpa using h push hpush

/-! ### The last connection on a handle -/

section

variable {accepted : List Accepted} {a : Accepted} {handle : ℕ}

theorem lastOn_mem (h : lastOn accepted handle = some a) :
    a ∈ accepted ∧ a.connection.uvSocket = some handle := by
  have hmem := List.mem_filter.1 (List.mem_of_getLast? h)
  exact ⟨hmem.1, of_decide_eq_true hmem.2⟩

theorem lastOn_concat_self (h : a.connection.uvSocket = some handle) :
    lastOn (accepted ++ [a]) handle = some a := by
  have hfilter : [a].filter (fun a => a.connection.uvSocket = some handle) = [a] :=
    List.filter_cons_of_pos (by simpa using h)
  rw [lastOn, List.filter_append, hfilter, List.getLast?_concat]

theorem lastOn_concat_of_ne (h : a.connection.uvSocket ≠ some handle) :
    lastOn (accepted ++ [a]) handle = lastOn accepted handle := by
  have hfilter : [a].filter (fun a => a.connection.uvSocket = some handle) = [] :=
    List.filter_cons_of_neg (by simpa using h)
  rw [lastOn, List.filter_append, hfilter, List.append_nil, lastOn]

end

/-! ### The table knows the last connections -/

/-- The socket of an entry stands for the connection of the entry. -/
def Recent (accepted : List Accepted) (connections : UnorderedMap ByteString UvTcpConnection) :
    Prop :=
  connections.All fun _ connection => ∀ handle, connection.uvSocket = some handle →
    ∃ a, lastOn accepted handle = some a ∧
      setConnectionParameters a.connection [] = setConnectionParameters connection []

section

variable {accepted : List Accepted} {connections : UnorderedMap ByteString UvTcpConnection}
  {connectionId : ByteString} {connection : UvTcpConnection} {handle : ℕ}

/-- A new connection, on a handle that no entry has. -/
theorem Recent.add (h : Recent accepted connections) {a : Accepted}
    (hsocket : a.connection.uvSocket = some handle)
    (hunused : connections.All fun _ connection => connection.uvSocket ≠ some handle) :
    Recent (accepted ++ [a]) (connections.put connectionId a.connection) := by
  refine UnorderedMap.All.put (fun id connection hfound other hother => ?_) ?_
  · have hne : a.connection.uvSocket ≠ some other := by
      rw [hsocket]
      rintro heq
      exact hunused id connection hfound (hother.trans heq.symm)
    rw [lastOn_concat_of_ne hne]
    exact h id connection hfound other hother
  · exact fun other hother => ⟨a, lastOn_concat_self hother, rfl⟩

/-- **The socket of an entry** is that of the connection with its id. -/
theorem Recent.socketAt (h : Recent accepted connections) (hown : connections.All OwnId)
    (hsocket : Tcp.socketAt connections connectionId = some handle) :
    ∃ a, lastOn accepted handle = some a ∧ a.connection.connectionId = connectionId := by
  obtain ⟨connection, hfound, hconnection⟩ := socketAt_eq_some.1 hsocket
  obtain ⟨a, ha, hparameters⟩ := h connectionId connection hfound handle hconnection
  have hid : a.connection.connectionId = connection.connectionId := by
    have hlookup := congrArg (List.lookup kParameter_TcpConnectionId) hparameters
    rw [lookup_connectionId, lookup_connectionId] at hlookup
    exact Json.string.inj (Option.some.inj hlookup)
  exact ⟨a, ha, hid.trans (hown connectionId connection hfound (by simp [hconnection]))⟩

end

section

variable {uvStrerror : ℤ → ByteString} {T T' : Tcp} {o o' : ObservedTcp}

/-- No entry has the socket of an unused address. -/
theorem Unused.all {client : ℕ} (h : T.Unused client) :
    T.mConnections.All fun _ connection => connection.uvSocket ≠ some client :=
  fun connectionId _ hfound => h.2 ⟨connectionId, _⟩ (List.of_mem_dlookup hfound)

/-- A change that accepts no connection. -/
theorem Recent.change {accepted : List Accepted} (h : Recent accepted T.mConnections)
    {event : Event} (hc : Change T event T')
    (hnot : ∀ incoming, event = .newConnection incoming → ¬ Opens incoming) :
    Recent accepted T'.mConnections := by
  cases hc with
  | same same =>
    rw [same.tables]
    exact h
  | added opens added => exact absurd opens (hnot _ rfl)
  | @closed _ connectionId connection _ reason found socket cause =>
    exact UnorderedMap.All.put h (h connectionId connection found)
  | failed starting => exact h
  | removed idle phase found socket drawn tables handles starting =>
    rw [tables]
    exact h.erase
  | inserted names missing drawn tables handles starting =>
    rw [tables]
    exact h.touch fun _ handle hhandle => by cases hhandle

/-- **One step** keeps that the table knows the last connections. -/
theorem Recent.step (h : Recent o.accepted o.mConnections)
    (hlinked : Linked o.toUvTcpImpl o.handles) {event : Event}
    (hs : (observedMachine uvStrerror).step o event = some o') :
    Recent o'.accepted o'.mConnections := by
  by_cases hopens : ∃ incoming, event = .newConnection incoming ∧ Opens incoming
  · obtain ⟨incoming, rfl, hopens⟩ := hopens
    obtain ⟨hadded, haccepted⟩ := added_of_step hopens hs
    rw [haccepted, hadded.tables]
    exact h.add (a := ⟨o.newConnection incoming, o.drawn⟩) rfl hadded.unused.all
  · have hnot : ∀ incoming, event = .newConnection incoming → ¬ Opens incoming :=
      fun incoming hevent hincoming => hopens ⟨incoming, hevent, hincoming⟩
    obtain ⟨T, hT, rfl⟩ := Option.map_eq_some_iff.1 hs
    have haccepted : o.toTcp.acceptedBy event = [] := by
      cases event with
      | newConnection incoming => exact if_neg (hnot incoming rfl)
      | _ => rfl
    rw [haccepted, List.append_nil]
    exact h.change (step_cases hlinked hT) hnot

/-! ### The packets with data -/

theorem dataPushes_uvErrorPush (message : String) (status : ℤ) (connectionId : ByteString) :
    dataPushes [uvErrorPush uvStrerror message status connectionId] = [] :=
  dataPushes_eq_nil (by simp [uvErrorPush])

theorem dataPushes_lookupErrors (addressLookup : AddressLookup) :
    dataPushes (lookupErrors uvStrerror addressLookup) = [] :=
  dataPushes_eq_nil fun push hpush => by
    rw [channel_lookupErrors hpush]
    decide

theorem dataPushes_onNewIncomingConnection (incoming : IncomingConnection) :
    dataPushes (T.onNewIncomingConnection uvStrerror incoming).pushes = dataPushes T.pushes := by
  have hnew : ∀ connection,
      dataPushes [connectionPush "New Incoming Connection" connection []] = [] :=
    fun connection => dataPushes_eq_nil (by simp [connectionPush])
  unfold onNewIncomingConnection
  split_ifs with hstatus haccept hremote hlocal hread
  · rw [push, dataPushes_append, dataPushes_uvErrorPush, List.append_nil]
  · rw [push, dataPushes_append, dataPushes_uvErrorPush, List.append_nil]
  · rw [push, dataPushes_append, dataPushes_lookupErrors, List.append_nil]
  · simp only [push, dataPushes_append, dataPushes_lookupErrors, List.append_nil]
  · simp only [push, setHandle, addConnection, dataPushes_append, dataPushes_lookupErrors,
      dataPushes_uvErrorPush, List.append_nil]
  · simp only [push, setHandle, addConnection, dataPushes_append, dataPushes_lookupErrors, hnew,
      List.append_nil]

theorem pushes_sendData {packet : Packet} (hs : T.after (T.sendData packet) = some T') :
    T'.pushes = T.pushes := by
  cases hid : connectionIdOf packet with
  | error fault =>
    simp only [sendData, hid, bind, Except.bind] at hs
    cases fault <;> cases hs
    rfl
  | ok connectionId => exact (sendData_ok hid hs).2.2.2.2

theorem pushes_disconnect {packet : Packet} (hs : T.after (T.disconnect packet) = some T') :
    T'.pushes = T.pushes := by
  rcases disconnect_ok hs with rfl | ⟨connectionId, connection, handle, -, -, -, rfl⟩ <;> rfl

theorem dataPushes_onConnectionRemoved (hlinked : Linked T.toUvTcpImpl T.handles) {handle : ℕ}
    (hphase : (T.handles handle).phase = .closing)
    (hs : T.after (T.onConnectionRemoved handle) = some T') :
    dataPushes T'.pushes = dataPushes T.pushes := by
  obtain ⟨connectionId, connection, hpointer, hfound, -, hid⟩ :=
    hlinked.exists_entry (by simp [hphase] : (T.handles handle).phase ≠ .unknown)
  rw [onConnectionRemoved_eq hpointer hfound hid] at hs
  obtain rfl := Option.some.inj hs
  have hclosed : dataPushes [closedPush connection] = [] :=
    dataPushes_eq_nil (by simp [closedPush])
  rw [push, dataPushes_append, hclosed, List.append_nil]

/-- What is pushed for what has been read. -/
def readPush (read : Option Accepted × Buffer) : Option Push :=
  read.1.map fun a => connectionPush "Data Received" a.connection [read.2]

/-- **What libuv reads** is pushed for the connection it is read from. -/
theorem dataPushes_dataReceived {accepted : List Accepted}
    (hrecent : Recent accepted T.mConnections) (hlinked : Linked T.toUvTcpImpl T.handles)
    {stream : ℕ} {nread : ℤ} {base : List UInt8} (hreading : (T.handles stream).phase = .reading)
    (hs : T.after (T.dataReceived uvStrerror stream nread base) = some T') :
    (dataPushes T'.pushes).map some = (dataPushes T.pushes).map some ++
      (readBy accepted (.read stream nread base)).map readPush := by
  obtain ⟨connectionId, connection, hpointer, hfound, hsocket, -⟩ :=
    hlinked.exists_entry (by simp [hreading] : (T.handles stream).phase ≠ .unknown)
  obtain ⟨a, ha, hparameters⟩ := hrecent connectionId connection hfound stream hsocket
  rw [dataReceived_eq hpointer hfound hsocket] at hs
  obtain rfl := Option.some.inj hs
  split_ifs with heof herror hzero
  · rw [readBy, if_neg (by rw [heof]; decide), List.map_nil, List.append_nil]
    rfl
  · rw [readBy, if_neg (by omega), List.map_nil, push, dataPushes_append, dataPushes_uvErrorPush,
      List.append_nil, List.append_nil]
  · rw [readBy, if_neg (by omega), List.map_nil, List.append_nil]
  · have hdata : ∀ buffers, dataPushes [connectionPush "Data Received" connection buffers] =
        [connectionPush "Data Received" a.connection buffers] := fun buffers => by
      rw [connectionPush, connectionPush, hparameters]
      rfl
    rw [readBy, if_pos (by omega), push, dataPushes_append, hdata, List.map_append, ha]
    rfl

/-! ### Runs -/

/-- What holds in every state of a run: the table knows the last connections, and the packets with
data are what has been read. -/
structure Carries (w : WatchedTcp) : Prop where
  recent : Recent w.accepted w.mConnections
  data : (dataPushes w.pushes).map some = w.reads.map readPush
  known : ∀ read ∈ w.reads, ∀ a ∈ read.1, a ∈ w.accepted

variable {w w' : WatchedTcp}

/-- A step in which libuv reads nothing. -/
theorem readBy_of_not_read {accepted : List Accepted} {event : Event}
    (h : ∀ stream nread base, event ≠ .read stream nread base) : readBy accepted event = [] := by
  cases event with
  | read stream nread base => exact absurd rfl (h stream nread base)
  | _ => rfl

/-- **One step.**  What is pushed with data is what libuv has read in it. -/
theorem dataPushes_step {accepted : List Accepted} (hrecent : Recent accepted T.mConnections)
    (hlinked : Linked T.toUvTcpImpl T.handles) {event : Event}
    (hs : (tcpMachine uvStrerror).step T event = some T') :
    (dataPushes T'.pushes).map some =
      (dataPushes T.pushes).map some ++ (readBy accepted event).map readPush := by
  by_cases hread : ∃ stream nread base, event = .read stream nread base
  · obtain ⟨stream, nread, base, rfl⟩ := hread
    simp only [tcpMachine] at hs
    split at hs
    · rename_i hready
      exact dataPushes_dataReceived hrecent hlinked hready.2 hs
    · cases hs
  -- nothing else pushes data
  · have hnil : readBy accepted event = [] := readBy_of_not_read fun stream nread base heq =>
      hread ⟨stream, nread, base, heq⟩
    suffices hsame : dataPushes T'.pushes = dataPushes T.pushes by
      rw [hsame, hnil, List.map_nil, List.append_nil]
    cases event with
    | newConnection incoming =>
      simp only [tcpMachine] at hs
      split at hs
      · obtain rfl := Option.some.inj hs
        exact dataPushes_onNewIncomingConnection incoming
      · cases hs
    | errorPushed =>
      obtain ⟨handle, -, rfl⟩ := Option.map_eq_some_iff.1 hs
      rfl
    | read stream nread base => exact absurd ⟨stream, nread, base, rfl⟩ hread
    | send packet => rw [pushes_sendData hs]
    | disconnect packet => rw [pushes_disconnect hs]
    | closed handle =>
      simp only [tcpMachine] at hs
      split at hs
      · rename_i hready
        obtain ⟨U, hU, rfl⟩ := Option.map_eq_some_iff.1 hs
        have hsame := dataPushes_onConnectionRemoved hlinked hready.2 hU
        exact hsame
      · cases hs
    | indexDrawn =>
      obtain rfl := Option.some.inj hs
      rfl

theorem carries_empty : Carries {} := ⟨UnorderedMap.all_empty, rfl, by simp⟩

theorem mem_of_mem_readBy {accepted : List Accepted} {event : Event}
    {read : Option Accepted × Buffer} (h : read ∈ readBy accepted event) :
    ∀ a ∈ read.1, a ∈ accepted := by
  cases event with
  | read stream nread base =>
    rw [readBy] at h
    split at h
    · rw [List.mem_singleton.1 h]
      exact fun a ha => (lastOn_mem ha).1
    · cases h
  | _ => cases h

theorem Carries.step (h : Carries w) (hconsistent : Consistent w.toTcp) {event : Event}
    (hs : (watchedMachine uvStrerror).step w event = some w') : Carries w' := by
  obtain ⟨o, ho, rfl⟩ := Option.map_eq_some_iff.1 hs
  obtain ⟨T, hT, rfl⟩ := Option.map_eq_some_iff.1 ho
  refine ⟨h.recent.step hconsistent.linked ho, ?_, fun read hread a ha => ?_⟩
  · rw [List.map_append, ← h.data]
    exact dataPushes_step h.recent hconsistent.linked hT
  · refine List.mem_append_left _ ?_
    rcases List.mem_append.1 hread with hold | hnew
    · exact h.known read hold a ha
    · exact mem_of_mem_readBy hnew a ha

/-- A run in which each new connection has an id of its own. -/
theorem carries_of_reachable {ok : WatchedTcp → Event → Prop}
    (hok : ∀ w event, ok w event → NewIds w.toTcp event)
    (h : (watchedMachine uvStrerror).Reachable ok {} w) : Consistent w.toTcp ∧ Carries w := by
  refine h.invariant (I := fun w => Consistent w.toTcp ∧ Carries w)
    ⟨consistent_empty, carries_empty⟩ ?_
  rintro w event w' ⟨hconsistent, hcarries⟩ hevent hs
  refine ⟨?_, hcarries.step hconsistent hs⟩
  obtain ⟨o, ho, rfl⟩ := Option.map_eq_some_iff.1 hs
  obtain ⟨T, hT, rfl⟩ := Option.map_eq_some_iff.1 ho
  exact hconsistent.change (hok w event hevent) (step_cases hconsistent.linked hT)

/-! ### Packets for a connection -/

/-- The Sender writes the first buffer, to the socket of the entry. -/
theorem writes_sendData {packet : Packet} {connectionId : ByteString}
    (hid : connectionIdOf packet = .ok connectionId)
    (hs : T.after (T.sendData packet) = some T') :
    ∃ buffer, packet.buffers.head? = some buffer ∧
      T'.writes = T.writes ++ [(socketAt T.mConnections connectionId, buffer)] := by
  simp only [sendData, hid, bind, Except.bind] at hs
  split at hs
  · cases hs
  · rename_i buffer buffers hbuffers
    obtain rfl := Option.some.inj hs
    refine ⟨buffer, by rw [hbuffers]; rfl, ?_⟩
    rw [socketAt]
    cases T.mConnections.lookup connectionId <;> rfl

/-- The Disconnector closes no handle but that of the entry. -/
theorem handles_disconnect {packet : Packet} {connectionId : ByteString}
    (hid : connectionIdOf packet = .ok connectionId)
    (hs : T.after (T.disconnect packet) = some T') {handle : ℕ}
    (hchanged : T'.handles handle ≠ T.handles handle) :
    socketAt T.mConnections connectionId = some handle := by
  rcases disconnect_ok hs with rfl | ⟨other, connection, socket, hother, hfound, hsocket, rfl⟩
  · exact absurd rfl hchanged
  · obtain rfl := Except.ok.inj (hid.symm.trans hother)
    rw [socketAt_of_lookup hfound, hsocket]
    by_contra hne
    refine hchanged ?_
    rw [closing_handles, Function.update_of_ne fun heq => hne (by rw [heq])]

end

/-- **Bytes stay with their connection.**  In every state that is reached while each new connection
has an id of its own, what has been pushed with data is what libuv has read, in order: each buffer
for the connection that it has been read from, though libuv uses the address of a handle again.  A
packet for an id that is sent then is written to the connection that was accepted with this id and
to no other, and a packet that disconnects an id closes no other. -/
theorem bytes_stay (uvStrerror : ℤ → ByteString) {w : WatchedTcp}
    (h : (watchedMachine uvStrerror).Reachable (fun w event => NewIds w.toTcp event) {} w) :
    (w.pushes.filter fun push => push.channel = "Data Received").map some =
      w.reads.map (fun read => read.1.map fun a =>
        connectionPush "Data Received" a.connection [read.2]) ∧
    (∀ packet connectionId T', connectionIdOf packet = .ok connectionId →
      (tcpMachine uvStrerror).step w.toTcp (.send packet) = some T' →
      ∃ buffer socket, packet.buffers.head? = some buffer ∧
        T'.writes = w.writes ++ [(socket, buffer)] ∧ ∀ handle, socket = some handle →
          ∃ a, lastOn w.accepted handle = some a ∧ a.connection.connectionId = connectionId) ∧
    ∀ packet connectionId T', connectionIdOf packet = .ok connectionId →
      (tcpMachine uvStrerror).step w.toTcp (.disconnect packet) = some T' →
      ∀ handle, T'.handles handle ≠ w.handles handle →
        ∃ a, lastOn w.accepted handle = some a ∧ a.connection.connectionId = connectionId := by
  obtain ⟨hconsistent, hcarries⟩ := carries_of_reachable (fun _ _ hok => hok) h
  have hown := hconsistent.linked.own
  refine ⟨hcarries.data, ?_, ?_⟩
  · intro packet connectionId T' hid hs
    obtain ⟨buffer, hbuffer, hwrites⟩ := writes_sendData hid hs
    exact ⟨buffer, _, hbuffer, hwrites, fun handle hsocket => hcarries.recent.socketAt hown hsocket⟩
  · intro packet connectionId T' hid hs handle hchanged
    exact hcarries.recent.socketAt hown (handles_disconnect hid hs hchanged)

/-- A connection ends, and another one gets its handle. -/
def reusedEvents : List Event :=
  [.newConnection (loopback 1 5000 0), .read 1 1 (bytes "x"), .read 1 uvEof [], .closed 1,
    .newConnection (loopback 1 5001 0), .read 1 2 (bytes "yz")]

theorem bytes_stay_reused :
    let w := ((watchedMachine fun _ => []).exec (fun w event => decide (NewIds w.toTcp event)) {}
      reusedEvents).getD {}
    (dataPushes w.pushes).map some = w.reads.map readPush ∧
      w.reads.map (fun read => read.1.map fun a => a.connection.remotePort) =
        [some 5000, some 5001] := by
  refine ⟨(bytes_stay (fun _ => []) ((Machine.reachable_exec (by decide +kernel)).mono
    fun _ _ hok => of_decide_eq_true hok)).1, ?_⟩
  decide +kernel

end Tcp

end Maplang
