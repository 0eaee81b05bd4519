import Maplang.Tcp.Basic
import Maplang.Text.Digits

/-!
# What a step does to the tables of a TCP group

The tables and the handles of libuv belong together in every state, whatever packets come, as long
as a new connection does not get the id of another one, which it only could after `2^64` ids.  An
entry without a socket does not count: the Sender inserts one for an id that it does not know.

## Main definitions

* `socketAt` : the sockets of the connections, by their ids.
* `Linked` : the tables and the handles belong together.
* `Change` : what a step can do to them.
* `NewIds` : the step condition for the ids of new connections.

## Main results

* `step_cases` : each step of the group is a `Change`.
* `Consistent.change`, `consistent_and_of_reachable` : the tables and the handles stay together,
  over a step and over a run.
* `newIds_of_drawn_lt` : ids are new until the index wraps around.
-/

namespace Maplang

namespace Tcp

/-- All calls that lead to a new connection succeed, up to the read start. -/
def Opens (incoming : IncomingConnection) : Prop :=
  0 ≤ incoming.status ∧ incoming.acceptStatus = 0 ∧ incoming.remote.status = 0 ∧
    incoming.localSide.status = 0

instance (incoming : IncomingConnection) : Decidable (Opens incoming) :=
  inferInstanceAs (Decidable (_ ∧ _))

/-- The socket of the connection with an id. -/
def socketAt (connections : UnorderedMap ByteString UvTcpConnection) (connectionId : ByteString) :
    Option ℕ :=
  (connections.lookup connectionId).bind UvTcpConnection.uvSocket

/-- The socket of the connection that a packet names. -/
def socketOf? (T : Tcp) (packet : Packet) : Option ℕ :=
  (connectionIdOf packet).toOption.bind (socketAt T.mConnections)

/-- The id of a new connection is not that of another one. -/
def NewIds (T : Tcp) : Event → Prop
  | .newConnection incoming =>
    Opens incoming → socketAt T.mConnections (T.nextConnectionId incoming) = none
  | _ => True

instance (T : Tcp) : DecidablePred T.NewIds
  | .newConnection _ => inferInstanceAs (Decidable (_ → _))
  | .errorPushed | .read _ _ _ | .send _ | .disconnect _ | .closed _ | .indexDrawn =>
    inferInstanceAs (Decidable True)

theorem connectionIdOf_eq_ok {packet : Packet} {connectionId : ByteString}
    (h : (connectionIdOf packet).toOption = some connectionId) :
    connectionIdOf packet = .ok connectionId := by
  cases hcode : connectionIdOf packet with
  | error fault => rw [hcode] at h; cases h
  | ok id => rw [hcode] at h; rw [Option.some.inj h]

/-! ### The sockets -/

section

variable {connections : UnorderedMap ByteString UvTcpConnection} {connectionId : ByteString}
  {connection : UvTcpConnection} {client : ℕ}

theorem socketAt_eq_some : socketAt connections connectionId = some client ↔
    ∃ connection, connections.lookup connectionId = some connection ∧
      connection.uvSocket = some client :=
  Option.bind_eq_some_iff

theorem socketAt_of_lookup (hfound : connections.lookup connectionId = some connection) :
    socketAt connections connectionId = connection.uvSocket := by
  rw [socketAt, hfound, Option.bind_some]

theorem socketAt_put : socketAt (connections.put connectionId connection) =
    Function.update (socketAt connections) connectionId connection.uvSocket := by
  funext other
  rw [socketAt, UnorderedMap.lookup_put, Function.update_apply]
  split <;> rfl

theorem socketAt_erase : socketAt (connections.erase connectionId) =
    Function.update (socketAt connections) connectionId none := by
  funext other
  rw [socketAt, UnorderedMap.lookup_erase, Function.update_apply]
  split <;> rfl

/-- An entry without a socket is not seen. -/
theorem socketAt_touch (hnone : connections.lookup connectionId = none) :
    socketAt (connections.touch connectionId {}) = socketAt connections := by
  funext other
  rw [socketAt, UnorderedMap.lookup_touch, hnone]
  split
  · rename_i heq
    rw [heq, socketAt, hnone]
    rfl
  · rfl

/-- A reason does not change the sockets. -/
theorem socketAt_put_closedReason (hfound : connections.lookup connectionId = some connection)
    (closedReason : ByteString) :
    socketAt (connections.put connectionId { connection with closedReason }) =
      socketAt connections := by
  rw [socketAt_put, ← socketAt_of_lookup hfound, Function.update_eq_self]

end

/-! ### The tables and the handles -/

/-- A connection with a socket has its own id. -/
def OwnId (connectionId : ByteString) (connection : UvTcpConnection) : Prop :=
  connection.uvSocket ≠ none → connection.connectionId = connectionId

/-- The tables and the handles of libuv belong together, but for entries without a socket. -/
structure Linked (tables : UvTcpImpl) (handles : ℕ → UvHandle) : Prop where
  own : tables.mConnections.All OwnId
  clients : ∀ client pointer, tables.mUvClientToConnection.lookup client = some pointer ↔
    ∃ connectionId, pointer = some connectionId ∧
      socketAt tables.mConnections connectionId = some client
  known : ∀ client, (tables.mUvClientToConnection.lookup client).isSome = true ↔
    (handles client).phase ≠ .unknown

section

variable {tables : UvTcpImpl} {handles : ℕ → UvHandle} {connectionId connectionId' : ByteString}
  {connection : UvTcpConnection} {client : ℕ}

theorem linked_empty : Linked {} fun _ => {} :=
  ⟨UnorderedMap.all_empty, by simp [socketAt], by simp⟩

/-- The entry that a known handle belongs to. -/
theorem Linked.exists_entry (h : Linked tables handles)
    (hknown : (handles client).phase ≠ .unknown) : ∃ connectionId connection,
      tables.mUvClientToConnection.lookup client = some (some connectionId) ∧
      tables.mConnections.lookup connectionId = some connection ∧
      connection.uvSocket = some client ∧ connection.connectionId = connectionId := by
  obtain ⟨pointer, hpointer⟩ := Option.isSome_iff_exists.1 ((h.known client).2 hknown)
  obtain ⟨connectionId, rfl, hsocketAt⟩ := (h.clients client pointer).1 hpointer
  obtain ⟨connection, hentry, hsocket⟩ := socketAt_eq_some.1 hsocketAt
  exact ⟨connectionId, connection, hpointer, hentry, hsocket,
    h.own connectionId connection hentry (by simp [hsocket])⟩

/-- The handle of an entry is known. -/
theorem Linked.known_of_socketAt (h : Linked tables handles)
    (hsocket : socketAt tables.mConnections connectionId = some client) :
    (handles client).phase ≠ .unknown :=
  (h.known client).1 (Option.isSome_of_eq_some ((h.clients client _).2 ⟨_, rfl, hsocket⟩))

/-- Entries with the same socket are the same entry. -/
theorem Linked.entry_unique (h : Linked tables handles)
    (hsocket : socketAt tables.mConnections connectionId = some client)
    (hsocket' : socketAt tables.mConnections connectionId' = some client) :
    connectionId' = connectionId := by
  have hpointer := (h.clients client _).2 ⟨_, rfl, hsocket⟩
  have hpointer' := (h.clients client _).2 ⟨_, rfl, hsocket'⟩
  exact Option.some.inj (Option.some.inj (hpointer'.symm.trans hpointer))

/-- Known handles may change. -/
theorem Linked.update (h : Linked tables handles) {uvHandle : UvHandle}
    (hknown : (handles client).phase ≠ .unknown) (hphase : uvHandle.phase ≠ .unknown) :
    Linked tables (Function.update handles client uvHandle) := by
  refine ⟨h.own, h.clients, fun other => ?_⟩
  rw [h.known other, Function.update_apply]
  split
  · rename_i heq
    subst heq
    exact iff_of_true hknown hphase
  · rfl

/-- The reason in an entry may change. -/
theorem Linked.put (h : Linked tables handles)
    (hentry : tables.mConnections.lookup connectionId = some connection)
    (closedReason : ByteString) :
    Linked { tables with mConnections :=
      tables.mConnections.put connectionId { connection with closedReason } } handles where
  own :=
    have hown : OwnId connectionId { connection with closedReason } :=
      h.own connectionId connection hentry
    h.own.put hown
  clients := by
    simp only [socketAt_put_closedReason hentry]
    exact h.clients
  known := h.known

/-- A new connection. -/
theorem Linked.add (h : Linked tables handles) {uvHandle : UvHandle}
    (hnew : socketAt tables.mConnections connectionId = none)
    (hunknown : (handles client).phase = .unknown) (hid : connection.connectionId = connectionId)
    (hsocket : connection.uvSocket = some client) (hphase : uvHandle.phase ≠ .unknown) :
    Linked ⟨tables.mConnections.put connectionId connection,
      tables.mUvClientToConnection.put client (some connectionId)⟩
      (Function.update handles client uvHandle) := by
  constructor
  case own => exact h.own.put fun _ => hid
  case clients =>
    intro client' pointer
    simp only [UnorderedMap.lookup_put, socketAt_put, hsocket]
    by_cases hclient : client' = client
    · subst hclient
      rw [if_pos rfl]
      constructor
      · intro hpointer
        exact ⟨connectionId, (Option.some.inj hpointer).symm, Function.update_self ..⟩
      · rintro ⟨other, rfl, hother⟩
        by_cases heq : other = connectionId
        · rw [heq]
        · rw [Function.update_of_ne heq] at hother
          exact absurd hunknown (h.known_of_socketAt hother)
    · rw [if_neg hclient, h.clients client' pointer]
      refine exists_congr fun other => and_congr_right fun _ => ?_
      by_cases heq : other = connectionId
      · -- the entry that is overwritten has no socket
        rw [heq, hnew, Function.update_self]
        exact iff_of_false nofun fun hsome => hclient (Option.some.inj hsome).symm
      · rw [Function.update_of_ne heq]
  case known =>
    intro client'
    rw [UnorderedMap.lookup_put, Function.update_apply]
    split
    · exact iff_of_true rfl hphase
    · exact h.known client'

/-- A connection is removed when libuv forgets its handle. -/
theorem Linked.erase (h : Linked tables handles) {uvHandle : UvHandle}
    (hsocket : socketAt tables.mConnections connectionId = some client)
    (hphase : uvHandle.phase = .unknown) :
    Linked ⟨tables.mConnections.erase connectionId, tables.mUvClientToConnection.erase client⟩
      (Function.update handles client uvHandle) := by
  constructor
  case own => exact h.own.erase
  case clients =>
    intro client' pointer
    simp only [UnorderedMap.lookup_erase, socketAt_erase]
    by_cases hclient : client' = client
    · subst hclient
      rw [if_pos rfl]
      refine iff_of_false nofun ?_
      rintro ⟨other, rfl, hother⟩
      by_cases heq : other = connectionId
      · rw [heq, Function.update_self] at hother
        cases hother
      · rw [Function.update_of_ne heq] at hother
        exact heq (h.entry_unique hsocket hother)
    · rw [if_neg hclient, h.clients client' pointer]
      refine exists_congr fun other => and_congr_right fun _ => ?_
      by_cases heq : other = connectionId
      · rw [heq, hsocket, Function.update_self]
        exact iff_of_false (fun hsome => hclient (Option.some.inj hsome).symm) nofun
      · rw [Function.update_of_ne heq]
  case known =>
    intro client'
    rw [UnorderedMap.lookup_erase, Function.update_apply]
    split
    · exact iff_of_false nofun fun hne => hne hphase
    · exact h.known client'

/-- An entry without a socket. -/
theorem Linked.touch (h : Linked tables handles)
    (hnone : tables.mConnections.lookup connectionId = none) :
    Linked { tables with mConnections := tables.mConnections.touch connectionId {} } handles where
  own := h.own.touch fun _ hsocket => absurd rfl hsocket
  clients := by
    simp only [socketAt_touch hnone]
    exact h.clients
  known := h.known

end

/-! ### What a step can do -/

/-- A packet that is pushed while the tables stay as they are: an error, or data that has come for
a connection. -/
def Reports (T : Tcp) (push : Push) : Prop :=
  push.channel = "error" ∨ ∃ connectionId connection buffers,
    T.mConnections.lookup connectionId = some connection ∧ connection.uvSocket ≠ none ∧
      push = connectionPush "Data Received" connection buffers

/-- The tables and the handles are as before. -/
structure Same (T T' : Tcp) : Prop where
  drawn : T.drawn ≤ T'.drawn
  tables : T'.toUvTcpImpl = T.toUvTcpImpl
  handles : T'.handles = T.handles
  starting : T'.starting = T.starting
  pushes : ∃ pushes, T'.pushes = T.pushes ++ pushes ∧ ∀ push ∈ pushes, T.Reports push

/-- An entry gets a reason, and its socket is closed. -/
def closing (T : Tcp) (connectionId : ByteString) (connection : UvTcpConnection)
    (closedReason : ByteString) (handle : ℕ) : Tcp :=
  uvClose { T with mConnections :=
    T.mConnections.put connectionId { connection with closedReason } } handle

theorem closing_tables (T : Tcp) (connectionId : ByteString) (connection : UvTcpConnection)
    (closedReason : ByteString) (handle : ℕ) :
    (T.closing connectionId connection closedReason handle).toUvTcpImpl =
      { T.toUvTcpImpl with mConnections :=
          T.mConnections.put connectionId { connection with closedReason } } := rfl

theorem closing_handles (T : Tcp) (connectionId : ByteString) (connection : UvTcpConnection)
    (closedReason : ByteString) (handle : ℕ) :
    (T.closing connectionId connection closedReason handle).handles =
      Function.update T.handles handle
        { phase := .closing, closeCalls := (T.handles handle).closeCalls + 1 } := rfl

/-- A new connection is in the tables, and libuv knows its handle. -/
structure Added (T : Tcp) (incoming : IncomingConnection) (T' : Tcp) : Prop where
  unused : T.Unused incoming.client
  drawn : T'.drawn = T.drawn + 1
  tables : T'.toUvTcpImpl = (T.addConnection incoming).toUvTcpImpl
  handles : T'.handles = Function.update T.handles incoming.client
    { phase := if incoming.readStartStatus ≠ 0 then .accepted else .reading }
  starting : T'.starting = if incoming.readStartStatus ≠ 0 then some incoming.client else none
  pushes : ∃ errors, T'.pushes = T.pushes ++ errors ++
      (if incoming.readStartStatus ≠ 0 then []
        else [connectionPush "New Incoming Connection" (T.newConnection incoming) []]) ∧
    ∀ push ∈ errors, push.channel = "error"

/-- What a step can do to the tables and the handles. -/
inductive Change (T : Tcp) : Event → Tcp → Prop
  | same {event : Event} {T' : Tcp} (same : Same T T') : Change T event T'
  | added {incoming : IncomingConnection} {T' : Tcp} (opens : Opens incoming)
      (added : Added T incoming T') : Change T (.newConnection incoming) T'
  | closed {event : Event} {connectionId : ByteString} {connection : UvTcpConnection} {handle : ℕ}
      (reason : ByteString) (found : T.mConnections.lookup connectionId = some connection)
      (socket : connection.uvSocket = some handle)
      (cause : (T.handles handle).phase = .reading ∨
        ∃ packet, event = .disconnect packet ∧ T.socketOf? packet = some handle) :
      Change T event (T.closing connectionId connection reason handle)
  | failed {handle : ℕ} (starting : T.starting = some handle) :
      Change T .errorPushed { T.uvClose handle with starting := none }
  | removed {handle : ℕ} {connectionId : ByteString} {connection : UvTcpConnection} {T' : Tcp}
      (idle : T.starting = none) (phase : (T.handles handle).phase = .closing)
      (found : T.mConnections.lookup connectionId = some connection)
      (socket : connection.uvSocket = some handle) (drawn : T'.drawn = T.drawn)
      (tables : T'.toUvTcpImpl =
        ⟨T.mConnections.erase connectionId, T.mUvClientToConnection.erase handle⟩)
      (handles : T'.handles =
        Function.update T.handles handle { T.handles handle with phase := .unknown })
      (starting : T'.starting = none)
      (pushes : T'.pushes = T.pushes ++ [closedPush connection]) : Change T (.closed handle) T'
  | inserted {packet : Packet} {connectionId : ByteString} {T' : Tcp}
      (names : connectionIdOf packet = .ok connectionId)
      (missing : T.mConnections.lookup connectionId = none) (drawn : T'.drawn = T.drawn)
      (tables : T'.toUvTcpImpl =
        { T.toUvTcpImpl with mConnections := T.mConnections.touch connectionId {} })
      (handles : T'.handles = T.handles) (starting : T'.starting = T.starting)
      (pushes : T'.pushes = T.pushes) : Change T (.send packet) T'

section

variable {uvStrerror : ℤ → ByteString} {T T' : Tcp}

/-- Nothing is pushed. -/
theorem pushes_nil : ∃ pushes, T.pushes = T.pushes ++ pushes ∧ ∀ push ∈ pushes, T.Reports push :=
  ⟨[], (List.append_nil _).symm, by simp⟩

/-- An error is pushed, or data for a connection. -/
theorem pushes_one {push : Push} (h : T.Reports push) :
    ∃ pushes, T.pushes ++ [push] = T.pushes ++ pushes ∧ ∀ push ∈ pushes, T.Reports push :=
  ⟨[push], rfl, by simpa using h⟩

theorem channel_lookupErrors {addressLookup : AddressLookup} {push : Push}
    (h : push ∈ lookupErrors uvStrerror addressLookup) : push.channel = "error" := by
  obtain ⟨error, -, rfl⟩ := Option.map_eq_some_iff.1 (Option.mem_toList.1 h)
  rfl

theorem onNewIncomingConnection_of_not {incoming : IncomingConnection} (h : ¬ Opens incoming) :
    Same T (T.onNewIncomingConnection uvStrerror incoming) := by
  unfold onNewIncomingConnection
  split_ifs with hstatus haccept hremote hlocal hread
  · exact ⟨le_rfl, rfl, rfl, rfl, pushes_one (.inl rfl)⟩
  · exact ⟨le_rfl, rfl, rfl, rfl, pushes_one (.inl rfl)⟩
  · exact ⟨le_rfl, rfl, rfl, rfl, _, rfl, fun _ hpush => .inl (channel_lookupErrors hpush)⟩
  · refine ⟨le_rfl, rfl, rfl, rfl, _, rfl, fun _ hpush => ?_⟩
    rcases List.mem_append.1 hpush with hpush | hpush
    · exact .inl (channel_lookupErrors hpush)
    · exact .inl (channel_lookupErrors hpush)
  · exact absurd ⟨not_lt.1 hstatus, not_not.1 haccept, not_not.1 hremote, not_not.1 hlocal⟩ h
  · exact absurd ⟨not_lt.1 hstatus, not_not.1 haccept, not_not.1 hremote, not_not.1 hlocal⟩ h

theorem onNewIncomingConnection_of_opens {incoming : IncomingConnection} (h : Opens incoming)
    (hidle : T.starting = none) (hunused : T.Unused incoming.client) :
    Added T incoming (T.onNewIncomingConnection uvStrerror incoming) := by
  obtain ⟨hstatus, haccept, hremote, hlocal⟩ := id h
  unfold onNewIncomingConnection
  rw [if_neg (not_lt.2 hstatus), if_neg (not_not.2 haccept), if_neg (not_not.2 hremote),
    if_neg (not_not.2 hlocal)]
  let errors :=
    lookupErrors uvStrerror incoming.remote ++ lookupErrors uvStrerror incoming.localSide
  have herrors : ∀ push ∈ errors, push.channel = "error" := fun push hpush => by
    rcases List.mem_append.1 hpush with hpush | hpush
    · exact channel_lookupErrors hpush
    · exact channel_lookupErrors hpush
  by_cases hread : incoming.readStartStatus ≠ 0
  · simp only [if_pos hread]
    let failed := uvErrorPush uvStrerror "Failed to start reading from incoming connection."
      incoming.readStartStatus (T.newConnection incoming).connectionId
    refine ⟨hunused, rfl, rfl, by rw [if_pos hread]; rfl, (if_pos hread).symm,
      errors ++ [failed], ?_, fun push hpush => ?_⟩
    · rw [if_pos hread, List.append_nil, ← List.append_assoc]
      rfl
    · rcases List.mem_append.1 hpush with hpush | hpush
      · exact herrors push hpush
      · rw [List.mem_singleton.1 hpush]
        rfl
  · simp only [if_neg hread]
    refine ⟨hunused, rfl, rfl, by rw [if_neg hread]; rfl, hidle.trans (if_neg hread).symm,
      errors, ?_, herrors⟩
    rw [if_neg hread]
    rfl

theorem closeConnection_eq {connectionId : ByteString} {connection : UvTcpConnection} {handle : ℕ}
    (reason : String) (hsocket : connection.uvSocket = some handle) :
    T.closeConnection connectionId connection reason =
      .ok (T.closing connectionId connection (bytes reason) handle) := by
  unfold closeConnection
  split
  · rename_i hnone
    cases hsocket.symm.trans hnone
  · rename_i handle' hsome
    obtain rfl := Option.some.inj (hsome.symm.trans hsocket)
    rfl

/-- **What libuv reads** from a handle that it knows: the lookup of the handle inserts nothing. -/
theorem dataReceived_eq {stream : ℕ} {connectionId : ByteString} {connection : UvTcpConnection}
    (hpointer : T.mUvClientToConnection.lookup stream = some (some connectionId))
    (hfound : T.mConnections.lookup connectionId = some connection)
    (hsocket : connection.uvSocket = some stream) (nread : ℤ) (base : List UInt8) :
    T.dataReceived uvStrerror stream nread base = .ok
      (if nread = uvEof then T.closing connectionId connection (bytes "End of stream") stream
      else if nread < 0 then
        T.push [uvErrorPush uvStrerror "TCP receive error." nread connection.connectionId]
      else if nread = 0 then T
      else T.push [connectionPush "Data Received" connection
        [{ data := some base, length := nread.toNat }]]) := by
  have htouch : T.mUvClientToConnection.touch stream none = T.mUvClientToConnection :=
    UnorderedMap.touch_of_some none hpointer
  have hentry : T.entry (some connectionId) = .ok (connectionId, connection) := by
    rw [entry, hfound]
  rw [dataReceived, htouch, hpointer, Option.getD_some, hentry]
  simp only [bind, Except.bind, closeConnection_eq _ hsocket]
  split_ifs <;> rfl

theorem dataReceived_cases (h : Linked T.toUvTcpImpl T.handles) {stream : ℕ} {nread : ℤ}
    {base : List UInt8} (hreading : (T.handles stream).phase = .reading)
    (hs : T.after (T.dataReceived uvStrerror stream nread base) = some T') :
    Change T (.read stream nread base) T' := by
  have hknown : (T.handles stream).phase ≠ .unknown := by simp [hreading]
  obtain ⟨connectionId, connection, hpointer, hfound, hsocket, -⟩ := h.exists_entry hknown
  rw [dataReceived_eq hpointer hfound hsocket] at hs
  obtain rfl := Option.some.inj hs
  split_ifs with heof herror hzero
  · exact .closed _ hfound hsocket (.inl hreading)
  · exact .same ⟨le_rfl, rfl, rfl, rfl, pushes_one (.inl rfl)⟩
  · exact .same ⟨le_rfl, rfl, rfl, rfl, pushes_nil⟩
  · refine .same ⟨le_rfl, rfl, rfl, rfl, pushes_one (.inr ?_)⟩
    exact ⟨connectionId, connection, _, hfound, by simp [hsocket], rfl⟩

/-- The Sender looks the id up, and inserts an entry if there is none. -/
theorem sendData_ok {packet : Packet} {connectionId : ByteString}
    (hid : connectionIdOf packet = .ok connectionId)
    (hs : T.after (T.sendData packet) = some T') :
    T'.drawn = T.drawn ∧ T'.toUvTcpImpl =
        { T.toUvTcpImpl with mConnections := T.mConnections.touch connectionId {} } ∧
      T'.handles = T.handles ∧ T'.starting = T.starting ∧ T'.pushes = T.pushes := by
  simp only [sendData, hid, bind, Except.bind] at hs
  split at hs
  · cases hs
  · obtain rfl := Option.some.inj hs
    exact ⟨rfl, rfl, rfl, rfl, rfl⟩

theorem sendData_cases {packet : Packet} (hs : T.after (T.sendData packet) = some T') :
    Change T (.send packet) T' := by
  cases hid : connectionIdOf packet with
  | error fault =>
    simp only [sendData, hid, bind, Except.bind] at hs
    cases fault <;> cases hs
    exact .same ⟨le_rfl, rfl, rfl, rfl, pushes_nil⟩
  | ok connectionId =>
    obtain ⟨hdrawn, htables, hhandles, hstarting, hpushes⟩ := sendData_ok hid hs
    cases hfound : T.mConnections.lookup connectionId with
    | none => exact .inserted hid hfound hdrawn htables hhandles hstarting hpushes
    | some connection =>
      rw [UnorderedMap.touch_of_some {} hfound] at htables
      exact .same ⟨hdrawn.ge, htables, hhandles, hstarting, by rw [hpushes]; exact pushes_nil⟩

/-- The Disconnector closes the socket of an entry, or nothing happens. -/
theorem disconnect_ok {packet : Packet} (hs : T.after (T.disconnect packet) = some T') :
    T' = T ∨ ∃ connectionId connection handle, connectionIdOf packet = .ok connectionId ∧
      T.mConnections.lookup connectionId = some connection ∧ connection.uvSocket = some handle ∧
      T' = T.closing connectionId connection (bytes "Local side requested disconnect.") handle := by
  cases hid : connectionIdOf packet with
  | error fault =>
    simp only [disconnect, hid, bind, Except.bind] at hs
    cases fault <;> cases hs
    exact .inl rfl
  | ok connectionId =>
    simp only [disconnect, hid, bind, Except.bind] at hs
    cases hfound : T.mConnections.lookup connectionId with
    | none =>
      rw [hfound] at hs
      exact .inl (Option.some.inj hs).symm
    | some connection =>
      simp only [hfound] at hs
      cases hsocket : connection.uvSocket with
      | none =>
        simp only [closeConnection, hsocket] at hs
        cases hs
      | some handle =>
        rw [closeConnection_eq _ hsocket] at hs
        exact .inr ⟨connectionId, connection, handle, rfl, hfound, hsocket,
          (Option.some.inj hs).symm⟩

theorem disconnect_cases {packet : Packet} (hs : T.after (T.disconnect packet) = some T') :
    Change T (.disconnect packet) T' := by
  rcases disconnect_ok hs with rfl | ⟨connectionId, connection, handle, hid, hfound, hsocket, rfl⟩
  · exact .same ⟨le_rfl, rfl, rfl, rfl, pushes_nil⟩
  · refine .closed _ hfound hsocket (.inr ⟨packet, rfl, ?_⟩)
    rw [socketOf?, hid, Except.toOption, Option.bind_some, socketAt_of_lookup hfound, hsocket]

/-- The entry of a closed handle is removed, and the packet that says so is pushed. -/
theorem onConnectionRemoved_eq {handle : ℕ} {connectionId : ByteString}
    {connection : UvTcpConnection}
    (hpointer : T.mUvClientToConnection.lookup handle = some (some connectionId))
    (hfound : T.mConnections.lookup connectionId = some connection)
    (hid : connection.connectionId = connectionId) :
    T.onConnectionRemoved handle = .ok (push { T with
      mUvClientToConnection := T.mUvClientToConnection.erase handle
      mConnections := T.mConnections.erase connectionId } [closedPush connection]) := by
  subst hid
  have hentry : T.entry (some connection.connectionId) =
      .ok (connection.connectionId, connection) := by
    rw [entry, hfound]
  simp only [onConnectionRemoved, hpointer, hentry, bind, Except.bind, hfound, Option.getD_some]
  rfl

theorem onConnectionRemoved_cases (h : Linked T.toUvTcpImpl T.handles) {handle : ℕ}
    (hidle : T.starting = none) (hphase : (T.handles handle).phase = .closing)
    (hs : (T.after (T.onConnectionRemoved handle)).map (fun T =>
      T.setHandle handle { T.handles handle with phase := .unknown }) = some T') :
    Change T (.closed handle) T' := by
  have hknown : (T.handles handle).phase ≠ .unknown := by simp [hphase]
  obtain ⟨connectionId, connection, hpointer, hfound, hsocket, hid⟩ := h.exists_entry hknown
  rw [onConnectionRemoved_eq hpointer hfound hid] at hs
  obtain rfl := Option.some.inj hs
  exact .removed hidle hphase hfound hsocket rfl rfl rfl hidle rfl

/-- **What a step can do to the tables and the handles.** -/
theorem step_cases (h : Linked T.toUvTcpImpl T.handles) {event : Event}
    (hs : (tcpMachine uvStrerror).step T event = some T') : Change T event T' := by
  cases event with
  | newConnection incoming =>
    simp only [tcpMachine] at hs
    split at hs
    · rename_i hready
      obtain rfl := Option.some.inj hs
      by_cases hopens : Opens incoming
      · exact .added hopens (onNewIncomingConnection_of_opens hopens hready.1 hready.2)
      · exact .same (onNewIncomingConnection_of_not hopens)
    · cases hs
  | errorPushed =>
    obtain ⟨handle, hstarting, rfl⟩ := Option.map_eq_some_iff.1 hs
    exact .failed hstarting
  | read stream nread base =>
    simp only [tcpMachine] at hs
    split at hs
    · rename_i hready
      exact dataReceived_cases h hready.2 hs
    · cases hs
  | send packet => exact sendData_cases hs
  | disconnect packet => exact disconnect_cases hs
  | closed handle =>
    simp only [tcpMachine] at hs
    split at hs
    · rename_i hready
      exact onConnectionRemoved_cases h hready.1 hready.2 hs
    · cases hs
  | indexDrawn =>
    obtain rfl := Option.some.inj hs
    exact .same ⟨Nat.le_succ _, rfl, rfl, rfl, pushes_nil⟩

/-! ### The tables stay together -/

/-- The tables and the handles belong together, and so does the connection that is closed next. -/
structure Consistent (T : Tcp) : Prop where
  linked : Linked T.toUvTcpImpl T.handles
  starting : ∀ handle ∈ T.starting, (T.handles handle).phase ≠ .unknown

theorem consistent_empty : Consistent {} := ⟨linked_empty, by simp⟩

/-- **One step**, if a new connection gets a new id. -/
theorem Consistent.change (h : Consistent T) {event : Event} (hnew : NewIds T event)
    (hc : Change T event T') : Consistent T' := by
  cases hc with
  | same same =>
    constructor
    · rw [same.tables, same.handles]
      exact h.linked
    · rw [same.starting, same.handles]
      exact h.starting
  | added opens added =>
    constructor
    · rw [added.tables, added.handles]
      exact h.linked.add (hnew opens) added.unused.1 rfl rfl (by split <;> simp)
    · rw [added.starting, added.handles]
      intro handle hhandle
      split at hhandle
      · obtain rfl := Option.some.inj hhandle
        rw [Function.update_self]
        split <;> simp
      · cases hhandle
  | closed reason found socket cause =>
    constructor
    · rw [closing_tables, closing_handles]
      have hknown := h.linked.known_of_socketAt (socketAt_eq_some.2 ⟨_, found, socket⟩)
      exact (h.linked.put found reason).update hknown (by simp)
    · intro other hother
      rw [closing_handles, Function.update_apply]
      split
      · simp
      · exact h.starting other hother
  | failed starting =>
    refine ⟨h.linked.update (h.starting _ starting) (by simp), fun _ hother => ?_⟩
    cases hother
  | removed idle phase found socket drawn tables handles starting =>
    constructor
    · rw [tables, handles]
      exact h.linked.erase (socketAt_eq_some.2 ⟨_, found, socket⟩) rfl
    · rw [starting]
      intro _ hother
      cases hother
  | inserted names missing drawn tables handles starting =>
    constructor
    · rw [tables, handles]
      exact h.linked.touch missing
    · rw [starting, handles]
      exact h.starting

/-- **Any number of steps**, and what else each change keeps. -/
theorem consistent_and_of_reachable {ok : Tcp → Event → Prop} {I : Tcp → Prop}
    (hok : ∀ T event, ok T event → NewIds T event) (hempty : I {})
    (hchange : ∀ T event T', Consistent T → I T → ok T event → Change T event T' → I T')
    (h : (tcpMachine uvStrerror).Reachable ok {} T) : Consistent T ∧ I T := by
  refine h.invariant (I := fun T => Consistent T ∧ I T) ⟨consistent_empty, hempty⟩ ?_
  rintro T event T' ⟨hconsistent, hT⟩ hevent hs
  have hc := step_cases hconsistent.linked hs
  exact ⟨hconsistent.change (hok T event hevent) hc, hchange T event T' hconsistent hT hevent hc⟩

theorem consistent_of_reachable {ok : Tcp → Event → Prop}
    (hok : ∀ T event, ok T event → NewIds T event)
    (h : (tcpMachine uvStrerror).Reachable ok {} T) : Consistent T :=
  (consistent_and_of_reachable (I := fun _ => True) hok trivial (fun _ _ _ _ _ _ _ => trivial) h).1

/-! ### Ids are new until the index wraps around -/

/-- What holds of all entries, over a step. -/
theorem Change.all {P : ByteString → UvTcpConnection → Prop} {event : Event}
    (hc : Change T event T') (h : T.mConnections.All P)
    (hadded : ∀ incoming, T'.drawn = T.drawn + 1 →
      P (T.nextConnectionId incoming) (T.newConnection incoming))
    (hclosed : ∀ connectionId connection closedReason, P connectionId connection →
      P connectionId { connection with closedReason })
    (hinserted : ∀ packet connectionId, event = .send packet →
      connectionIdOf packet = .ok connectionId → T.mConnections.lookup connectionId = none →
        P connectionId {}) : T'.mConnections.All P := by
  cases hc with
  | same same => rwa [same.tables]
  | added opens added =>
    rw [added.tables]
    exact h.put (hadded _ added.drawn)
  | closed reason found socket cause =>
    exact h.put (hclosed _ _ reason (h _ _ found))
  | failed starting => exact h
  | removed idle phase found socket drawn tables handles starting =>
    rw [tables]
    exact h.erase
  | @inserted packet connectionId _ names missing drawn tables handles starting =>
    rw [tables]
    exact h.touch (hinserted packet connectionId rfl names)

theorem Change.drawn_le {event : Event} (hc : Change T event T') : T.drawn ≤ T'.drawn := by
  cases hc with
  | same same => exact same.drawn
  | added opens added => exact added.drawn ▸ Nat.le_succ _
  | closed | failed => exact le_rfl
  | removed _ _ _ _ drawn | inserted _ _ drawn => exact drawn.ge

/-- The id of a connection is made with one of the first indices. -/
def DrawnBefore (drawn : ℕ) (connectionId : ByteString) (connection : UvTcpConnection) : Prop :=
  connection.uvSocket ≠ none → ∃ endpoint index, index < drawn ∧
    connectionId = endpoint ++ bytes " " ++ bytes (toString (index % 2 ^ 64))

/-- The ids of the connections are made with indices that have been drawn. -/
def IdsDrawn (T : Tcp) : Prop := T.mConnections.All (DrawnBefore T.drawn)

theorem IdsDrawn.change (h : IdsDrawn T) {event : Event} (hc : Change T event T') :
    IdsDrawn T' := by
  -- an id that is there stays one that has been drawn
  have hold : T.mConnections.All (DrawnBefore T'.drawn) :=
    h.mono fun connectionId connection hdrawn hsocket => by
      obtain ⟨endpoint, index, hlt, heq⟩ := hdrawn hsocket
      exact ⟨endpoint, index, hlt.trans_le hc.drawn_le, heq⟩
  refine hc.all hold (fun incoming hdrawn _ => ?_) (fun _ _ _ hdrawn => hdrawn) ?_
  · exact ⟨_, T.drawn, hdrawn ▸ Nat.lt_succ_self _, rfl⟩
  · exact fun _ _ _ _ _ hsocket => absurd rfl hsocket

/-- **The id of a new connection is new** before the index wraps around. -/
theorem newIds_of_drawn_lt {ok : Tcp → Event → Prop}
    (hok : ∀ T event, ok T event → NewIds T event)
    (h : (tcpMachine uvStrerror).Reachable ok {} T) (hdrawn : T.drawn < 2 ^ 64) (event : Event) :
    NewIds T event := by
  obtain ⟨-, hids⟩ := consistent_and_of_reachable hok (I := IdsDrawn) UnorderedMap.all_empty
    (fun _ _ _ _ hids _ hc => hids.change hc) h
  cases event with
  | newConnection incoming =>
    intro _
    by_contra hne
    obtain ⟨handle, hhandle⟩ := Option.ne_none_iff_exists'.1 hne
    obtain ⟨connection, hfound, hsocket⟩ := socketAt_eq_some.1 hhandle
    obtain ⟨endpoint, index, hlt, heq⟩ := hids _ _ hfound (by simp [hsocket])
    -- the indices are what comes after the last space
    rw [nextConnectionId, show bytes " " = [32] by decide] at heq
    obtain ⟨-, hindex⟩ := append_number_inj (.inl (by decide)) heq
    rw [Nat.mod_eq_of_lt hdrawn, Nat.mod_eq_of_lt (hlt.trans hdrawn)] at hindex
    exact hlt.ne' hindex
  | _ => trivial

end

/-! ### Connections on one host -/

/-- A connection from a port of the host to its port 80. -/
def loopback (client remotePort : ℕ) (readStartStatus : ℤ) : IncomingConnection where
  client := client
  remote := { address := bytes "127.0.0.1", port := remotePort }
  localSide := { address := bytes "127.0.0.1", port := 80 }
  readStartStatus := readStartStatus

/-- A packet for a connection. -/
def packetFor (connectionId : String) : Packet where
  parameters := .object [(kParameter_TcpConnectionId, .string (bytes connectionId))]
  buffers := [.ofBytes (bytes "x")]

end Tcp

end Maplang
