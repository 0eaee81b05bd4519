import Maplang.Cpp.UnorderedMap
import Maplang.Machine.Basic
import Maplang.Stream.Buffer

/-!
# The connections of a TCP group

`UvTcpImpl` keeps its connections in a table by their ids, and finds them by the addresses of their
libuv handles in a second one, whose entries point into the first.  Accepted connections, Sender and
Disconnector packets, and the callbacks of libuv change both.

A pointer to an entry of `mConnections` is the key of the entry, since the entries of an
`unordered_map` stay where they are.  Of libuv, the model keeps what the code relies on: which
handles it knows, which of them it reads from, and which it has been told to close.  It calls no
callback inside a call, none for data from a handle that is being closed, and the one for a closed
handle some time after `uv_close`.

It is an assumption that libuv does not use a handle any more that was never stored in the tables:
an early return of `onNewIncomingConnection` releases one that `uv_tcp_init` has initialized,
without `uv_close`.

## Main definitions

* `UvTcpConnection`, `UvTcpImpl` : the tables.
* `Tcp` : the tables, the handles, and the packets pushed so far.
* `onNewIncomingConnection`, `dataReceived`, `sendData`, `disconnect`, `onConnectionRemoved` : the
  code.
* `tcpMachine` : the group and libuv, step by step.
-/

namespace Maplang

namespace Tcp

def kParameter_TcpConnectionId : ByteString := bytes "TcpConnectionId"
def kParameter_LocalAddress : ByteString := bytes "LocalAddress"
def kParameter_RemoteAddress : ByteString := bytes "RemoteAddress"
def kParameter_LocalPort : ByteString := bytes "LocalPort"
def kParameter_RemotePort : ByteString := bytes "RemotePort"
def kParameter_ClosedReason : ByteString := bytes "Closed Reason"
def kParameter_ErrorMessage : ByteString := bytes "errorMessage"

/-- `UV_EOF`. -/
def uvEof : ℤ := -4095

end Tcp

open Tcp

/-- `struct UvTcpConnection`.  The socket is the address of its handle. -/
structure UvTcpConnection where
  uvSocket : Option ℕ := none
  connectionId : ByteString := []
  closedReason : ByteString := []
  localAddress : ByteString := []
  localPort : ℕ := 0
  remoteAddress : ByteString := []
  remotePort : ℕ := 0
  deriving DecidableEq

/-- The tables of `class UvTcpImpl`. -/
structure UvTcpImpl where
  mConnections : UnorderedMap ByteString UvTcpConnection := ∅
  /-- The values are pointers to entries of `mConnections`, `none` for the null pointer. -/
  mUvClientToConnection : UnorderedMap ℕ (Option ByteString) := ∅

/-- What libuv does with a handle. -/
inductive HandlePhase
  /-- It does not know the handle. -/
  | unknown
  /-- The connection is open, and nothing is read from it. -/
  | accepted
  /-- It reads from the connection. -/
  | reading
  /-- `uv_close` has been called, and the callback has not. -/
  | closing
  deriving DecidableEq

/-- A handle of libuv. -/
structure UvHandle where
  phase : HandlePhase := .unknown
  /-- How often `uv_close` has been called since the connection was accepted. -/
  closeCalls : ℕ := 0

/-- A TCP group at work. -/
structure Tcp extends UvTcpImpl where
  /-- How often `atomicConnectionIndex` has been incremented. -/
  drawn : ℕ := 0
  handles : ℕ → UvHandle := fun _ => {}
  /-- The connection whose read start has failed, while the error packet is pushed. -/
  starting : Option ℕ := none
  /-- The packets pushed so far. -/
  pushes : List Push := []
  /-- The calls of `uv_write` so far. -/
  writes : List (Option ℕ × Buffer) := []

/-- What `getRemoteUvAddressAndPort` or `getLocalUvAddressAndPort` leads to. -/
structure AddressLookup where
  /-- The message and the status of the error packet, if one is sent. -/
  error : Option (String × ℤ) := none
  /-- The value returned. -/
  status : ℤ := 0
  address : ByteString := []
  port : ℕ := 0

/-- What `onNewIncomingConnection` gets, from its caller and from the calls it makes. -/
structure IncomingConnection where
  status : ℤ := 0
  /-- The address of the new `uv_tcp_t`. -/
  client : ℕ
  acceptStatus : ℤ := 0
  remote : AddressLookup
  localSide : AddressLookup
  readStartStatus : ℤ := 0

namespace Tcp

/-! ### The packets -/

/-- `UvTcpImpl::setConnectionParameters`. -/
def setConnectionParameters (connection : UvTcpConnection) (members : List (ByteString × Json)) :
    List (ByteString × Json) :=
  [(kParameter_TcpConnectionId, .string connection.connectionId),
    (kParameter_LocalAddress, .string connection.localAddress),
    (kParameter_LocalPort, .numberUnsigned connection.localPort),
    (kParameter_RemoteAddress, .string connection.remoteAddress),
    (kParameter_RemotePort, .numberUnsigned connection.remotePort)].foldl
      (fun members member => Json.setMember members member.1 member.2) members

/-- A packet about a connection. -/
def connectionPush (channel : String) (connection : UvTcpConnection) (buffers : List Buffer) :
    Push where
  packet := { parameters := .object (setConnectionParameters connection []), buffers }
  channel := channel

/-- The packet that says that a connection is closed. -/
def closedPush (connection : UvTcpConnection) : Push :=
  let members := Json.setMember (setConnectionParameters connection []) kParameter_ClosedReason
    (.string connection.closedReason)
  { packet := { parameters := .object members }, channel := "Connection Closed" }

section

variable (uvStrerror : ℤ → ByteString)

/-- `sendUvErrorPacket`, with what `uv_strerror_r` returns. -/
def uvErrorPush (message : String) (status : ℤ) (connectionId : ByteString) : Push :=
  let text := bytes message ++ bytes " " ++ uvStrerror status ++ bytes " (" ++
    bytes (toString status) ++ bytes ")."
  let members := [(kParameter_TcpConnectionId, Json.string connectionId),
    (kParameter_ErrorMessage, .string text)]
  { packet := { parameters := .object members }, channel := "error" }

/-- The error packet of a lookup, which does not name the connection. -/
def lookupErrors (addressLookup : AddressLookup) : List Push :=
  (addressLookup.error.map fun error => uvErrorPush uvStrerror error.1 error.2 []).toList

/-! ### The code -/

/-- Push packets. -/
def push (T : Tcp) (pushes : List Push) : Tcp := { T with pushes := T.pushes ++ pushes }

/-- Change what libuv does with a handle. -/
def setHandle (T : Tcp) (handle : ℕ) (uvHandle : UvHandle) : Tcp :=
  { T with handles := Function.update T.handles handle uvHandle }

/-- `uv_close`. -/
def uvClose (T : Tcp) (handle : ℕ) : Tcp :=
  T.setHandle handle { phase := .closing, closeCalls := (T.handles handle).closeCalls + 1 }

/-- The id that a new connection gets. -/
def nextConnectionId (T : Tcp) (incoming : IncomingConnection) : ByteString :=
  incoming.remote.address ++ bytes ":" ++ bytes (toString incoming.remote.port) ++ bytes " " ++
    bytes (toString (T.drawn % 2 ^ 64))

/-- The connection that is put into the table. -/
def newConnection (T : Tcp) (incoming : IncomingConnection) : UvTcpConnection where
  uvSocket := some incoming.client
  connectionId := T.nextConnectionId incoming
  localAddress := incoming.localSide.address
  localPort := incoming.localSide.port
  remoteAddress := incoming.remote.address
  remotePort := incoming.remote.port

/-- Put a new connection into both tables. -/
def addConnection (T : Tcp) (incoming : IncomingConnection) : Tcp :=
  { T with
    drawn := T.drawn + 1
    mConnections := T.mConnections.put (T.nextConnectionId incoming) (T.newConnection incoming)
    mUvClientToConnection :=
      T.mUvClientToConnection.put incoming.client (some (T.nextConnectionId incoming)) }

/-- `UvTcpImpl::onNewIncomingConnection`, up to the end or, when the read start fails, up to the
error packet: `uv_close` is called when it has been pushed. -/
def onNewIncomingConnection (T : Tcp) (incoming : IncomingConnection) : Tcp :=
  if incoming.status < 0 then
    T.push [uvErrorPush uvStrerror "New connection failed." incoming.status []]
  else if incoming.acceptStatus ≠ 0 then
    T.push [uvErrorPush uvStrerror "Failed to accept connection." incoming.acceptStatus []]
  else if incoming.remote.status ≠ 0 then
    T.push (lookupErrors uvStrerror incoming.remote)
  else if incoming.localSide.status ≠ 0 then
    T.push (lookupErrors uvStrerror incoming.remote ++ lookupErrors uvStrerror incoming.localSide)
  else
    let connection := T.newConnection incoming
    let T := (T.push (lookupErrors uvStrerror incoming.remote ++
      lookupErrors uvStrerror incoming.localSide)).addConnection incoming
    if incoming.readStartStatus ≠ 0 then
      { (T.setHandle incoming.client { phase := .accepted }).push
          [uvErrorPush uvStrerror "Failed to start reading from incoming connection."
            incoming.readStartStatus connection.connectionId] with
        starting := some incoming.client }
    else
      (T.setHandle incoming.client { phase := .reading }).push
        [connectionPush "New Incoming Connection" connection []]

/-- The entry that a pointer points to. -/
def entry (T : Tcp) (pointer : Option ByteString) : Code (ByteString × UvTcpConnection) :=
  match pointer with
  | none => .error .undefinedBehaviour
  | some connectionId =>
    match T.mConnections.lookup connectionId with
    | none => .error .undefinedBehaviour
    | some connection => .ok (connectionId, connection)

/-- Note why a connection is closed, and close its socket. -/
def closeConnection (T : Tcp) (connectionId : ByteString) (connection : UvTcpConnection)
    (closedReason : String) : Code Tcp :=
  match connection.uvSocket with
  | none => .error .undefinedBehaviour
  | some handle =>
    let connection := { connection with closedReason := bytes closedReason }
    .ok (uvClose { T with mConnections := T.mConnections.put connectionId connection } handle)

/-- `UvTcpImpl::dataReceived`; `base` is the memory of the pool buffer. -/
def dataReceived (T : Tcp) (stream : ℕ) (nread : ℤ) (base : List UInt8) : Code Tcp := do
  let pointer := (T.mUvClientToConnection.lookup stream).getD none
  let T := { T with mUvClientToConnection := T.mUvClientToConnection.touch stream none }
  if nread = uvEof then
    let (connectionId, connection) ← T.entry pointer
    T.closeConnection connectionId connection "End of stream"
  else if nread < 0 then
    let (_, connection) ← T.entry pointer
    return T.push [uvErrorPush uvStrerror "TCP receive error." nread connection.connectionId]
  else if nread = 0 then return T
  else
    let (_, connection) ← T.entry pointer
    let buffer : Buffer := { data := some base, length := nread.toNat }
    return T.push [connectionPush "Data Received" connection [buffer]]

/-- The connection id in a packet. -/
def connectionIdOf (packet : Packet) : Code ByteString := do
  (← packet.parameters.get kParameter_TcpConnectionId).getString

/-- `UvTcpImpl::sendData`.  The lookup in `mConnections` inserts an entry if there is none. -/
def sendData (T : Tcp) (packet : Packet) : Code Tcp := do
  let connectionId ← connectionIdOf packet
  let connection := (T.mConnections.lookup connectionId).getD {}
  let T := { T with mConnections := T.mConnections.touch connectionId {} }
  match packet.buffers with
  | [] => .error .undefinedBehaviour
  | buffer :: _ => return { T with writes := T.writes ++ [(connection.uvSocket, buffer)] }

/-- `UvTcpImpl::disconnect`. -/
def disconnect (T : Tcp) (packet : Packet) : Code Tcp := do
  let connectionId ← connectionIdOf packet
  match T.mConnections.lookup connectionId with
  | none => return T
  | some connection =>
    T.closeConnection connectionId connection "Local side requested disconnect."

/-- `UvTcpImpl::onConnectionRemoved`.  The id is the one that is written in the entry. -/
def onConnectionRemoved (T : Tcp) (handle : ℕ) : Code Tcp :=
  match T.mUvClientToConnection.lookup handle with
  | none => .ok T
  | some pointer => do
    let (_, found) ← T.entry pointer
    let connection := (T.mConnections.lookup found.connectionId).getD {}
    return push { T with
      mUvClientToConnection := T.mUvClientToConnection.erase handle
      mConnections := T.mConnections.erase found.connectionId } [closedPush connection]

end

/-! ### The machine -/

/-- No connection lives at this address. -/
def Unused (T : Tcp) (client : ℕ) : Prop :=
  (T.handles client).phase = .unknown ∧
    ∀ e ∈ T.mConnections.entries, e.2.uvSocket ≠ some client

instance (T : Tcp) (client : ℕ) : Decidable (T.Unused client) :=
  inferInstanceAs (Decidable (_ ∧ _))

/-- What happens next. -/
inductive Event
  /-- libuv calls back for a new connection. -/
  | newConnection (incoming : IncomingConnection)
  /-- The error packet of a failed read start has been pushed. -/
  | errorPushed
  /-- libuv calls back with data, an error or the end of the stream. -/
  | read (stream : ℕ) (nread : ℤ) (base : List UInt8)
  /-- The Sender handles a packet. -/
  | send (packet : Packet)
  /-- The Disconnector handles a packet. -/
  | disconnect (packet : Packet)
  /-- libuv calls back for a closed handle. -/
  | closed (handle : ℕ)
  /-- Somewhere else an index is drawn. -/
  | indexDrawn

/-- The state after a function: an exception leaves it as it was, and undefined behaviour has none
after it. -/
def after (T : Tcp) : Code Tcp → Option Tcp
  | .ok T' => some T'
  | .error (.exception _) => some T
  | .error _ => none

end Tcp

/-- A TCP group and libuv.  libuv does not call back while a packet is being pushed. -/
def tcpMachine (uvStrerror : ℤ → ByteString) : Machine Tcp Tcp.Event where
  step T
    | .newConnection incoming =>
      if T.starting = none ∧ T.Unused incoming.client then
        some (T.onNewIncomingConnection uvStrerror incoming)
      else none
    | .errorPushed => T.starting.map fun client => { T.uvClose client with starting := none }
    | .read stream nread base =>
      if T.starting = none ∧ (T.handles stream).phase = .reading then
        T.after (T.dataReceived uvStrerror stream nread base)
      else none
    | .send packet => T.after (T.sendData packet)
    | .disconnect packet => T.after (T.disconnect packet)
    | .closed handle =>
      if T.starting = none ∧ (T.handles handle).phase = .closing then
        (T.after (T.onConnectionRemoved handle)).map fun T =>
          T.setHandle handle { T.handles handle with phase := .unknown }
      else none
    | .indexDrawn => some { T with drawn := T.drawn + 1 }

end Maplang
