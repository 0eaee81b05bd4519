import Maplang.Tcp.Steps

/-!
# What a TCP group tells about a connection

A connection should be announced, then its data should be pushed, then it should be said once that
it is closed, each time with the same addresses, and no two connections should have the same id.

This holds as long as the read start of each connection succeeds: otherwise the connection is closed
without having been announced.  The ids are new until the index that is a part of them wraps around.

## Main definitions

* `observedMachine` : a TCP group, and the connections that it has accepted so far.
* `Lifecycle` : what is asked of the packets.
* `StartsNew` : the step condition for new connections.
* `Told` : the packets that have been pushed fit the connections in the table.

## Main results

* `lifecycle_of_startsNew` : as long as all steps meet the condition, the packets are as they should
  be.
* `exists_not_lifecycle` : after a step that does not meet it, they need not be.
* `not_repeats_of_drawn_lt` : ids are new until the index wraps around.
-/

namespace Maplang

namespace Tcp

/-! ### What is asked -/

/-- A connection that has been accepted. -/
structure Accepted where
  connection : UvTcpConnection
  /-- The index that its id is made with. -/
  index : ℕ

/-- The connection that an event adds. -/
def acceptedBy (T : Tcp) : Event → List Accepted
  | .newConnection incoming => if Opens incoming then [⟨T.newConnection incoming, T.drawn⟩] else []
  | _ => []

end Tcp

open Tcp

/-- A TCP group, and the connections that it has accepted so far. -/
structure ObservedTcp extends Tcp where
  accepted : List Accepted := []

/-- The machine of a TCP group, which remembers the connections. -/
def observedMachine (uvStrerror : ℤ → ByteString) : Machine ObservedTcp Tcp.Event where
  step o event := ((tcpMachine uvStrerror).step o.toTcp event).map fun T =>
    { T with accepted := o.accepted ++ o.toTcp.acceptedBy event }

namespace Tcp

/-- The packet at a position is about a connection. -/
def Tells (pushes : List Push) (i : ℕ) (channel : String) (connectionId : ByteString) : Prop :=
  ∃ push, pushes[i]? = some push ∧ push.channel = channel ∧
    push.packet.parameters.find kParameter_TcpConnectionId = some (.string connectionId)

/-- The parameters that say between which addresses a connection is. -/
def endpointKeys : List ByteString :=
  [kParameter_LocalAddress, kParameter_LocalPort, kParameter_RemoteAddress, kParameter_RemotePort]

/-- The channels of the packets about a connection. -/
def connectionChannels : List String :=
  ["New Incoming Connection", "Data Received", "Connection Closed"]

/-- The packets about each connection come in order, and no two connections have the same id. -/
structure Lifecycle (o : ObservedTcp) : Prop where
  closedOnce : ∀ connectionId i j, Tells o.pushes i "Connection Closed" connectionId →
    Tells o.pushes j "Connection Closed" connectionId → i = j
  closedAfter : ∀ connectionId i, Tells o.pushes i "Connection Closed" connectionId →
    ∃ j < i, Tells o.pushes j "New Incoming Connection" connectionId
  dataAfter : ∀ connectionId i, Tells o.pushes i "Data Received" connectionId →
    ∃ j < i, Tells o.pushes j "New Incoming Connection" connectionId
  dataBefore : ∀ connectionId i j, Tells o.pushes i "Data Received" connectionId →
    Tells o.pushes j "Connection Closed" connectionId → i < j
  endpoints : ∀ push ∈ o.pushes, ∀ push' ∈ o.pushes, push.channel ∈ connectionChannels →
    push'.channel ∈ connectionChannels → ∀ connectionId,
      push.packet.parameters.find kParameter_TcpConnectionId = some (.string connectionId) →
      push'.packet.parameters.find kParameter_TcpConnectionId = some (.string connectionId) →
      ∀ key ∈ endpointKeys, push.packet.parameters.find key = push'.packet.parameters.find key
  ids : o.accepted.Pairwise fun a b => a.connection.connectionId ≠ b.connection.connectionId

/-- An earlier connection had the same remote end, and its index was the same for the counter. -/
def Repeats (o : ObservedTcp) (incoming : IncomingConnection) : Prop :=
  ∃ a ∈ o.accepted, a.connection.remoteAddress = incoming.remote.address ∧
    a.connection.remotePort = incoming.remote.port ∧ a.index % 2 ^ 64 = o.drawn % 2 ^ 64

instance (o : ObservedTcp) (incoming : IncomingConnection) : Decidable (Repeats o incoming) :=
  inferInstanceAs (Decidable (∃ _ ∈ _, _))

/-- The read start of a new connection succeeds, and its index is new for its remote end. -/
def StartsNew (o : ObservedTcp) : Event → Prop
  | .newConnection incoming =>
    Opens incoming → incoming.readStartStatus = 0 ∧ ¬ Repeats o incoming
  | _ => True

instance (o : ObservedTcp) : DecidablePred (StartsNew o)
  | .newConnection _ => inferInstanceAs (Decidable (_ → _))
  | .errorPushed | .read _ _ _ | .send _ | .disconnect _ | .closed _ | .indexDrawn =>
    inferInstanceAs (Decidable True)

/-! ### The ids -/

/-- The id that is made for a connection. -/
def connectionIdFor (address : ByteString) (port index : ℕ) : ByteString :=
  address ++ bytes ":" ++ bytes (toString port) ++ bytes " " ++ bytes (toString (index % 2 ^ 64))

/-- **An id tells the remote end**, and the index as the counter has it. -/
theorem connectionIdFor_inj {address address' : ByteString} {port port' index index' : ℕ} :
    connectionIdFor address port index = connectionIdFor address' port' index' ↔
      address = address' ∧ port = port' ∧ index % 2 ^ 64 = index' % 2 ^ 64 := by
  constructor
  · intro h
    rw [connectionIdFor, connectionIdFor, show bytes " " = [32] by decide,
      show bytes ":" = [58] by decide] at h
    -- the index comes after the last space, and the port after the last colon before it
    obtain ⟨hends, hindex⟩ := append_number_inj (.inl (by decide)) h
    obtain ⟨haddress, hport⟩ := append_number_inj (.inr (by decide)) hends
    exact ⟨haddress, hport, hindex⟩
  · rintro ⟨rfl, rfl, h⟩
    rw [connectionIdFor, connectionIdFor, h]

/-! ### What a packet tells -/

section

variable {pushes : List Push} {push : Push} {i : ℕ} {channel : String} {connectionId : ByteString}
  {connection : UvTcpConnection}

theorem Tells.lt_length (h : Tells pushes i channel connectionId) : i < pushes.length := by
  obtain ⟨push, hpush, -⟩ := h
  exact (List.getElem?_eq_some_iff.1 hpush).1

theorem Tells.append (h : Tells pushes i channel connectionId) (more : List Push) :
    Tells (pushes ++ more) i channel connectionId := by
  obtain ⟨push, hpush, hchannel, hid⟩ := h
  exact ⟨push, getElem?_mono (List.prefix_append _ _) hpush, hchannel, hid⟩

theorem tells_concat (h : Tells (pushes ++ [push]) i channel connectionId) :
    Tells pushes i channel connectionId ∨ i = pushes.length ∧ push.channel = channel ∧
      push.packet.parameters.find kParameter_TcpConnectionId = some (.string connectionId) := by
  obtain ⟨push', hpush, hchannel, hid⟩ := h
  rcases getElem?_concat_cases hpush with ⟨hold, -⟩ | ⟨hi, rfl⟩
  · exact .inl ⟨push', hold, hchannel, hid⟩
  · exact .inr ⟨hi, hchannel, hid⟩

theorem tells_last (hchannel : push.channel = channel)
    (hid : push.packet.parameters.find kParameter_TcpConnectionId = some (.string connectionId)) :
    Tells (pushes ++ [push]) pushes.length channel connectionId :=
  ⟨push, List.getElem?_concat_length, hchannel, hid⟩

/-- What a packet says about the connection it is about. -/
def Describes (push : Push) (connection : UvTcpConnection) : Prop :=
  ∀ key ∈ kParameter_TcpConnectionId :: endpointKeys, push.packet.parameters.find key =
    (setConnectionParameters connection []).lookup key

theorem lookup_connectionId : (setConnectionParameters connection []).lookup
    kParameter_TcpConnectionId = some (.string connection.connectionId) := rfl

theorem describes_connectionPush (buffers : List Buffer) :
    Describes (connectionPush channel connection buffers) connection := fun _ _ => rfl

theorem describes_closedPush : Describes (closedPush connection) connection := by
  intro key hkey
  have hne : key ≠ kParameter_ClosedReason := by
    revert key
    decide
  exact (Json.lookup_setMember _ _ _ _).trans (if_neg hne)

theorem Describes.find (h : Describes push connection) :
    push.packet.parameters.find kParameter_TcpConnectionId =
      some (.string connection.connectionId) :=
  (h _ (List.mem_cons_self ..)).trans lookup_connectionId

theorem Describes.connectionId_eq (h : Describes push connection)
    (hid : push.packet.parameters.find kParameter_TcpConnectionId = some (.string connectionId)) :
    connection.connectionId = connectionId :=
  Json.string.inj (Option.some.inj (h.find.symm.trans hid))

end

/-! ### The packets come in order -/

/-- The connection has been announced, and it has not been said that it is closed. -/
def Announced (pushes : List Push) (connectionId : ByteString) : Prop :=
  (∃ j, Tells pushes j "New Incoming Connection" connectionId) ∧
    ∀ j, ¬ Tells pushes j "Connection Closed" connectionId

/-- The packets about each connection come in order. -/
structure InOrder (pushes : List Push) : Prop where
  closedOnce : ∀ connectionId i j, Tells pushes i "Connection Closed" connectionId →
    Tells pushes j "Connection Closed" connectionId → i = j
  after : ∀ connectionId i, Tells pushes i "Data Received" connectionId ∨
      Tells pushes i "Connection Closed" connectionId →
    ∃ j < i, Tells pushes j "New Incoming Connection" connectionId
  dataBefore : ∀ connectionId i j, Tells pushes i "Data Received" connectionId →
    Tells pushes j "Connection Closed" connectionId → i < j

/-- The packet may be pushed next: its connection has been announced, unless it does so itself. -/
def MayFollow (pushes : List Push) (push : Push) : Prop :=
  ∀ connectionId, push.channel = "Data Received" ∨ push.channel = "Connection Closed" →
    push.packet.parameters.find kParameter_TcpConnectionId = some (.string connectionId) →
    Announced pushes connectionId

section

variable {pushes : List Push} {push : Push} {connectionId : ByteString}

theorem Announced.concat (h : Announced pushes connectionId)
    (hopen : push.channel = "Connection Closed" →
      push.packet.parameters.find kParameter_TcpConnectionId ≠ some (.string connectionId)) :
    Announced (pushes ++ [push]) connectionId := by
  obtain ⟨⟨j, hj⟩, hclosed⟩ := h
  refine ⟨⟨j, hj.append _⟩, fun i hi => ?_⟩
  rcases tells_concat hi with hold | ⟨-, hchannel, hid⟩
  · exact hclosed i hold
  · exact hopen hchannel hid

theorem InOrder.concat (h : InOrder pushes) (hnext : MayFollow pushes push) :
    InOrder (pushes ++ [push]) := by
  constructor
  case closedOnce =>
    intro connectionId i j hi hj
    rcases tells_concat hi with hi | ⟨rfl, hchannel, hid⟩
    · rcases tells_concat hj with hj | ⟨rfl, hchannel, hid⟩
      · exact h.closedOnce connectionId i j hi hj
      · exact absurd hi ((hnext connectionId (.inr hchannel) hid).2 i)
    · rcases tells_concat hj with hj | ⟨rfl, -⟩
      · exact absurd hj ((hnext connectionId (.inr hchannel) hid).2 j)
      · rfl
  case after =>
    intro connectionId i hi
    have hcases : (Tells pushes i "Data Received" connectionId ∨
        Tells pushes i "Connection Closed" connectionId) ∨
        i = pushes.length ∧ Announced pushes connectionId := by
      rcases hi with hi | hi
      · rcases tells_concat hi with hi | ⟨hlast, hchannel, hid⟩
        · exact .inl (.inl hi)
        · exact .inr ⟨hlast, hnext connectionId (.inl hchannel) hid⟩
      · rcases tells_concat hi with hi | ⟨hlast, hchannel, hid⟩
        · exact .inl (.inr hi)
        · exact .inr ⟨hlast, hnext connectionId (.inr hchannel) hid⟩
    rcases hcases with hold | ⟨rfl, ⟨j, hj⟩, -⟩
    · obtain ⟨j, hji, hj⟩ := h.after connectionId i hold
      exact ⟨j, hji, hj.append _⟩
    · exact ⟨j, hj.lt_length, hj.append _⟩
  case dataBefore =>
    intro connectionId i j hi hj
    rcases tells_concat hj with hj | ⟨rfl, hclosed, -⟩
    · rcases tells_concat hi with hi | ⟨-, hchannel, hid⟩
      · exact h.dataBefore connectionId i j hi hj
      · exact absurd hj ((hnext connectionId (.inl hchannel) hid).2 j)
    · rcases tells_concat hi with hi | ⟨-, hdata, -⟩
      · exact hi.lt_length
      · exact absurd (hdata.symm.trans hclosed) (by decide)

end

/-! ### The packets fit the table -/

/-- A connection with a socket has been accepted, and its packets may be pushed. -/
def Open (accepted : List Accepted) (pushes : List Push) (connectionId : ByteString)
    (connection : UvTcpConnection) : Prop :=
  connection.uvSocket ≠ none → Announced pushes connectionId ∧
    ∃ a ∈ accepted, setConnectionParameters a.connection [] = setConnectionParameters connection []

/-- The packets that have been pushed fit the connections in the table. -/
structure Fits (accepted : List Accepted)
    (connections : UnorderedMap ByteString UvTcpConnection) (pushes : List Push) : Prop where
  inOrder : InOrder pushes
  known : ∀ push ∈ pushes, push.channel ∈ connectionChannels →
    ∃ a ∈ accepted, Describes push a.connection
  entries : connections.All (Open accepted pushes)

section

variable {accepted accepted' : List Accepted}
  {connections : UnorderedMap ByteString UvTcpConnection} {pushes : List Push} {push : Push}
  {connectionId : ByteString} {connection : UvTcpConnection}

theorem Fits.append (h : Fits accepted connections pushes) (more : List Accepted) :
    Fits (accepted ++ more) connections pushes where
  inOrder := h.inOrder
  known push hpush hchannel := by
    obtain ⟨a, ha, hdescribes⟩ := h.known push hpush hchannel
    exact ⟨a, List.mem_append_left _ ha, hdescribes⟩
  entries := h.entries.mono fun connectionId connection hopen hsocket => by
    obtain ⟨hannounced, a, ha, hparameters⟩ := hopen hsocket
    exact ⟨hannounced, a, List.mem_append_left _ ha, hparameters⟩

/-- A packet that does not say that a connection is closed. -/
theorem Fits.concat (h : Fits accepted connections pushes) (hnext : MayFollow pushes push)
    (hopen : push.channel ≠ "Connection Closed")
    (hknown : push.channel ∈ connectionChannels → ∃ a ∈ accepted, Describes push a.connection) :
    Fits accepted connections (pushes ++ [push]) where
  inOrder := h.inOrder.concat hnext
  known push' hpush' := by
    rcases List.mem_append.1 hpush' with hold | hnew
    · exact h.known push' hold
    · rwa [List.mem_singleton.1 hnew]
  entries := h.entries.mono fun connectionId connection hentry hsocket =>
    ⟨(hentry hsocket).1.concat fun hchannel => absurd hchannel hopen, (hentry hsocket).2⟩

/-- Packets are about connections that have been accepted. -/
theorem Fits.exists_of_tells (h : Fits accepted connections pushes) {i : ℕ} {channel : String}
    (htells : Tells pushes i channel connectionId) (hchannel : channel ∈ connectionChannels) :
    ∃ a ∈ accepted, a.connection.connectionId = connectionId := by
  obtain ⟨push, hpush, rfl, hid⟩ := htells
  obtain ⟨a, ha, hdescribes⟩ := h.known push (List.mem_of_getElem? hpush) hchannel
  exact ⟨a, ha, hdescribes.connectionId_eq hid⟩

theorem Fits.error (h : Fits accepted connections pushes) (hchannel : push.channel = "error") :
    Fits accepted connections (pushes ++ [push]) := by
  refine h.concat ?_ (by simp [hchannel]) (by simp [hchannel, connectionChannels])
  rintro connectionId (hdata | hclosed)
  · simp [hchannel] at hdata
  · simp [hchannel] at hclosed

theorem Fits.errors (h : Fits accepted connections pushes) {errors : List Push}
    (herrors : ∀ push ∈ errors, push.channel = "error") :
    Fits accepted connections (pushes ++ errors) := by
  induction errors generalizing pushes with
  | nil => rwa [List.append_nil]
  | cons error errors ih =>
    obtain ⟨herror, hrest⟩ := List.forall_mem_cons.1 herrors
    rw [← List.singleton_append, ← List.append_assoc]
    exact ih (h.error herror) hrest

/-- The connection that a packet describes is the one it names. -/
theorem mayFollow_of_describes (hdescribes : Describes push connection)
    (hannounced : Announced pushes connection.connectionId) : MayFollow pushes push := by
  intro other _ hid
  rwa [← hdescribes.connectionId_eq hid]

/-- The entry of an open connection, and how its packets describe it. -/
theorem Fits.exists_accepted (h : Fits accepted connections pushes)
    (hown : connections.All OwnId) (hfound : connections.lookup connectionId = some connection)
    (hsocket : connection.uvSocket ≠ none) (hdescribes : Describes push connection) :
    Announced pushes connection.connectionId ∧ ∃ a ∈ accepted, Describes push a.connection := by
  obtain ⟨hannounced, a, ha, hparameters⟩ := h.entries connectionId connection hfound hsocket
  rw [hown connectionId connection hfound hsocket]
  refine ⟨hannounced, a, ha, fun key hkey => ?_⟩
  rw [hparameters]
  exact hdescribes key hkey

/-- Data is pushed for an open connection. -/
theorem Fits.data (h : Fits accepted connections pushes) (hown : connections.All OwnId)
    (hfound : connections.lookup connectionId = some connection)
    (hsocket : connection.uvSocket ≠ none) (buffers : List Buffer) :
    Fits accepted connections
      (pushes ++ [connectionPush "Data Received" connection buffers]) := by
  have hdescribes : Describes (connectionPush "Data Received" connection buffers) connection :=
    describes_connectionPush buffers
  obtain ⟨hannounced, hknown⟩ := h.exists_accepted hown hfound hsocket hdescribes
  exact h.concat (mayFollow_of_describes hdescribes hannounced)
    (show "Data Received" ≠ "Connection Closed" by decide) fun _ => hknown

theorem Fits.reports {T : Tcp} (h : Fits accepted T.mConnections pushes)
    (hown : T.mConnections.All OwnId) {more : List Push} (hmore : ∀ push ∈ more, T.Reports push) :
    Fits accepted T.mConnections (pushes ++ more) := by
  induction more generalizing pushes with
  | nil => rwa [List.append_nil]
  | cons push more ih =>
    obtain ⟨hpush, hrest⟩ := List.forall_mem_cons.1 hmore
    rw [← List.singleton_append, ← List.append_assoc]
    rcases hpush with herror | ⟨connectionId, connection, buffers, hfound, hsocket, rfl⟩
    · exact ih (h.error herror) hrest
    · exact ih (h.data hown hfound hsocket buffers) hrest

/-- A new connection is announced. -/
theorem Fits.announce (h : Fits accepted connections pushes) {a : Accepted} (ha : a ∈ accepted)
    (hnew : ∀ j, ¬ Tells pushes j "Connection Closed" a.connection.connectionId) :
    Fits accepted (connections.put a.connection.connectionId a.connection)
      (pushes ++ [connectionPush "New Incoming Connection" a.connection []]) := by
  let push := connectionPush "New Incoming Connection" a.connection []
  have hdescribes : Describes push a.connection := describes_connectionPush []
  have hopen : push.channel ≠ "Connection Closed" :=
    show "New Incoming Connection" ≠ "Connection Closed" by decide
  have hnext : MayFollow pushes push := by
    rintro _ (hdata | hclosed)
    · exact absurd hdata (show "New Incoming Connection" ≠ "Data Received" by decide)
    · exact absurd hclosed hopen
  have hfits := h.concat hnext hopen fun _ => ⟨a, ha, hdescribes⟩
  refine ⟨hfits.inOrder, hfits.known, hfits.entries.put fun _ => ⟨⟨?_, fun j hj => ?_⟩, a, ha, rfl⟩⟩
  · exact ⟨_, tells_last rfl hdescribes.find⟩
  · rcases tells_concat hj with hold | ⟨-, hchannel, -⟩
    · exact hnew j hold
    · exact hopen hchannel

/-- A connection is closed, and its entry is removed. -/
theorem Fits.close (h : Fits accepted connections pushes) (hown : connections.All OwnId)
    (hfound : connections.lookup connectionId = some connection)
    (hsocket : connection.uvSocket ≠ none) :
    Fits accepted (connections.erase connectionId) (pushes ++ [closedPush connection]) := by
  have hdescribes : Describes (closedPush connection) connection := describes_closedPush
  have hid := hown connectionId connection hfound hsocket
  obtain ⟨hannounced, hknown⟩ := h.exists_accepted hown hfound hsocket hdescribes
  constructor
  case inOrder => exact h.inOrder.concat (mayFollow_of_describes hdescribes hannounced)
  case known =>
    intro push hpush hchannel
    rcases List.mem_append.1 hpush with hold | hnew
    · exact h.known push hold hchannel
    · rwa [List.mem_singleton.1 hnew]
  case entries =>
    refine h.entries.erase_ne.mono fun other found hentry hsome => ?_
    refine ⟨(hentry.2 hsome).1.concat fun _ hother => ?_, (hentry.2 hsome).2⟩
    exact hentry.1 ((hdescribes.connectionId_eq hother).symm.trans hid)

end

/-! ### Runs -/

/-- What holds in every state of a run whose steps meet the condition. -/
structure Told (o : ObservedTcp) : Prop where
  idle : o.starting = none
  fits : Fits o.accepted o.mConnections o.pushes
  ids : ∀ a ∈ o.accepted, a.connection.connectionId =
    connectionIdFor a.connection.remoteAddress a.connection.remotePort a.index
  distinct : o.accepted.Pairwise fun a b => a.connection.connectionId ≠ b.connection.connectionId

section

variable {uvStrerror : ℤ → ByteString} {o o' : ObservedTcp}

theorem told_empty : Told {} where
  idle := rfl
  fits := ⟨⟨by simp [Tells], by simp [Tells], by simp [Tells]⟩, by simp, UnorderedMap.all_empty⟩
  ids := by simp
  distinct := .nil

/-- An index that is new for its remote end makes a new id. -/
theorem Told.id_ne (h : Told o) {incoming : IncomingConnection} (hnew : ¬ Repeats o incoming) :
    ∀ a ∈ o.accepted, a.connection.connectionId ≠ o.nextConnectionId incoming := by
  intro a ha heq
  obtain ⟨haddress, hport, hindex⟩ := connectionIdFor_inj.1 ((h.ids a ha).symm.trans heq)
  exact hnew ⟨a, ha, haddress, hport, hindex⟩

/-- A connection whose id is new has no entry with a socket yet. -/
theorem Told.newIds_newConnection (h : Told o) (hconsistent : Consistent o.toTcp)
    {incoming : IncomingConnection} (hnew : ¬ Repeats o incoming) :
    NewIds o.toTcp (.newConnection incoming) := by
  intro _
  by_contra hne
  obtain ⟨handle, hhandle⟩ := Option.ne_none_iff_exists'.1 hne
  obtain ⟨connection, hfound, hsocket⟩ := socketAt_eq_some.1 hhandle
  have hsome : connection.uvSocket ≠ none := by simp [hsocket]
  have hpush : Describes (connectionPush "Data Received" connection []) connection :=
    describes_connectionPush []
  obtain ⟨-, a, ha, hdescribes⟩ :=
    h.fits.exists_accepted hconsistent.linked.own hfound hsome hpush
  refine h.id_ne hnew a ha ?_
  rw [← hconsistent.linked.own _ _ hfound hsome]
  exact hdescribes.connectionId_eq lookup_connectionId

theorem Told.newIds (h : Told o) (hconsistent : Consistent o.toTcp) {event : Event}
    (hok : StartsNew o event) : NewIds o.toTcp event := by
  cases event with
  | newConnection incoming =>
    intro hopens
    exact h.newIds_newConnection hconsistent (hok hopens).2 hopens
  | _ => trivial

/-- The connections that an event adds. -/
theorem Told.accept (h : Told o) {event : Event} (hok : StartsNew o event) :
    (∀ a ∈ o.accepted ++ o.toTcp.acceptedBy event, a.connection.connectionId =
      connectionIdFor a.connection.remoteAddress a.connection.remotePort a.index) ∧
    (o.accepted ++ o.toTcp.acceptedBy event).Pairwise fun a b =>
      a.connection.connectionId ≠ b.connection.connectionId := by
  cases event with
  | newConnection incoming =>
    rw [acceptedBy]
    split
    · rename_i hopens
      constructor
      · intro a ha
        rcases List.mem_append.1 ha with hold | hnew
        · exact h.ids a hold
        · rw [List.mem_singleton.1 hnew]
          rfl
      · refine List.pairwise_append.2 ⟨h.distinct, List.pairwise_singleton _ _, ?_⟩
        intro a ha b hb
        rw [List.mem_singleton.1 hb]
        exact h.id_ne (hok hopens).2 a ha
    · rw [List.append_nil]
      exact ⟨h.ids, h.distinct⟩
  | _ => simpa [acceptedBy] using ⟨h.ids, h.distinct⟩

/-- **One step** that meets the condition. -/
theorem Told.change (h : Told o) (hconsistent : Consistent o.toTcp) {event : Event}
    (hok : StartsNew o event) {T : Tcp} (hc : Change o.toTcp event T) :
    Told { T with accepted := o.accepted ++ o.toTcp.acceptedBy event } := by
  obtain ⟨hids, hdistinct⟩ := h.accept hok
  have hown := hconsistent.linked.own
  have hfits := h.fits.append (o.toTcp.acceptedBy event)
  cases hc with
  | same same =>
    obtain ⟨pushes, hpushes, hreports⟩ := same.pushes
    refine ⟨same.starting.trans h.idle, ?_, hids, hdistinct⟩
    rw [same.tables, hpushes]
    exact hfits.reports hown hreports
  | @added incoming _ opens added =>
    obtain ⟨hread, hnew⟩ := hok opens
    obtain ⟨errors, hpushes, herrors⟩ := added.pushes
    rw [if_neg (not_not.2 hread)] at hpushes
    refine ⟨added.starting.trans (if_neg (not_not.2 hread)), ?_, hids, hdistinct⟩
    rw [added.tables, hpushes]
    refine (hfits.errors herrors).announce (a := ⟨o.newConnection incoming, o.drawn⟩) ?_ ?_
    · rw [acceptedBy, if_pos opens]
      exact List.mem_append_right _ (List.mem_singleton_self _)
    · intro j hj
      obtain ⟨a, ha, hid⟩ := (h.fits.errors herrors).exists_of_tells hj (by decide)
      exact h.id_ne hnew a ha hid
  | @closed _ connectionId connection handle reason found socket cause =>
    refine ⟨h.idle, ⟨hfits.inOrder, hfits.known, hfits.entries.put ?_⟩, hids, hdistinct⟩
    exact hfits.entries connectionId connection found
  | failed starting => cases h.idle.symm.trans starting
  | @removed handle connectionId connection _ idle phase found socket drawn tables handles starting
      pushes =>
    refine ⟨starting, ?_, hids, hdistinct⟩
    rw [tables, pushes]
    exact hfits.close hown found (by simp [socket])
  | @inserted packet connectionId _ names missing drawn tables handles starting pushes =>
    refine ⟨starting.trans h.idle, ?_, hids, hdistinct⟩
    rw [tables, pushes]
    exact ⟨hfits.inOrder, hfits.known, hfits.entries.touch fun _ hsocket => absurd rfl hsocket⟩

theorem Told.lifecycle (h : Told o) : Lifecycle o where
  closedOnce := h.fits.inOrder.closedOnce
  closedAfter connectionId i hi := h.fits.inOrder.after connectionId i (.inr hi)
  dataAfter connectionId i hi := h.fits.inOrder.after connectionId i (.inl hi)
  dataBefore := h.fits.inOrder.dataBefore
  endpoints push hpush push' hpush' hchannel hchannel' connectionId hid hid' key hkey := by
    obtain ⟨a, ha, hdescribes⟩ := h.fits.known push hpush hchannel
    obtain ⟨a', ha', hdescribes'⟩ := h.fits.known push' hpush' hchannel'
    -- connections with the same id are the same
    have hnodup : (o.accepted.map fun a => a.connection.connectionId).Nodup :=
      List.pairwise_map.2 h.distinct
    obtain rfl : a = a' := List.inj_on_of_nodup_map hnodup ha ha'
      ((hdescribes.connectionId_eq hid).trans (hdescribes'.connectionId_eq hid').symm)
    rw [hdescribes key (List.mem_cons_of_mem _ hkey), hdescribes' key (List.mem_cons_of_mem _ hkey)]
  ids := h.distinct

theorem Told.step (hconsistent : Consistent o.toTcp) (h : Told o) {event : Event}
    (hok : StartsNew o event) (hs : (observedMachine uvStrerror).step o event = some o') :
    Consistent o'.toTcp ∧ Told o' := by
  obtain ⟨T, hT, rfl⟩ := Option.map_eq_some_iff.1 hs
  have hc := step_cases hconsistent.linked hT
  exact ⟨hconsistent.change (h.newIds hconsistent hok) hc, h.change hconsistent hok hc⟩

theorem told_of_reachable (h : (observedMachine uvStrerror).Reachable StartsNew {} o) :
    Consistent o.toTcp ∧ Told o :=
  h.invariant (I := fun o => Consistent o.toTcp ∧ Told o) ⟨consistent_empty, told_empty⟩
    fun _ _ _ ⟨hconsistent, htold⟩ hok hs => htold.step hconsistent hok hs

/-- **The packets about each connection come in order**, in every state that is reached with steps
that meet the condition: the read start of a new connection succeeds, and no earlier connection has
had the same remote end and, for the counter, the same index. -/
theorem lifecycle_of_startsNew (uvStrerror : ℤ → ByteString) {o : ObservedTcp}
    (h : (observedMachine uvStrerror).Reachable StartsNew {} o) : Lifecycle o :=
  (told_of_reachable h).2.lifecycle

/-! ### When the condition is not met -/

/-- An event that does not meet the condition. -/
theorem exists_of_not_startsNew {event : Event} (h : ¬ StartsNew o event) :
    ∃ incoming, event = .newConnection incoming ∧ Opens incoming ∧
      (incoming.readStartStatus = 0 → Repeats o incoming) := by
  cases event with
  | newConnection incoming =>
    rw [StartsNew, Classical.not_imp, not_and, not_not] at h
    exact ⟨incoming, rfl, h⟩
  | _ => exact absurd trivial h

/-- A connection that opens is added. -/
theorem added_of_step {incoming : IncomingConnection} (hopens : Opens incoming)
    (hs : (observedMachine uvStrerror).step o (.newConnection incoming) = some o') :
    Added o.toTcp incoming o'.toTcp ∧
      o'.accepted = o.accepted ++ [⟨o.newConnection incoming, o.drawn⟩] := by
  obtain ⟨T, hT, rfl⟩ := Option.map_eq_some_iff.1 hs
  simp only [tcpMachine] at hT
  split at hT
  · rename_i hready
    obtain rfl := Option.some.inj hT
    refine ⟨onNewIncomingConnection_of_opens hopens hready.1 hready.2, ?_⟩
    rw [acceptedBy, if_pos hopens]
  · cases hT

/-- The connection whose read start has failed is closed, and libuv calls back. -/
theorem exists_closed_of_starting (uvStrerror : ℤ → ByteString) {o : ObservedTcp} {client : ℕ}
    (hconsistent : Consistent o.toTcp)
    (hstarting : o.starting = some client) {connectionId : ByteString}
    (hsocket : socketAt o.mConnections connectionId = some client) :
    ∃ o'' connection, (observedMachine uvStrerror).Reachable Machine.free o o'' ∧
      connection.connectionId = connectionId ∧
        o''.pushes = o.pushes ++ [closedPush connection] := by
  -- first `uv_close` is called
  let T : Tcp := { o.uvClose client with starting := none }
  let u : ObservedTcp := { T with accepted := o.accepted ++ [] }
  have hclose : (tcpMachine uvStrerror).step o.toTcp .errorPushed = some T :=
    congrArg (Option.map _) hstarting
  have hu : (observedMachine uvStrerror).step o .errorPushed = some u :=
    congrArg (Option.map _) hclose
  have hnew : NewIds o.toTcp .errorPushed := trivial
  have hlinked : Linked T.toUvTcpImpl T.handles :=
    (hconsistent.change hnew (.failed hstarting)).linked
  have hphase : (T.handles client).phase = .closing :=
    congrArg UvHandle.phase (Function.update_self client _ o.handles)
  have hknown : (T.handles client).phase ≠ .unknown := by simp [hphase]
  -- then the entry is removed
  obtain ⟨found, connection, hpointer, hfound, hclient, hid⟩ := hlinked.exists_entry hknown
  have hsame : found = connectionId := hlinked.entry_unique hsocket
    (socketAt_eq_some.2 ⟨connection, hfound, hclient⟩)
  have hremoved := onConnectionRemoved_eq hpointer hfound hid
  have hT : ∃ T', (tcpMachine uvStrerror).step T (.closed client) = some T' ∧
      T'.pushes = T.pushes ++ [closedPush connection] := by
    simp only [tcpMachine]
    rw [if_pos ⟨rfl, hphase⟩, hremoved]
    exact ⟨_, rfl, rfl⟩
  obtain ⟨T', hT', hpushes⟩ := hT
  let u' : ObservedTcp := { T' with accepted := u.accepted ++ [] }
  refine ⟨u', connection, ⟨[.errorPushed, .closed client], ?_⟩, hid.trans hsame, hpushes⟩
  exact .snoc (.snoc (.nil _) trivial hu) trivial (congrArg (Option.map _) hT')

/-- **After a step that does not meet the condition**, the packets need not be as they should be:
two connections have the same id, or one is closed that has not been announced. -/
theorem exists_not_lifecycle (h : (observedMachine uvStrerror).Reachable StartsNew {} o)
    {event : Event} (hnot : ¬ StartsNew o event)
    (hs : (observedMachine uvStrerror).step o event = some o') :
    ∃ o'', (observedMachine uvStrerror).Reachable Machine.free o' o'' ∧ ¬ Lifecycle o'' := by
  obtain ⟨hconsistent, htold⟩ := told_of_reachable h
  obtain ⟨incoming, rfl, hopens, hfails⟩ := exists_of_not_startsNew hnot
  obtain ⟨hadded, haccepted⟩ := added_of_step hopens hs
  by_cases hrepeats : Repeats o incoming
  · obtain ⟨a, ha, haddress, hport, hindex⟩ := hrepeats
    refine ⟨o', ⟨[], .nil _⟩, fun hlifecycle => ?_⟩
    have hids := hlifecycle.ids
    rw [haccepted, List.pairwise_append] at hids
    refine hids.2.2 a ha _ (List.mem_singleton_self _) ?_
    rw [htold.ids a ha]
    exact connectionIdFor_inj.2 ⟨haddress, hport, hindex⟩
  · have hread : incoming.readStartStatus ≠ 0 := fun hread => hrepeats (hfails hread)
    obtain ⟨errors, hpushes, herrors⟩ := hadded.pushes
    rw [if_pos hread, List.append_nil] at hpushes
    have hnew := htold.newIds_newConnection hconsistent hrepeats
    have hconsistent' := hconsistent.change hnew (.added hopens hadded)
    have hstarting : o'.starting = some incoming.client := hadded.starting.trans (if_pos hread)
    have hsocket : socketAt o'.mConnections (o.nextConnectionId incoming) =
        some incoming.client := by
      rw [hadded.tables, addConnection, socketAt_put, Function.update_self]
      rfl
    obtain ⟨o'', connection, hreach, hid, hclosed⟩ :=
      exists_closed_of_starting uvStrerror hconsistent' hstarting hsocket
    refine ⟨o'', hreach, fun hlifecycle => ?_⟩
    -- nothing has been told about the connection before
    have hlast : Tells o''.pushes o'.pushes.length "Connection Closed"
        (o.nextConnectionId incoming) := by
      rw [hclosed, ← hid]
      exact tells_last rfl describes_closedPush.find
    obtain ⟨j, hj, htells⟩ := hlifecycle.closedAfter _ _ hlast
    rw [hclosed] at htells
    rcases tells_concat htells with hold | ⟨rfl, -⟩
    · rw [hpushes] at hold
      obtain ⟨a, ha, heq⟩ := (htold.fits.errors herrors).exists_of_tells hold (by decide)
      exact htold.id_ne hrepeats a ha heq
    · exact lt_irrefl _ hj

/-! ### Before the index wraps around -/

/-- The indices of the connections have been drawn. -/
def IndicesDrawn (o : ObservedTcp) : Prop := ∀ a ∈ o.accepted, a.index < o.drawn

theorem IndicesDrawn.step (h : IndicesDrawn o) (hconsistent : Consistent o.toTcp) {event : Event}
    (hs : (observedMachine uvStrerror).step o event = some o') : IndicesDrawn o' := by
  obtain ⟨T, hT, rfl⟩ := Option.map_eq_some_iff.1 hs
  have hold : ∀ a ∈ o.accepted, a.index < T.drawn := fun a ha =>
    (h a ha).trans_le (step_cases hconsistent.linked hT).drawn_le
  intro a ha
  rcases List.mem_append.1 ha with ha | hnew
  · exact hold a ha
  · cases event with
    | newConnection incoming =>
      rw [acceptedBy] at hnew
      split at hnew
      · rename_i hopens
        rw [List.mem_singleton.1 hnew]
        exact Nat.lt_of_succ_le (added_of_step hopens hs).1.drawn.ge
      · cases hnew
    | _ => cases hnew

/-- **A connection that starts to be read has a new id** before the index wraps around. -/
theorem not_repeats_of_drawn_lt (h : (observedMachine uvStrerror).Reachable StartsNew {} o)
    (hdrawn : o.drawn < 2 ^ 64) (incoming : IncomingConnection) : ¬ Repeats o incoming := by
  have hindices : IndicesDrawn o := by
    refine (h.invariant (I := fun o => (Consistent o.toTcp ∧ Told o) ∧ IndicesDrawn o)
      ⟨⟨consistent_empty, told_empty⟩, by simp [IndicesDrawn]⟩ ?_).2
    rintro o event o' ⟨⟨hconsistent, htold⟩, hindices⟩ hok hs
    exact ⟨htold.step hconsistent hok hs, hindices.step hconsistent hs⟩
  rintro ⟨a, ha, -, -, hindex⟩
  rw [Nat.mod_eq_of_lt hdrawn, Nat.mod_eq_of_lt ((hindices a ha).trans hdrawn)] at hindex
  exact (hindices a ha).ne hindex

end

/-- Two connections: the first gets data and is disconnected, and the second ends. -/
def lifecycleEvents : List Event :=
  [.newConnection (loopback 1 5000 0), .newConnection (loopback 2 5001 0), .read 1 1 (bytes "x"),
    .disconnect (packetFor "127.0.0.1:5000 0"), .read 2 uvEof [], .closed 1, .closed 2]

theorem lifecycle_loopback :
    Lifecycle (((observedMachine fun _ => []).exec (fun o event => decide (StartsNew o event)) {}
      lifecycleEvents).getD {}) :=
  lifecycle_of_startsNew (fun _ => []) ((Machine.reachable_exec (by decide +kernel)).mono
    fun _ _ hok => of_decide_eq_true hok)

/-- **A connection whose read start fails** is said to be closed without having been announced. -/
theorem not_lifecycle_failedStart :
    ¬ ∀ o, (observedMachine fun _ => []).Reachable Machine.free {} o → Lifecycle o := by
  intro h
  have hrun : ((observedMachine fun _ => []).exec (fun _ _ => true) {}
      [.newConnection (loopback 1 5000 (-22)), .errorPushed, .closed 1]).isSome = true := by
    decide +kernel
  have hlifecycle := h _ ((Machine.reachable_exec hrun).mono fun _ _ _ => trivial)
  obtain ⟨i, hi, push, hpush, hchannel, -⟩ :=
    hlifecycle.closedAfter (bytes "127.0.0.1:5000 0") 1 ⟨_, rfl, rfl, rfl⟩
  obtain rfl := Nat.lt_one_iff.1 hi
  obtain rfl := Option.some.inj hpush
  exact absurd hchannel (by decide)

end Tcp

end Maplang
