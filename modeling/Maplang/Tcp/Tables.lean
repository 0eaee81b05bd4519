import Maplang.Tcp.Steps

/-!
# The tables of a TCP group

Each connection should be stored under its own id, with a socket, and the second table should map
these sockets to these connections.  This fails when the Sender looks an unknown id up: the lookup
inserts an entry without a socket.

## Main definitions

* `TablesOk` : what is asked of the tables.
* `KnownIds` : the step condition for Sender packets.

## Main results

* `tablesOk_iff` : as long as all steps meet the condition, the tables are as they should be; a step
  keeps them so exactly if it meets the condition.
* `not_tablesOk_unknownId` : a Sender packet with an unknown id.
-/

namespace Maplang

namespace Tcp

/-! ### What is asked -/

/-- The tables belong together. -/
structure TablesOk (tables : UvTcpImpl) : Prop where
  /-- Each entry is stored under its own id, and has a socket. -/
  connections : ∀ connectionId connection,
    tables.mConnections.lookup connectionId = some connection →
      connection.connectionId = connectionId ∧ connection.uvSocket ≠ none
  /-- The sockets of the entries are mapped to the entries, and nothing else is mapped. -/
  clients : ∀ client pointer, tables.mUvClientToConnection.lookup client = some pointer ↔
    ∃ connectionId connection, pointer = some connectionId ∧
      tables.mConnections.lookup connectionId = some connection ∧
      connection.uvSocket = some client

/-- A packet for the Sender or the Disconnector has an id that is not in the table. -/
def NamesNoEntry (T : Tcp) : Event → Prop
  | .send packet | .disconnect packet =>
    ∃ connectionId, connectionIdOf packet = .ok connectionId ∧
      T.mConnections.lookup connectionId = none
  | _ => False

/-- The id of a Sender packet is in the table.  It is an assumption that such a packet has a buffer:
without one `sendData` is undefined, and makes no step. -/
def KnownIds (T : Tcp) : Event → Prop
  | .send packet => ∀ connectionId ∈ (connectionIdOf packet).toOption,
    (T.mConnections.lookup connectionId).isSome = true
  | _ => True

instance (T : Tcp) : DecidablePred T.KnownIds
  | .send _ => inferInstanceAs (Decidable (∀ _ ∈ _, _))
  | .newConnection _ | .errorPushed | .read _ _ _ | .disconnect _ | .closed _ | .indexDrawn =>
    inferInstanceAs (Decidable True)

section

variable {uvStrerror : ℤ → ByteString} {T T' : Tcp}

/-- All entries have a socket. -/
def HasSockets (tables : UvTcpImpl) : Prop :=
  tables.mConnections.All fun _ connection => connection.uvSocket ≠ none

theorem Linked.tablesOk {tables : UvTcpImpl} {handles : ℕ → UvHandle} (h : Linked tables handles)
    (hsockets : HasSockets tables) : TablesOk tables where
  connections connectionId connection hfound :=
    have hsocket := hsockets connectionId connection hfound
    ⟨h.own connectionId connection hfound hsocket, hsocket⟩
  clients client pointer := by
    rw [h.clients client pointer]
    simp only [socketAt_eq_some, exists_and_left]

theorem HasSockets.change (h : HasSockets T.toUvTcpImpl) {event : Event} (hknown : KnownIds T event)
    (hc : Change T event T') : HasSockets T'.toUvTcpImpl := by
  refine hc.all h (fun _ _ => Option.some_ne_none _) (fun _ _ _ hsocket => hsocket) ?_
  rintro packet connectionId rfl hid hnone
  have hsome := hknown connectionId (by rw [hid]; rfl)
  rw [hnone] at hsome
  cases hsome

/-! ### Runs that keep the tables -/

/-- The step condition of the tables. -/
def KeepsTables (T : Tcp) (event : Event) : Prop := NewIds T event ∧ KnownIds T event

instance (T : Tcp) : DecidablePred T.KeepsTables := fun _ => inferInstanceAs (Decidable (_ ∧ _))

theorem tablesOk_of_reachable (h : (tcpMachine uvStrerror).Reachable KeepsTables {} T) :
    TablesOk T.toUvTcpImpl := by
  obtain ⟨hconsistent, hsockets⟩ := consistent_and_of_reachable (fun _ _ hok => hok.1)
    (I := fun T => HasSockets T.toUvTcpImpl) UnorderedMap.all_empty
    (fun _ _ _ _ hsockets hok hc => hsockets.change hok.2 hc) h
  exact hconsistent.linked.tablesOk hsockets

/-- An id that is not new takes the entry away from its socket. -/
theorem newIds_of_tablesOk (h : Consistent T) {event : Event}
    (hs : (tcpMachine uvStrerror).step T event = some T') (hok : TablesOk T'.toUvTcpImpl) :
    NewIds T event := by
  cases event with
  | newConnection incoming =>
    intro hopens
    by_contra hne
    obtain ⟨handle, hhandle⟩ := Option.ne_none_iff_exists'.1 hne
    simp only [tcpMachine] at hs
    split at hs
    · rename_i hready
      obtain rfl := Option.some.inj hs
      have hadded : Added T incoming (T.onNewIncomingConnection uvStrerror incoming) :=
        onNewIncomingConnection_of_opens hopens hready.1 hready.2
      have hother : handle ≠ incoming.client := by
        rintro rfl
        exact h.linked.known_of_socketAt hhandle hready.2.1
      -- the old socket still points to the entry, which has the new one
      have hpointer := (h.linked.clients handle _).2 ⟨_, rfl, hhandle⟩
      have hpointer' := hok.clients handle (some (T.nextConnectionId incoming))
      rw [hadded.tables, addConnection, UnorderedMap.lookup_put, if_neg hother] at hpointer'
      obtain ⟨connectionId, connection', heq, hfound', hsocket'⟩ := hpointer'.1 hpointer
      rw [UnorderedMap.lookup_put, if_pos (Option.some.inj heq).symm] at hfound'
      obtain rfl := Option.some.inj hfound'
      exact hother (Option.some.inj hsocket').symm
    · cases hs
  | _ => trivial

/-- An id that is not known is inserted. -/
theorem knownIds_of_same {event : Event} (hs : (tcpMachine uvStrerror).step T event = some T')
    (hsame : NamesNoEntry T event → T'.toUvTcpImpl = T.toUvTcpImpl) : KnownIds T event := by
  cases event with
  | send packet =>
    intro connectionId hid
    by_contra hnone
    rw [Bool.not_eq_true, Option.isSome_eq_false_iff, Option.isNone_iff_eq_none] at hnone
    have hok := connectionIdOf_eq_ok hid
    have htables := (sendData_ok hok hs).2.1
    rw [hsame ⟨connectionId, hok, hnone⟩] at htables
    have hlookup : T.mConnections.lookup connectionId = some {} := by
      rw [htables, UnorderedMap.lookup_touch, if_pos rfl, hnone, Option.getD_none]
    cases hnone.symm.trans hlookup
  | _ => trivial

/-- A Disconnector packet with an unknown id changes nothing. -/
theorem same_of_namesNoEntry {event : Event} (hknown : KnownIds T event)
    (hs : (tcpMachine uvStrerror).step T event = some T') (hno : NamesNoEntry T event) :
    T'.toUvTcpImpl = T.toUvTcpImpl := by
  cases event with
  | send packet =>
    obtain ⟨connectionId, hid, hnone⟩ := hno
    have hsome := hknown connectionId (by rw [hid]; rfl)
    rw [hnone] at hsome
    cases hsome
  | disconnect packet =>
    obtain ⟨connectionId, hid, hnone⟩ := hno
    simp only [tcpMachine, disconnect, hid, bind, Except.bind, hnone] at hs
    obtain rfl := Option.some.inj hs
    rfl
  | newConnection _ | errorPushed | read _ _ _ | closed _ | indexDrawn => cases hno

/-- **When the tables of a TCP group stay as they should be.**  In every state that is reached with
steps that meet the condition (the ids of Sender packets are in the table, and the ids of new
connections are not those of other ones), they belong together.  The next step keeps them so, and
changes nothing if it handles a packet with an unknown id, exactly if it meets the condition. -/
theorem tablesOk_iff (uvStrerror : ℤ → ByteString) {T : Tcp}
    (h : (tcpMachine uvStrerror).Reachable KeepsTables {} T) :
    TablesOk T.toUvTcpImpl ∧ ∀ event T', (tcpMachine uvStrerror).step T event = some T' →
      (TablesOk T'.toUvTcpImpl ∧ (NamesNoEntry T event → T'.toUvTcpImpl = T.toUvTcpImpl) ↔
        KeepsTables T event) := by
  have hconsistent := consistent_of_reachable (fun _ _ hok => hok.1) h
  refine ⟨tablesOk_of_reachable h, fun event T' hs => ⟨fun hkept => ?_, fun hok => ?_⟩⟩
  · exact ⟨newIds_of_tablesOk hconsistent hs hkept.1, knownIds_of_same hs hkept.2⟩
  · obtain ⟨events, hrun⟩ := h
    exact ⟨tablesOk_of_reachable ⟨_, hrun.snoc hok hs⟩, same_of_namesNoEntry hok.2 hs⟩

end

/-- Two connections, one of which closes after a packet has been sent to it. -/
def tableEvents : List Event :=
  [.newConnection (loopback 1 5000 0), .newConnection (loopback 2 5001 0),
    .send (packetFor "127.0.0.1:5000 0"), .read 1 uvEof [], .closed 1]

theorem tablesOk_iff_loopback :
    TablesOk (((tcpMachine fun _ => []).exec (fun T event => decide (KeepsTables T event)) {}
      tableEvents).getD {}).toUvTcpImpl :=
  (tablesOk_iff (fun _ => []) ((Machine.reachable_exec (by decide +kernel)).mono
    fun _ _ hok => of_decide_eq_true hok)).1

/-- **A Sender packet with an unknown id** puts an entry without a socket into the table. -/
theorem not_tablesOk_unknownId :
    ¬ ∀ T, (tcpMachine fun _ => []).Reachable Machine.free {} T → TablesOk T.toUvTcpImpl ∧
      ∀ event T', (tcpMachine fun _ => []).step T event = some T' →
        NamesNoEntry T event → T'.toUvTcpImpl = T.toUvTcpImpl := by
  intro h
  obtain ⟨T, hT⟩ : ∃ T, (tcpMachine fun _ => []).step {} (.send (packetFor "unknown")) = some T :=
    ⟨_, rfl⟩
  have hsame := (h {} ⟨[], .nil _⟩).2 _ T hT ⟨bytes "unknown", rfl, rfl⟩
  have hid : connectionIdOf (packetFor "unknown") = .ok (bytes "unknown") := rfl
  have hsent : after {} (sendData {} (packetFor "unknown")) = some T := hT
  have htables := (sendData_ok hid hsent).2.1
  have hlookup := congrArg (·.mConnections.lookup (bytes "unknown")) (hsame.symm.trans htables)
  cases hlookup

end Tcp

end Maplang
