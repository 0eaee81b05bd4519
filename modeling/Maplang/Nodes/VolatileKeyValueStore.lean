import Maplang.Cpp.UnorderedMap
import Maplang.Machine.Service
import Maplang.Stream.Buffer
import Maplang.Table.History

/-!
# Packets by key

The handlers of a `VolatileKeyValueStore` share a map from keys to packets.  One stores a packet and
one sends what is stored.

As in `VolatileKeyValueSet`, the constructors of the handlers take a pointer to the map and do not
keep it.  With the pointer there would be a map, but one whose first write for a key wins: packets
are stored with `emplace`, which does not overwrite.  As there, it is an assumption that the two
classes `Getter` are kept apart.

## Main definitions

* `Setter.handlePacket`, `Getter.handlePacket`, `construct` : the code.
* `withStorage` : a group whose handlers hold a given pointer.
* `Asked`, `ActsAsMap` : what the group is for, if what it has for a key is the `latest` or the
  `earliest` write.

## Main results

* `actsAsMap_earliest` : with the pointer the first write wins.
* `actsAsMap_latest_iff` : with the pointer the last write wins as long as it has written what the
  first one has, for each key that is asked for.
* `lastWriteWins_iff` : a group as it is constructed is a map as long as it is not used.
-/

namespace Maplang

namespace VolatileKeyValueStore

/-! ### The code -/

/-- `StorageMap`. -/
abbrev StorageMap := UnorderedMap ByteString Packet

/-- `class Setter`. -/
structure Setter where
  mKeyName : ByteString
  mRetainBuffers : Bool
  mStorage : SharedPtr := .nullptr

/-- `Setter::Setter`, which has no initialiser for `mStorage`. -/
def Setter.construct (_storage : SharedPtr) (keyName : ByteString) (retainBuffers : Bool) :
    Setter where
  mKeyName := keyName
  mRetainBuffers := retainBuffers

/-- The packet that `Setter::handlePacket` stores. -/
def Setter.stored (mRetainBuffers : Bool) (incomingPacket : Packet) : Packet where
  parameters := incomingPacket.parameters
  buffers := if mRetainBuffers then incomingPacket.buffers else []

/-- `Setter::handlePacket`. -/
def Setter.handlePacket (x : Setter) (storage : StorageMap) (incomingPacket : Packet) :
    Code (List Push × StorageMap) := do
  match ← incomingPacket.parameters.get x.mKeyName with
  | .string key =>
    let storage ← x.mStorage.deref storage
    -- `emplace`: a key that is there keeps its packet
    return ([], storage.touch key (Setter.stored x.mRetainBuffers incomingPacket))
  | _ => return ([], storage)

/-- `class Getter`. -/
structure Getter where
  mKeyName : ByteString
  mStorage : SharedPtr := .nullptr

/-- `Getter::Getter`, which has no initialiser for `mStorage`. -/
def Getter.construct (_storage : SharedPtr) (keyName : ByteString) : Getter where
  mKeyName := keyName

/-- What `Getter::handlePacket` sends for a key. -/
def Getter.answer (key : ByteString) : Option Packet → Push
  | none =>
    { packet := { parameters := .object [(bytes "keyNotPresent", .string key)] }
      channel := "keyNotFound" }
  | some result => { packet := result, channel := "gotValue" }

/-- `Getter::handlePacket`. -/
def Getter.handlePacket (x : Getter) (storage : StorageMap) (incomingPacket : Packet) :
    Code (List Push × StorageMap) := do
  let key ← (← incomingPacket.parameters.get x.mKeyName).getString
  let storage ← x.mStorage.deref storage
  return ([Getter.answer key (storage.lookup key)], storage)

/-- The node of a partition. -/
inductive Node where
  | set (x : Setter)
  | get (x : Getter)

/-- The `handlePacket` of a node. -/
def Node.handlePacket : Node → StorageMap → Packet → Code (List Push × StorageMap)
  | .set x => x.handlePacket
  | .get x => x.handlePacket

/-- The names of the partitions. -/
inductive Interface where
  | set
  | get
  deriving DecidableEq, Repr

end VolatileKeyValueStore

open VolatileKeyValueStore in
/-- `class VolatileKeyValueStore`. -/
structure VolatileKeyValueStore where
  mPartitions : Interface → Node

namespace VolatileKeyValueStore

/-- `VolatileKeyValueStore::VolatileKeyValueStore`, less the output.  The storage is a new map. -/
def construct (initParameters : Json) : Code VolatileKeyValueStore :=
  if (initParameters.find (bytes "key")).isNone then
    throwRuntimeError "VolatileKeyValueStore parameters must contain 'key'."
  else do
    let keyName ← (← initParameters.get (bytes "key")).getString
    let retainBuffers ← initParameters.flagAt (bytes "retainBuffers")
    let storage := SharedPtr.object
    let setter := Node.set (.construct storage keyName retainBuffers)
    let getter := Node.get (.construct storage keyName)
    return { mPartitions := fun
      | .set => setter
      | .get => getter }

/-- A packet, and the interface it is sent to. -/
structure Call where
  interface : Interface
  packet : Packet

/-- A packet is handled by the node of its interface. -/
def handlePacket (x : VolatileKeyValueStore) (storage : StorageMap) (call : Call) :
    Code (List Push × StorageMap) :=
  (x.mPartitions call.interface).handlePacket storage call.packet

/-! ### What the group is for -/

/-- A group whose handlers hold a pointer. -/
def withStorage (mStorage : SharedPtr) (keyName : ByteString) (retainBuffers : Bool) :
    VolatileKeyValueStore where
  mPartitions
    | .set => .set { mKeyName := keyName, mRetainBuffers := retainBuffers, mStorage }
    | .get => .get { mKeyName := keyName, mStorage }

/-- The key of a packet. -/
def Call.key (keyName : ByteString) (call : Call) : ByteString :=
  call.packet.parameters.stringAt keyName

/-- The key of a packet is a string. -/
def Call.HasString (keyName : ByteString) (call : Call) : Prop :=
  ∃ key, call.packet.parameters.find keyName = some (.string key)

/-- The packets that were to be stored. -/
def writes (keyName : ByteString) (retainBuffers : Bool) (calls : List Call) :
    List (ByteString × Packet) :=
  (calls.filter (·.interface = .set)).map fun call =>
    (call.key keyName, Setter.stored retainBuffers call.packet)

/-- What is asked of a packet, after those that have been handled; `wins` says which of the writes
for a key is sent. -/
structure Asked (wins : List (ByteString × Packet) → ByteString → Option Packet)
    (keyName : ByteString) (retainBuffers : Bool) (x : VolatileKeyValueStore) (served : List Call)
    (storage : StorageMap) (call : Call) (pushes : List Push) (storage' : StorageMap) : Prop where
  answers : call.interface = .get → pushes = [Getter.answer (call.key keyName)
    (wins (writes keyName retainBuffers served) (call.key keyName))]
  /-- A write changes nothing for other keys. -/
  others : call.interface = .set → ∀ other : Call, other.interface = .get →
    other.HasString keyName → other.key keyName ≠ call.key keyName →
      (x.handlePacket storage' other).map Prod.fst = (x.handlePacket storage other).map Prod.fst

/-- The group handles all packets, as a map from keys to packets. -/
def ActsAsMap (wins : List (ByteString × Packet) → ByteString → Option Packet)
    (keyName : ByteString) (retainBuffers : Bool) (x : VolatileKeyValueStore) (calls : List Call) :
    Prop :=
  Service.Serves x.handlePacket (Asked wins keyName retainBuffers x) ∅ calls

/-! ### With the pointer -/

section

variable {keyName : ByteString} {retainBuffers : Bool} {storage : StorageMap} {call : Call}
  {calls served : List Call}

/-- What each interface does with the storage that the pointer leads to. -/
def perform (keyName : ByteString) (retainBuffers : Bool) (call : Call) (storage : StorageMap) :
    List Push × StorageMap :=
  match call.interface with
  | .set => ([], storage.touch (call.key keyName) (Setter.stored retainBuffers call.packet))
  | .get => ([Getter.answer (call.key keyName) (storage.lookup (call.key keyName))], storage)

theorem handlePacket_withStorage (pointer : SharedPtr) (retainBuffers : Bool)
    (storage : StorageMap) (h : call.HasString keyName) :
    (withStorage pointer keyName retainBuffers).handlePacket storage call =
      (pointer.deref storage).map (perform keyName retainBuffers call) := by
  obtain ⟨interface, packet⟩ := call
  obtain ⟨key, hkey⟩ := h
  have hget := Json.get_of_find hkey
  have hstring := Json.stringAt_of_find hkey
  cases interface with
  | set =>
    have hperform : perform keyName retainBuffers ⟨.set, packet⟩ =
        fun storage => ([], storage.touch key (Setter.stored retainBuffers packet)) := by
      funext storage
      rw [← hstring]
      rfl
    change Setter.handlePacket _ storage packet = _
    rw [Setter.handlePacket, hget, hperform]
    cases pointer <;> rfl
  | get =>
    have hperform : perform keyName retainBuffers ⟨.get, packet⟩ =
        fun storage => ([Getter.answer key (storage.lookup key)], storage) := by
      funext storage
      rw [← hstring]
      rfl
    change Getter.handlePacket _ storage packet = _
    rw [Getter.handlePacket, hget, hperform]
    cases pointer <;> rfl

theorem writes_concat_set (h : call.interface = .set) :
    writes keyName retainBuffers (served ++ [call]) = writes keyName retainBuffers served ++
      [(call.key keyName, Setter.stored retainBuffers call.packet)] := by
  rw [writes, List.filter_append, List.map_append, List.filter_cons_of_pos (by simpa using h)]
  rfl

theorem writes_concat_get (h : call.interface = .get) :
    writes keyName retainBuffers (served ++ [call]) = writes keyName retainBuffers served := by
  rw [writes, List.filter_append, List.filter_cons_of_neg (by simp [h]), List.filter_nil,
    List.append_nil]
  rfl

/-- The storage has the first packet for each key. -/
def Keeps (keyName : ByteString) (retainBuffers : Bool) (served : List Call)
    (storage : StorageMap) : Prop :=
  ∀ key, storage.lookup key = earliest (writes keyName retainBuffers served) key

theorem Keeps.concat (h : Keeps keyName retainBuffers served storage) (call : Call) :
    Keeps keyName retainBuffers (served ++ [call])
      (perform keyName retainBuffers call storage).2 := by
  intro key
  unfold perform
  cases hinterface : call.interface with
  | set =>
    rw [writes_concat_set hinterface, earliest_concat, UnorderedMap.lookup_touch, h, h]
    by_cases hkey : key = call.key keyName
    · rw [if_pos hkey, if_pos hkey, hkey]
      cases earliest (writes keyName retainBuffers served) (call.key keyName) <;> rfl
    · rw [if_neg hkey, if_neg hkey, Option.or_none]
  | get =>
    rw [writes_concat_get hinterface]
    exact h key

/-- A write does not change what is read for another key. -/
theorem perform_other {other : Call} (hset : call.interface = .set) (hget : other.interface = .get)
    (hne : other.key keyName ≠ call.key keyName) :
    (perform keyName retainBuffers other (perform keyName retainBuffers call storage).2).1 =
      (perform keyName retainBuffers other storage).1 := by
  unfold perform
  rw [hset, hget]
  change [Getter.answer _ _] = [Getter.answer _ _]
  rw [UnorderedMap.lookup_touch, if_neg hne]

/-- **With the pointer to the storage** the group is a map whose first write for a key wins. -/
theorem actsAsMap_earliest (retainBuffers : Bool)
    (hcalls : ∀ call ∈ calls, call.HasString keyName) :
    ActsAsMap earliest keyName retainBuffers (withStorage .object keyName retainBuffers) calls := by
  refine Service.serves_of_invariant (I := Keeps keyName retainBuffers) (fun _ => rfl)
    fun served call storage hmem hkeeps => ?_
  have hserve := handlePacket_withStorage .object retainBuffers storage (hcalls call hmem)
  refine ⟨_, _, hserve, ⟨fun hget => ?_, fun hset other hother hstring hne => ?_⟩,
    hkeeps.concat call⟩
  · rw [hget, ← hkeeps]
  · rw [handlePacket_withStorage _ _ _ hstring, handlePacket_withStorage _ _ _ hstring]
    exact congrArg Except.ok (perform_other hset hother hne)

theorem answer_injective (key : ByteString) : Function.Injective (Getter.answer key) := by
  intro a b h
  cases a <;> cases b
  · rfl
  · exact absurd (congrArg Push.channel h) (show "keyNotFound" ≠ "gotValue" by decide)
  · exact absurd (congrArg Push.channel h) (show "gotValue" ≠ "keyNotFound" by decide)
  · exact congrArg some (congrArg Push.packet h)

/-- **Even with the pointer** the last write wins only where it has written what the first one
has. -/
theorem actsAsMap_latest_iff (hcalls : ∀ call ∈ calls, call.HasString keyName) :
    ActsAsMap latest keyName retainBuffers (withStorage .object keyName retainBuffers) calls ↔
      ∀ served call rest, calls = served ++ call :: rest → call.interface = .get →
        latest (writes keyName retainBuffers served) (call.key keyName) =
          earliest (writes keyName retainBuffers served) (call.key keyName) := by
  have hearliest := actsAsMap_earliest retainBuffers hcalls
  constructor
  · intro h served call rest hsplit hget
    obtain ⟨u, pushes, u', hafter, hserve, hasked⟩ := h served call rest hsplit
    obtain ⟨v, pushes', v', hafter', hserve', hasked'⟩ := hearliest served call rest hsplit
    obtain rfl := Except.ok.inj (hafter.symm.trans hafter')
    obtain ⟨rfl, -⟩ := ok_pair_unique hserve hserve'
    exact answer_injective _
      (List.singleton_inj.1 ((hasked.answers hget).symm.trans (hasked'.answers hget)))
  · intro h served call rest hsplit
    obtain ⟨u, pushes, u', hafter, hserve, hasked⟩ := hearliest served call rest hsplit
    refine ⟨u, pushes, u', hafter, hserve, fun hget => ?_, hasked.others⟩
    rw [h served call rest hsplit hget]
    exact hasked.answers hget

end

/-! ### As it is constructed -/

/-- The handlers of a constructed group have no pointer. -/
theorem construct_spec {initParameters : Json} {x : VolatileKeyValueStore} {keyName : ByteString}
    {retainBuffers : Bool} (hx : construct initParameters = .ok x)
    (hkey : initParameters.find (bytes "key") = some (.string keyName))
    (hflag : initParameters.flagAt (bytes "retainBuffers") = .ok retainBuffers) :
    x = withStorage .nullptr keyName retainBuffers := by
  rw [construct, hkey, Json.get_of_find hkey, hflag] at hx
  exact (Except.ok.inj hx).symm

/-- **The handlers have no storage**: a group as it is constructed is a map as long as nothing is
sent to it. -/
theorem lastWriteWins_iff {initParameters : Json} {x : VolatileKeyValueStore} {keyName : ByteString}
    {retainBuffers : Bool} (hx : construct initParameters = .ok x)
    (hkey : initParameters.find (bytes "key") = some (.string keyName))
    (hflag : initParameters.flagAt (bytes "retainBuffers") = .ok retainBuffers)
    {calls : List Call} (hcalls : ∀ call ∈ calls, call.HasString keyName) :
    ActsAsMap latest keyName retainBuffers x calls ↔ calls = [] := by
  rw [construct_spec hx hkey hflag]
  exact Service.serves_iff_eq_nil fun call hmem =>
    ⟨_, handlePacket_withStorage .nullptr _ _ (hcalls call hmem)⟩

/-- `{"key": "k"}`. -/
def oneString (key : String) : Json := .object [(bytes "key", .string (bytes key))]

/-- The packet `{"key": "a"}` to "set". -/
def setCall : Call where
  interface := .set
  packet := { parameters := oneString "a" }

theorem hasString_setCall : setCall.HasString (bytes "key") := ⟨bytes "a", rfl⟩

theorem construct_oneString : construct (oneString "key") =
    .ok (withStorage .nullptr (bytes "key") false) := rfl

/-- One packet to a constructed group. -/
theorem lastWriteWins_iff_set :
    ActsAsMap latest (bytes "key") false (withStorage .nullptr (bytes "key") false) [setCall] ↔
      [setCall] = [] :=
  lastWriteWins_iff construct_oneString rfl rfl fun _ hmem =>
    List.mem_singleton.1 hmem ▸ hasString_setCall

/-- A packet is stored in a constructed group, which fails. -/
theorem not_lastWriteWins_set : ¬ ∀ {initParameters : Json} {x : VolatileKeyValueStore}
    {keyName : ByteString} {retainBuffers : Bool}, construct initParameters = .ok x →
    initParameters.find (bytes "key") = some (.string keyName) →
    initParameters.flagAt (bytes "retainBuffers") = .ok retainBuffers →
    ∀ {calls : List Call}, (∀ call ∈ calls, call.HasString keyName) →
      ActsAsMap latest keyName retainBuffers x calls := by
  intro h
  have hset := h construct_oneString rfl rfl
    fun _ hmem => List.mem_singleton.1 hmem ▸ hasString_setCall
  obtain ⟨storage, pushes, storage', hafter, hserve, -⟩ := hset [] setCall [] rfl
  obtain rfl : ∅ = storage := Except.ok.inj hafter
  cases hserve

end VolatileKeyValueStore

end Maplang
