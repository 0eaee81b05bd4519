import Maplang.Cpp.UnorderedSet
import Maplang.Machine.Service
import Maplang.Stream.Buffer
import Maplang.Table.History

/-!
# Sets of values by key

The handlers of a `VolatileKeyValueSet` share a map from keys to sets of values.  One adds a value,
one sends the values of a key, and one removes a value.

The constructors of the handlers take a pointer to the map and do not keep it.  With the pointer the
handlers do what they are for; without it each of them dereferences null as soon as it has read its
parameters.

It is an assumption that the class `Getter` of this group and the one of `VolatileKeyValueStore` are
kept apart: both have external linkage in one namespace.

## Main definitions

* `Adder.handlePacket`, `Getter.handlePacket`, `Remover.handlePacket`, `RemoveAll.handlePacket`,
  `construct` : the code.
* `withStorage` : a group whose handlers hold a given pointer.
* `Asked`, `ActsAsSets` : what the group is for, by the values that have been added for a key and
  not since removed.

## Main results

* `actsAsSets_withStorage` : with the pointer the group is a map from keys to sets.
* `actsAsSets_iff` : a group as it is constructed is one as long as it is not used.
-/

namespace Maplang

namespace VolatileKeyValueSet

/-! ### The code -/

/-- `StorageMap`. -/
abbrev StorageMap := UnorderedMap ByteString (UnorderedSet ByteString)

/-- `kParameter_KeyWhichIsNotPresent`. -/
def kParameter_KeyWhichIsNotPresent : ByteString := bytes "keyWhichIsNotPresent"

/-- `kParameter_ValueWhichIsNotPresent`. -/
def kParameter_ValueWhichIsNotPresent : ByteString := bytes "valueWhichIsNotPresent"

/-- `kChannel_GotValue`. -/
def kChannel_GotValue : String := "Got Value"

/-- `kChannel_KeyNotFound`. -/
def kChannel_KeyNotFound : String := "Key Not Found"

/-- `kChannel_ValueNotFound`. -/
def kChannel_ValueNotFound : String := "Value Not Found"

/-- `kChannel_RemovedValue`. -/
def kChannel_RemovedValue : String := "Removed Value"

/-- The members of the classes `Adder`, `Getter`, `Remover` and `RemoveAll`. -/
structure Handler where
  mKeyName : ByteString
  mValueName : ByteString
  mStorage : SharedPtr := .nullptr

/-- The constructors of the four classes.  They have no initialiser for `mStorage`. -/
def Handler.construct (_storage : SharedPtr) (keyName valueName : ByteString) : Handler where
  mKeyName := keyName
  mValueName := valueName

/-- `sendErrorPacket`, when the parameter with a name is missing. -/
def lookupMissing (errorName errorMessage : String) (name : ByteString) : Push where
  packet := { parameters := .object (Json.setMember [(bytes "errorName", .string (bytes errorName))]
    (bytes "errorMessage") (.string (bytes errorMessage ++ name))) }
  channel := "error"

/-- The packet that is sent when the key is missing. -/
def keyLookupMissing (name : ByteString) : Push :=
  lookupMissing "Key-lookup missing" "Missing parameter for key-lookup: " name

/-- The packet that is sent when the value is missing. -/
def valueLookupMissing (name : ByteString) : Push :=
  lookupMissing "Value-lookup missing" "Missing parameter for value-lookup: " name

/-- The checks at the start of three of the handlers: what is sent if one of them fails. -/
def Handler.checkParameters (x : Handler) (parameters : Json) : Option Push :=
  if (parameters.find x.mKeyName).isNone then some (keyLookupMissing x.mKeyName)
  else if (parameters.find x.mValueName).isNone then some (valueLookupMissing x.mValueName)
  else none

/-- A `notFoundPacket`. -/
def notFound (parameter name : ByteString) (channel : String) : Push where
  packet := { parameters := .object [(parameter, .string name)] }
  channel := channel

/-- A `packetWithValues`. -/
def withValues (keyName valueName key : ByteString) (value : Json) (channel : String) : Push where
  packet := { parameters := .object (Json.setMember [(keyName, .string key)] valueName value) }
  channel := channel

/-- The array that the loop over a set makes. -/
def jsonValues (values : UnorderedSet ByteString) : Json := .array (values.values.map .string)

/-- What `Adder::handlePacket` does with the storage. -/
def Adder.add (key value : ByteString) (storage : StorageMap) : Code (List Push × StorageMap) :=
  let storage := storage.touch key ∅
  match storage.lookup key with
  | none => .error (.exception "std::out_of_range")
  | some existingValues =>
    .ok ([{ packet := {}, channel := "added" }], storage.put key (existingValues.emplace value))

/-- `Adder::handlePacket`. -/
def Adder.handlePacket (x : Handler) (storage : StorageMap) (incomingPacket : Packet) :
    Code (List Push × StorageMap) :=
  match x.checkParameters incomingPacket.parameters with
  | some errorPacket => .ok ([errorPacket], storage)
  | none => do
    match ← incomingPacket.parameters.get x.mKeyName with
    | .string key =>
      let value ← (← incomingPacket.parameters.get x.mValueName).getString
      let storage ← x.mStorage.deref storage
      Adder.add key value storage
    | _ => return ([], storage)

/-- What `Getter::handlePacket` does with the storage. -/
def Getter.get (keyName valueName key : ByteString) (storage : StorageMap) :
    Code (List Push × StorageMap) :=
  match storage.lookup key with
  | none => .ok ([notFound kParameter_KeyWhichIsNotPresent key kChannel_ValueNotFound], storage)
  | some values =>
    .ok ([withValues keyName valueName key (jsonValues values) kChannel_GotValue], storage)

/-- `Getter::handlePacket`. -/
def Getter.handlePacket (x : Handler) (storage : StorageMap) (incomingPacket : Packet) :
    Code (List Push × StorageMap) :=
  if (incomingPacket.parameters.find x.mKeyName).isNone then
    .ok ([keyLookupMissing x.mKeyName], storage)
  else do
    let key ← (← incomingPacket.parameters.get x.mKeyName).getString
    let storage ← x.mStorage.deref storage
    Getter.get x.mKeyName x.mValueName key storage

/-- What `Remover::handlePacket` does with the storage. -/
def Remover.remove (keyName valueName key value : ByteString) (storage : StorageMap) :
    Code (List Push × StorageMap) :=
  match storage.lookup key with
  | none => .ok ([notFound kParameter_KeyWhichIsNotPresent key kChannel_KeyNotFound], storage)
  | some values =>
    if value ∉ values then
      .ok ([notFound kParameter_ValueWhichIsNotPresent value kChannel_ValueNotFound], storage)
    else
      let values := values.erase value
      let storage := storage.put key values
      let storage := if values.empty then storage.erase key else storage
      .ok ([withValues keyName valueName key (.string value) kChannel_RemovedValue], storage)

/-- `Remover::handlePacket`. -/
def Remover.handlePacket (x : Handler) (storage : StorageMap) (incomingPacket : Packet) :
    Code (List Push × StorageMap) :=
  match x.checkParameters incomingPacket.parameters with
  | some errorPacket => .ok ([errorPacket], storage)
  | none => do
    let key ← (← incomingPacket.parameters.get x.mKeyName).getString
    let value ← (← incomingPacket.parameters.get x.mValueName).getString
    let storage ← x.mStorage.deref storage
    Remover.remove x.mKeyName x.mValueName key value storage

/-- What `RemoveAll::handlePacket` does with the storage: it removes nothing. -/
def RemoveAll.remove (keyName valueName key value : ByteString) (storage : StorageMap) :
    Code (List Push × StorageMap) :=
  match storage.lookup key with
  | none => .ok ([notFound kParameter_KeyWhichIsNotPresent key kChannel_KeyNotFound], storage)
  | some values =>
    let removedValuesJsonArray := jsonValues values
    if value ∉ values then
      .ok ([notFound kParameter_ValueWhichIsNotPresent value kChannel_ValueNotFound], storage)
    else
      .ok ([withValues keyName valueName key removedValuesJsonArray kChannel_RemovedValue], storage)

/-- `RemoveAll::handlePacket`. -/
def RemoveAll.handlePacket (x : Handler) (storage : StorageMap) (incomingPacket : Packet) :
    Code (List Push × StorageMap) :=
  match x.checkParameters incomingPacket.parameters with
  | some errorPacket => .ok ([errorPacket], storage)
  | none => do
    let key ← (← incomingPacket.parameters.get x.mKeyName).getString
    let value ← (← incomingPacket.parameters.get x.mValueName).getString
    let storage ← x.mStorage.deref storage
    RemoveAll.remove x.mKeyName x.mValueName key value storage

/-- The node of a partition. -/
inductive Node where
  | Adder (x : Handler)
  | Getter (x : Handler)
  | Remover (x : Handler)
  | RemoveAll (x : Handler)

/-- The `handlePacket` of a node. -/
def Node.handlePacket : Node → StorageMap → Packet → Code (List Push × StorageMap)
  | .Adder x => VolatileKeyValueSet.Adder.handlePacket x
  | .Getter x => VolatileKeyValueSet.Getter.handlePacket x
  | .Remover x => VolatileKeyValueSet.Remover.handlePacket x
  | .RemoveAll x => VolatileKeyValueSet.RemoveAll.handlePacket x

/-- The names of the partitions. -/
inductive Interface where
  | Adder
  | Getter
  | Remover
  | RemoveAll
  deriving DecidableEq, Repr

end VolatileKeyValueSet

open VolatileKeyValueSet in
/-- `class VolatileKeyValueSet`. -/
structure VolatileKeyValueSet where
  mPartitions : Interface → Node

namespace VolatileKeyValueSet

/-- `VolatileKeyValueSet::VolatileKeyValueSet`, less the output.  The storage is a new map, and
`remover` is registered under "Remove All", too. -/
def construct (initParameters : Json) : Code VolatileKeyValueSet :=
  if (initParameters.find (bytes "key")).isNone then
    throwRuntimeError "VolatileKeyValueSet parameters must contain 'key'."
  else do
    let keyName ← (← initParameters.get (bytes "key")).getString
    let valueName ← (← initParameters.get (bytes "value")).getString
    let _retainBuffers ← initParameters.flagAt (bytes "retainBuffers")
    let storage := SharedPtr.object
    let adder := Node.Adder (.construct storage keyName valueName)
    let getter := Node.Getter (.construct storage keyName valueName)
    let remover := Node.Remover (.construct storage keyName valueName)
    let _removeAll := Node.RemoveAll (.construct storage keyName valueName)
    return { mPartitions := fun
      | .Adder => adder
      | .Getter => getter
      | .Remover => remover
      | .RemoveAll => remover }

/-- A packet, and the interface it is sent to. -/
structure Call where
  interface : Interface
  packet : Packet

/-- A packet is handled by the node of its interface. -/
def handlePacket (x : VolatileKeyValueSet) (storage : StorageMap) (call : Call) :
    Code (List Push × StorageMap) :=
  (x.mPartitions call.interface).handlePacket storage call.packet

/-! ### What the group is for -/

/-- A group whose handlers hold a pointer. -/
def withStorage (mStorage : SharedPtr) (keyName valueName : ByteString) : VolatileKeyValueSet where
  mPartitions
    | .Adder => .Adder { mKeyName := keyName, mValueName := valueName, mStorage }
    | .Getter => .Getter { mKeyName := keyName, mValueName := valueName, mStorage }
    | .Remover | .RemoveAll => .Remover { mKeyName := keyName, mValueName := valueName, mStorage }

/-- What a packet with strings asks for. -/
def Call.operation (keyName valueName : ByteString) (call : Call) :
    SetOperation ByteString ByteString :=
  let key := call.packet.parameters.stringAt keyName
  let value := call.packet.parameters.stringAt valueName
  match call.interface with
  | .Adder => .add key value
  | .Getter => .get key
  | .Remover | .RemoveAll => .remove key value

/-- A packet for one of the first three interfaces whose key and value are strings. -/
def Call.HasStrings (keyName valueName : ByteString) (call : Call) : Prop :=
  call.interface ≠ .RemoveAll ∧ ∃ key value,
    call.packet.parameters.find keyName = some (.string key) ∧
    call.packet.parameters.find valueName = some (.string value)

open SetOperation in
/-- What is sent for an operation, after those that are done. -/
def Answers (keyName valueName : ByteString) (done : List (SetOperation ByteString ByteString))
    (pushes : List Push) : SetOperation ByteString ByteString → Prop
  | .add _ _ => pushes = [{ packet := {}, channel := "added" }]
  | .get key =>
    kept done key = ∅ ∧
      pushes = [notFound kParameter_KeyWhichIsNotPresent key kChannel_ValueNotFound] ∨
    (kept done key).Nonempty ∧ ∃ values : List ByteString, values.Nodup ∧
      (∀ value, value ∈ values ↔ value ∈ kept done key) ∧
      pushes = [withValues keyName valueName key (.array (values.map .string)) kChannel_GotValue]
  | .remove key value =>
    kept done key = ∅ ∧
      pushes = [notFound kParameter_KeyWhichIsNotPresent key kChannel_KeyNotFound] ∨
    (kept done key).Nonempty ∧ value ∉ kept done key ∧
      pushes = [notFound kParameter_ValueWhichIsNotPresent value kChannel_ValueNotFound] ∨
    value ∈ kept done key ∧
      pushes = [withValues keyName valueName key (.string value) kChannel_RemovedValue]

/-- What is asked of a packet, after those that have been handled. -/
structure Asked (keyName valueName : ByteString) (served : List Call) (storage : StorageMap)
    (call : Call) (pushes : List Push) (storage' : StorageMap) : Prop where
  answers : Answers keyName valueName (served.map (Call.operation keyName valueName)) pushes
    (call.operation keyName valueName)
  contents : storage'.contents =
    SetOperation.kept ((served ++ [call]).map (Call.operation keyName valueName))
  noEmptySet : storage'.NoEmptySet
  /-- A removal of what is not there changes nothing. -/
  unchanged : ∀ key value, call.operation keyName valueName = .remove key value →
    value ∉ storage.contents key → storage' = storage

/-- The group handles all packets, as a map from keys to sets of values. -/
def ActsAsSets (keyName valueName : ByteString) (x : VolatileKeyValueSet) (calls : List Call) :
    Prop :=
  Service.Serves x.handlePacket (Asked keyName valueName) ∅ calls

/-! ### With the pointer -/

/-- Each operation works on the storage that the pointer leads to. -/
def perform (keyName valueName : ByteString) (storage : StorageMap) :
    SetOperation ByteString ByteString → Code (List Push × StorageMap)
  | .add key value => Adder.add key value storage
  | .get key => Getter.get keyName valueName key storage
  | .remove key value => Remover.remove keyName valueName key value storage

/-- The storage has what has been added and not since removed. -/
structure Keeps (done : List (SetOperation ByteString ByteString)) (storage : StorageMap) :
    Prop where
  contents : storage.contents = SetOperation.kept done
  noEmptySet : storage.NoEmptySet

section

variable {keyName valueName key value : ByteString} {storage : StorageMap} {call : Call}
  {done : List (SetOperation ByteString ByteString)} {values : UnorderedSet ByteString}

theorem Handler.checkParameters_of_find {x : Handler} {parameters keyJson valueJson : Json}
    (hkey : parameters.find x.mKeyName = some keyJson)
    (hvalue : parameters.find x.mValueName = some valueJson) :
    x.checkParameters parameters = none := by
  rw [Handler.checkParameters, hkey, hvalue]
  rfl

theorem handlePacket_withStorage (pointer : SharedPtr) (h : call.HasStrings keyName valueName) :
    (withStorage pointer keyName valueName).handlePacket storage call =
      (pointer.deref storage).bind fun storage =>
        perform keyName valueName storage (call.operation keyName valueName) := by
  obtain ⟨interface, packet⟩ := call
  obtain ⟨hne, key, value, hkey, hvalue⟩ := h
  have hcheck : Handler.checkParameters ⟨keyName, valueName, pointer⟩ packet.parameters = none :=
    Handler.checkParameters_of_find hkey hvalue
  have hgetKey := Json.get_of_find hkey
  have hgetValue := Json.get_of_find hvalue
  rw [Call.operation, Json.stringAt_of_find hkey, Json.stringAt_of_find hvalue]
  cases interface with
  | Adder =>
    change Adder.handlePacket _ storage packet = _
    rw [Adder.handlePacket, hcheck, hgetKey, hgetValue]
    rfl
  | Getter =>
    change Getter.handlePacket _ storage packet = _
    rw [Getter.handlePacket, hgetKey, hkey]
    rfl
  | Remover =>
    change Remover.handlePacket _ storage packet = _
    rw [Remover.handlePacket, hcheck, hgetKey, hgetValue]
    rfl
  | RemoveAll => exact absurd rfl hne

theorem Keeps.kept_of_none (h : Keeps done storage) (hkey : storage.lookup key = none) :
    SetOperation.kept done key = ∅ := by
  rw [← h.contents, UnorderedMap.contents_of_none hkey]

theorem Keeps.mem_kept_iff (h : Keeps done storage) (hkey : storage.lookup key = some values) :
    value ∈ SetOperation.kept done key ↔ value ∈ values := by
  rw [← h.contents, UnorderedMap.contents_of_some hkey, Set.mem_ofPred_eq]

theorem Keeps.nonempty (h : Keeps done storage) (hkey : storage.lookup key = some values) :
    (SetOperation.kept done key).Nonempty := by
  rw [← h.contents]
  exact h.noEmptySet.nonempty hkey

theorem add_spec (h : Keeps done storage) (key value : ByteString) : ∃ pushes storage',
    Adder.add key value storage = .ok (pushes, storage') ∧
      Answers keyName valueName done pushes (.add key value) ∧
      Keeps (done ++ [.add key value]) storage' := by
  have hlookup : (storage.touch key ∅).lookup key = some ((storage.lookup key).getD ∅) := by
    rw [UnorderedMap.lookup_touch, if_pos rfl]
  have hmem : ∀ v, v ∈ (storage.lookup key).getD ∅ ↔ v ∈ SetOperation.kept done key := by
    intro v
    cases hkey : storage.lookup key with
    | none => simp [h.kept_of_none hkey]
    | some values => exact (h.mem_kept_iff hkey).symm
  refine ⟨_, _, by rw [Adder.add, hlookup], rfl, ?_, ?_⟩
  · rw [UnorderedMap.contents_put, UnorderedMap.contents_touch, SetOperation.kept_add, h.contents]
    congr 1
    ext v
    simp [hmem]
  · refine h.noEmptySet.of_ne key (fun k hk => ?_) fun values hvalues => ?_
    · rw [UnorderedMap.lookup_put, if_neg hk, UnorderedMap.lookup_touch, if_neg hk]
    · rw [UnorderedMap.lookup_put, if_pos rfl] at hvalues
      obtain rfl := Option.some.inj hvalues
      exact ⟨value, UnorderedSet.mem_emplace.2 (.inl rfl)⟩

theorem get_spec (h : Keeps done storage) (key : ByteString) : ∃ pushes,
    Getter.get keyName valueName key storage = .ok (pushes, storage) ∧
      Answers keyName valueName done pushes (.get key) := by
  unfold Getter.get
  cases hkey : storage.lookup key with
  | none => exact ⟨_, rfl, .inl ⟨h.kept_of_none hkey, rfl⟩⟩
  | some values =>
    refine ⟨_, rfl, .inr ⟨h.nonempty hkey, values.values, values.nodup, fun value => ?_, rfl⟩⟩
    exact (h.mem_kept_iff hkey).symm

/-- What is left when a value is removed that is there. -/
theorem Keeps.erase (h : Keeps done storage) (hkey : storage.lookup key = some values) :
    Keeps (done ++ [.remove key value])
      (if (values.erase value).empty then
        UnorderedMap.put storage key (values.erase value) |>.erase key
      else storage.put key (values.erase value)) := by
  have hkept : SetOperation.kept (done ++ [.remove key value]) =
      Function.update storage.contents key {v | v ∈ values.erase value} := by
    rw [SetOperation.kept_remove, h.contents]
    congr 1
    ext v
    rw [Set.mem_sdiff, h.mem_kept_iff hkey, Set.mem_singleton_iff, Set.mem_ofPred_eq,
      UnorderedSet.mem_erase, and_comm]
  split
  · rename_i hempty
    have hset : {v | v ∈ values.erase value} = ∅ :=
      Set.eq_empty_of_forall_notMem (UnorderedSet.empty_iff.1 hempty)
    refine ⟨?_, h.noEmptySet.of_ne key (fun k hk => ?_) fun _ hnone => ?_⟩
    · rw [hkept, UnorderedMap.contents_erase, UnorderedMap.contents_put, Function.update_idem, hset]
    · rw [UnorderedMap.lookup_erase, if_neg hk, UnorderedMap.lookup_put, if_neg hk]
    · rw [UnorderedMap.lookup_erase, if_pos rfl] at hnone
      cases hnone
  · rename_i hnot
    refine ⟨by rw [hkept, UnorderedMap.contents_put],
      h.noEmptySet.of_ne key (fun k hk => ?_) fun values' hvalues => ?_⟩
    · rw [UnorderedMap.lookup_put, if_neg hk]
    · rw [UnorderedMap.lookup_put, if_pos rfl] at hvalues
      obtain rfl := Option.some.inj hvalues
      by_contra hnone
      exact hnot (UnorderedSet.empty_iff.2 fun v hv => hnone ⟨v, hv⟩)

/-- What is not there is removed already. -/
theorem Keeps.remove_of_notMem (h : Keeps done storage)
    (hvalue : value ∉ SetOperation.kept done key) :
    Keeps (done ++ [.remove key value]) storage where
  contents := by
    rw [SetOperation.kept_remove, Set.sdiff_singleton_eq_self hvalue, Function.update_eq_self,
      h.contents]
  noEmptySet := h.noEmptySet

theorem remove_spec (h : Keeps done storage) (key value : ByteString) : ∃ pushes storage',
    Remover.remove keyName valueName key value storage = .ok (pushes, storage') ∧
      Answers keyName valueName done pushes (.remove key value) ∧
      Keeps (done ++ [.remove key value]) storage' ∧
      (value ∉ SetOperation.kept done key → storage' = storage) := by
  unfold Remover.remove
  cases hkey : storage.lookup key with
  | none =>
    have hempty := h.kept_of_none hkey
    have hnot : value ∉ SetOperation.kept done key := hempty ▸ Set.notMem_empty value
    exact ⟨_, _, rfl, .inl ⟨hempty, rfl⟩, h.remove_of_notMem hnot, fun _ => rfl⟩
  | some values =>
    by_cases hmem : value ∈ values
    · have hkept := (h.mem_kept_iff hkey).2 hmem
      refine ⟨_, _, if_neg (not_not_intro hmem), .inr (.inr ⟨hkept, rfl⟩), h.erase hkey,
        fun hnot => absurd hkept hnot⟩
    · have hnot := mt (h.mem_kept_iff hkey).1 hmem
      exact ⟨_, _, if_pos hmem, .inr (.inl ⟨h.nonempty hkey, hnot, rfl⟩),
        h.remove_of_notMem hnot, fun _ => rfl⟩

/-- Each operation does what is asked of it. -/
theorem perform_spec (keyName valueName : ByteString) (h : Keeps done storage)
    (operation : SetOperation ByteString ByteString) :
    ∃ pushes storage', perform keyName valueName storage operation = .ok (pushes, storage') ∧
      Answers keyName valueName done pushes operation ∧
      Keeps (done ++ [operation]) storage' ∧
      ∀ key value, operation = .remove key value → value ∉ SetOperation.kept done key →
        storage' = storage := by
  cases operation with
  | add key value =>
    obtain ⟨pushes, storage', hadd, hanswers, hkeeps⟩ := add_spec h key value
    exact ⟨pushes, storage', hadd, hanswers, hkeeps, nofun⟩
  | get key =>
    obtain ⟨pushes, hget, hanswers⟩ := get_spec h key
    refine ⟨pushes, storage, hget, hanswers, ⟨?_, h.noEmptySet⟩, nofun⟩
    rw [SetOperation.kept_get, h.contents]
  | remove key value =>
    obtain ⟨pushes, storage', hremove, hanswers, hkeeps, hsame⟩ := remove_spec h key value
    refine ⟨pushes, storage', hremove, hanswers, hkeeps, ?_⟩
    rintro _ _ ⟨⟩
    exact hsame

/-- **With the pointer to the storage** the group is a map from keys to sets of values. -/
theorem actsAsSets_withStorage {calls : List Call}
    (hcalls : ∀ call ∈ calls, call.HasStrings keyName valueName) :
    ActsAsSets keyName valueName (withStorage .object keyName valueName) calls := by
  refine Service.serves_of_invariant
    (I := fun served => Keeps (served.map (Call.operation keyName valueName)))
    ⟨?_, UnorderedMap.all_empty⟩ fun served call storage hmem hkeeps => ?_
  · rw [UnorderedMap.contents_empty, List.map_nil, SetOperation.kept_nil]
  · obtain ⟨pushes, storage', hperform, hanswers, hkeeps', hsame⟩ :=
      perform_spec keyName valueName hkeeps (call.operation keyName valueName)
    have hserve := (handlePacket_withStorage .object (hcalls call hmem)).trans hperform
    have hmap : (served ++ [call]).map (Call.operation keyName valueName) =
        served.map (Call.operation keyName valueName) ++ [call.operation keyName valueName] := by
      rw [List.map_append, List.map_singleton]
    rw [← hmap] at hkeeps'
    refine ⟨pushes, storage', hserve, ⟨hanswers, hkeeps'.contents, hkeeps'.noEmptySet, ?_⟩, hkeeps'⟩
    rw [hkeeps.contents]
    exact hsame

end

/-! ### As it is constructed -/

/-- The handlers of a constructed group have no pointer. -/
theorem construct_spec {initParameters : Json} {x : VolatileKeyValueSet}
    {keyName valueName : ByteString} (hx : construct initParameters = .ok x)
    (hkey : initParameters.find (bytes "key") = some (.string keyName))
    (hvalue : initParameters.find (bytes "value") = some (.string valueName)) :
    x = withStorage .nullptr keyName valueName := by
  have hgetKey := Json.get_of_find hkey
  have hgetValue := Json.get_of_find hvalue
  rw [construct, hkey, hgetKey, hgetValue] at hx
  cases hflag : initParameters.flagAt (bytes "retainBuffers") with
  | error fault =>
    rw [hflag] at hx
    cases hx
  | ok retainBuffers =>
    rw [hflag] at hx
    exact (Except.ok.inj hx).symm

/-- **The handlers have no storage**: a group as it is constructed is a map from keys to sets of
values as long as nothing is sent to it. -/
theorem actsAsSets_iff {initParameters : Json} {x : VolatileKeyValueSet}
    {keyName valueName : ByteString} (hx : construct initParameters = .ok x)
    (hkey : initParameters.find (bytes "key") = some (.string keyName))
    (hvalue : initParameters.find (bytes "value") = some (.string valueName))
    {calls : List Call} (hcalls : ∀ call ∈ calls, call.HasStrings keyName valueName) :
    ActsAsSets keyName valueName x calls ↔ calls = [] := by
  rw [construct_spec hx hkey hvalue]
  exact Service.serves_iff_eq_nil fun call hmem =>
    ⟨_, handlePacket_withStorage .nullptr (hcalls call hmem)⟩

/-- `{"key": "k", "value": "v"}`. -/
def twoStrings (key value : String) : Json :=
  .object [(bytes "key", .string (bytes key)), (bytes "value", .string (bytes value))]

/-- The packet `{"key": "a", "value": "x"}` to "Adder". -/
def addCall : Call where
  interface := .Adder
  packet := { parameters := twoStrings "a" "x" }

theorem hasStrings_addCall : addCall.HasStrings (bytes "key") (bytes "value") :=
  ⟨nofun, bytes "a", bytes "x", rfl, rfl⟩

theorem construct_twoStrings : construct (twoStrings "key" "value") =
    .ok (withStorage .nullptr (bytes "key") (bytes "value")) := rfl

/-- One packet to a constructed group. -/
theorem actsAsSets_iff_add :
    ActsAsSets (bytes "key") (bytes "value")
      (withStorage .nullptr (bytes "key") (bytes "value")) [addCall] ↔ [addCall] = [] :=
  actsAsSets_iff construct_twoStrings rfl rfl fun _ hmem =>
    List.mem_singleton.1 hmem ▸ hasStrings_addCall

/-- A value is added to a constructed group, which fails. -/
theorem not_actsAsSets_add : ¬ ∀ {initParameters : Json} {x : VolatileKeyValueSet}
    {keyName valueName : ByteString}, construct initParameters = .ok x →
    initParameters.find (bytes "key") = some (.string keyName) →
    initParameters.find (bytes "value") = some (.string valueName) →
    ∀ {calls : List Call}, (∀ call ∈ calls, call.HasStrings keyName valueName) →
      ActsAsSets keyName valueName x calls := by
  intro h
  have hadd := h construct_twoStrings rfl rfl
    fun _ hmem => List.mem_singleton.1 hmem ▸ hasStrings_addCall
  obtain ⟨storage, pushes, storage', hafter, hserve, -⟩ := hadd [] addCall [] rfl
  obtain rfl : ∅ = storage := Except.ok.inj hafter
  cases hserve

end VolatileKeyValueSet

end Maplang
