import Maplang.Nodes.VolatileKeyValueSet

/-!
# Remove All

The class `RemoveAll` lists the values of a key and erases nothing.  Its node is not used: the
constructor registers the node of `Remover` under "Remove All", which removes one value, the one
that the packet names.  So a key that is present is emptied if that value is its only one, and then
the packet that is sent has the value itself where a list is expected.

## Main definitions

* `ListsValues`, `NamesValues` : what a parameter says about a set of values, with and without the
  demand for an array.
* `Empties` : the node under "Remove All" empties one key.

## Main results

* `remove_cases`, `remove_lookup_iff` : what `Remover` can do, and when it leaves nothing of a key.
* `removeAll_unchanged` : the class `RemoveAll` never changes the storage.
* `empties_iff` : the packets that empty their key.
-/

namespace Maplang

namespace VolatileKeyValueSet

variable {keyName valueName key value : ByteString} {storage storage' : StorageMap}
  {packet : Packet} {values : UnorderedSet ByteString} {pushes : List Push}

/-- An array of the values, each of them once. -/
def ListsValues (listed : Json) (values : UnorderedSet ByteString) : Prop :=
  ∃ strings : List ByteString, listed = .array (strings.map .string) ∧ strings.Nodup ∧
    ∀ v, v ∈ strings ↔ v ∈ values

/-- An array of the values, or the only value. -/
def NamesValues (listed : Json) (values : UnorderedSet ByteString) : Prop :=
  ListsValues listed values ∨ ∃ value, listed = .string value ∧ ∀ v, v ∈ values ↔ v = value

/-- A packet for a key, sent to "Remove All", empties this key and does nothing else. -/
structure Empties (lists : Json → UnorderedSet ByteString → Prop) (x : VolatileKeyValueSet)
    (keyName valueName : ByteString) (storage : StorageMap) (packet : Packet) (key : ByteString) :
    Prop where
  present : ∀ values, storage.lookup key = some values → ∃ push listed storage',
    x.handlePacket storage ⟨.RemoveAll, packet⟩ = .ok ([push], storage') ∧
      push.packet.parameters.find valueName = some listed ∧ lists listed values ∧
      storage'.lookup key = none ∧
      ∀ asked : Packet, asked.parameters.find keyName = some (.string key) →
        x.handlePacket storage' ⟨.Getter, asked⟩ =
          .ok ([notFound kParameter_KeyWhichIsNotPresent key kChannel_ValueNotFound], storage')
  absent : storage.lookup key = none → ∀ pushes storage',
    x.handlePacket storage ⟨.RemoveAll, packet⟩ = .ok (pushes, storage') → storage' = storage
  others : ∀ pushes storage',
    x.handlePacket storage ⟨.RemoveAll, packet⟩ = .ok (pushes, storage') →
      ∀ k ≠ key, storage'.lookup k = storage.lookup k

/-! ### What `Remover` does to a key -/

/-- The storage after a value is removed that is there. -/
def withoutValue (storage : StorageMap) (key value : ByteString)
    (values : UnorderedSet ByteString) : StorageMap :=
  if (values.erase value).empty then (storage.put key (values.erase value)).erase key
  else storage.put key (values.erase value)

theorem remove_of_mem (keyName valueName : ByteString) (h : storage.lookup key = some values)
    (hmem : value ∈ values) :
    Remover.remove keyName valueName key value storage =
      .ok ([withValues keyName valueName key (.string value) kChannel_RemovedValue],
        withoutValue storage key value values) := by
  rw [Remover.remove, h]
  exact if_neg (not_not_intro hmem)

/-- What `Remover` can do. -/
theorem remove_cases
    (h : Remover.remove keyName valueName key value storage = .ok (pushes, storage')) :
    storage.lookup key = none ∧ storage' = storage ∨
    (∃ values, storage.lookup key = some values ∧ value ∉ values ∧ storage' = storage) ∨
    ∃ values, storage.lookup key = some values ∧ value ∈ values ∧
      storage' = withoutValue storage key value values ∧
      pushes = [withValues keyName valueName key (.string value) kChannel_RemovedValue] := by
  cases hkey : storage.lookup key with
  | none =>
    rw [Remover.remove, hkey] at h
    exact .inl ⟨rfl, (Prod.mk.inj (Except.ok.inj h)).2.symm⟩
  | some values =>
    by_cases hmem : value ∈ values
    · rw [remove_of_mem keyName valueName hkey hmem] at h
      obtain ⟨hpushes, hstorage⟩ := Prod.mk.inj (Except.ok.inj h)
      exact .inr (.inr ⟨values, rfl, hmem, hstorage.symm, hpushes.symm⟩)
    · rw [Remover.remove, hkey] at h
      obtain ⟨-, hstorage⟩ := ok_pair_unique (if_pos hmem) h
      exact .inr (.inl ⟨values, rfl, hmem, hstorage.symm⟩)

theorem lookup_withoutValue_of_ne {k : ByteString} (hk : k ≠ key) :
    (withoutValue storage key value values).lookup k = storage.lookup k := by
  unfold withoutValue
  split
  · rw [UnorderedMap.lookup_erase, if_neg hk, UnorderedMap.lookup_put, if_neg hk]
  · rw [UnorderedMap.lookup_put, if_neg hk]

/-- A key is gone with its last value. -/
theorem lookup_withoutValue_iff (hmem : value ∈ values) :
    (withoutValue storage key value values).lookup key = none ↔ ∀ v, v ∈ values ↔ v = value := by
  have hempty : (values.erase value).empty = true ↔ ∀ v, v ∈ values ↔ v = value := by
    rw [UnorderedSet.empty_iff]
    constructor
    · intro h v
      refine ⟨fun hv => by_contra fun hne => h v (UnorderedSet.mem_erase.2 ⟨hne, hv⟩), ?_⟩
      rintro rfl
      exact hmem
    · intro h v hv
      obtain ⟨hne, hv⟩ := UnorderedSet.mem_erase.1 hv
      exact hne ((h v).1 hv)
  rw [← hempty, withoutValue]
  split
  · rename_i hlast
    rw [UnorderedMap.lookup_erase, if_pos rfl]
    exact ⟨fun _ => hlast, fun _ => rfl⟩
  · rename_i hrest
    rw [UnorderedMap.lookup_put, if_pos rfl]
    exact ⟨nofun, fun hlast => absurd hlast hrest⟩

/-- The other keys keep their values. -/
theorem remove_others
    (h : Remover.remove keyName valueName key value storage = .ok (pushes, storage'))
    {k : ByteString} (hk : k ≠ key) : storage'.lookup k = storage.lookup k := by
  rcases remove_cases h with ⟨-, rfl⟩ | ⟨values, -, -, rfl⟩ | ⟨values, -, -, rfl, -⟩
  · rfl
  · rfl
  · exact lookup_withoutValue_of_ne hk

/-- **One value is removed**: nothing is left of a key if this was its only one. -/
theorem remove_lookup_iff (hkey : storage.lookup key = some values)
    (h : Remover.remove keyName valueName key value storage = .ok (pushes, storage')) :
    storage'.lookup key = none ↔ ∀ v, v ∈ values ↔ v = value := by
  rcases remove_cases h with
    ⟨hnone, -⟩ | ⟨values', hsome, hmem, rfl⟩ | ⟨values', hsome, hmem, rfl, -⟩
  · cases hnone.symm.trans hkey
  · obtain rfl := Option.some.inj (hsome.symm.trans hkey)
    rw [hkey]
    exact ⟨nofun, fun honly => absurd ((honly value).2 rfl) hmem⟩
  · obtain rfl := Option.some.inj (hsome.symm.trans hkey)
    exact lookup_withoutValue_iff hmem

/-! ### The node under "Remove All" -/

/-- The class that is not used would not change the storage either. -/
theorem removeAll_unchanged {x : Handler} (hx : x.mStorage = .object)
    (h : RemoveAll.handlePacket x storage packet = .ok (pushes, storage')) :
    storage' = storage := by
  unfold RemoveAll.handlePacket at h
  split at h
  · exact (Prod.mk.inj (Except.ok.inj h)).2.symm
  · obtain ⟨keyJson, -, h⟩ := bind_eq_ok.1 h
    obtain ⟨key, -, h⟩ := bind_eq_ok.1 h
    obtain ⟨valueJson, -, h⟩ := bind_eq_ok.1 h
    obtain ⟨value, -, h⟩ := bind_eq_ok.1 h
    obtain ⟨bound, hbound, h⟩ := bind_eq_ok.1 h
    rw [hx] at hbound
    obtain rfl : storage = bound := Except.ok.inj hbound
    unfold RemoveAll.remove at h
    split at h
    · exact (Prod.mk.inj (Except.ok.inj h)).2.symm
    · split at h <;> exact (Prod.mk.inj (Except.ok.inj h)).2.symm

/-- The packet is handled by `Remover`. -/
theorem handlePacket_removeAll {valueJson : Json}
    (hkey : packet.parameters.find keyName = some (.string key))
    (hvalue : packet.parameters.find valueName = some valueJson) :
    (withStorage .object keyName valueName).handlePacket storage ⟨.RemoveAll, packet⟩ =
      valueJson.getString.bind fun value =>
        Remover.remove keyName valueName key value storage := by
  have hcheck : Handler.checkParameters ⟨keyName, valueName, .object⟩ packet.parameters = none :=
    Handler.checkParameters_of_find hkey hvalue
  have hgetKey := Json.get_of_find hkey
  have hgetValue := Json.get_of_find hvalue
  change Remover.handlePacket _ storage packet = _
  rw [Remover.handlePacket, hcheck, hgetKey, hgetValue]
  rfl

/-- A Getter packet for a key that is not there. -/
theorem handlePacket_getter_of_none (valueName : ByteString) {asked : Packet}
    (hasked : asked.parameters.find keyName = some (.string key))
    (h : storage.lookup key = none) :
    (withStorage .object keyName valueName).handlePacket storage ⟨.Getter, asked⟩ =
      .ok ([notFound kParameter_KeyWhichIsNotPresent key kChannel_ValueNotFound], storage) := by
  have hget := Json.get_of_find hasked
  change Getter.handlePacket _ storage asked = _
  rw [Getter.handlePacket, hasked, hget]
  change Getter.get keyName valueName key storage = _
  rw [Getter.get, h]

section

variable {valueJson : Json} {lists : Json → UnorderedSet ByteString → Prop}

/-- The handler returns only if the value is a string, and then this one value is removed. -/
theorem remove_of_handlePacket (hkey : packet.parameters.find keyName = some (.string key))
    (hvalue : packet.parameters.find valueName = some valueJson)
    (h : (withStorage .object keyName valueName).handlePacket storage ⟨.RemoveAll, packet⟩ =
      .ok (pushes, storage')) :
    ∃ value, valueJson = .string value ∧
      Remover.remove keyName valueName key value storage = .ok (pushes, storage') := by
  rw [handlePacket_removeAll hkey hvalue] at h
  obtain ⟨value, hstring, hremove⟩ := bind_eq_ok.1 h
  cases valueJson with
  | string string =>
    obtain rfl : string = value := Except.ok.inj hstring
    exact ⟨string, rfl, hremove⟩
  | _ => cases hstring

/-- What a list of the values may be decides nothing but whether the last value is one. -/
theorem empties_iff_of_lists (hkey : packet.parameters.find keyName = some (.string key))
    (hvalue : packet.parameters.find valueName = some valueJson) :
    Empties lists (withStorage .object keyName valueName) keyName valueName storage packet key ↔
      storage.lookup key = none ∨ ∃ value values, valueJson = .string value ∧
        storage.lookup key = some values ∧ (∀ v, v ∈ values ↔ v = value) ∧
        lists (.string value) values := by
  have habsent : storage.lookup key = none → ∀ pushes storage',
      (withStorage .object keyName valueName).handlePacket storage ⟨.RemoveAll, packet⟩ =
        .ok (pushes, storage') → storage' = storage := by
    intro hnone pushes storage' h
    obtain ⟨value, -, hremove⟩ := remove_of_handlePacket hkey hvalue h
    rcases remove_cases hremove with ⟨-, hsame⟩ | ⟨values, hsome, -⟩ | ⟨values, hsome, -⟩
    · exact hsame
    · cases hnone.symm.trans hsome
    · cases hnone.symm.trans hsome
  have hothers : ∀ pushes storage',
      (withStorage .object keyName valueName).handlePacket storage ⟨.RemoveAll, packet⟩ =
        .ok (pushes, storage') → ∀ k ≠ key, storage'.lookup k = storage.lookup k := by
    intro pushes storage' h k hk
    obtain ⟨value, -, hremove⟩ := remove_of_handlePacket hkey hvalue h
    exact remove_others hremove hk
  constructor
  · intro h
    cases hlookup : storage.lookup key with
    | none => exact .inl rfl
    | some values =>
      obtain ⟨push, listed, storage', hhandle, hfind, hlists, hgone, -⟩ := h.present values hlookup
      obtain ⟨value, hstring, hremove⟩ := remove_of_handlePacket hkey hvalue hhandle
      have honly := (remove_lookup_iff hlookup hremove).1 hgone
      rw [remove_of_mem keyName valueName hlookup ((honly value).2 rfl)] at hremove
      obtain rfl := (List.cons.inj (Prod.mk.inj (Except.ok.inj hremove)).1).1
      rw [withValues, Json.find_object, Json.lookup_setMember, if_pos rfl] at hfind
      obtain rfl := Option.some.inj hfind
      exact .inr ⟨value, values, hstring, rfl, honly, hlists⟩
  · rintro (hnone | ⟨value, values, rfl, hlookup, honly, hlists⟩)
    · exact ⟨fun values hsome => absurd (hnone.symm.trans hsome) nofun, habsent, hothers⟩
    · refine ⟨fun values' hsome => ?_, habsent, hothers⟩
      obtain rfl := Option.some.inj (hlookup.symm.trans hsome)
      have hmem : value ∈ values := (honly value).2 rfl
      have hgone : (withoutValue storage key value values).lookup key = none :=
        (lookup_withoutValue_iff hmem).2 honly
      refine ⟨_, .string value, withoutValue storage key value values,
        (handlePacket_removeAll hkey hvalue).trans (remove_of_mem keyName valueName hlookup hmem),
        ?_, hlists, hgone, fun asked hasked => handlePacket_getter_of_none valueName hasked hgone⟩
      rw [withValues, Json.find_object, Json.lookup_setMember, if_pos rfl]

/-- **The wrong node is registered**: a packet to "Remove All" empties its key as it should if the
key is not there.  If the value itself passes for a list of one value, it also does if this value is
the only one of the key. -/
theorem empties_iff (hkey : packet.parameters.find keyName = some (.string key))
    (hvalue : packet.parameters.find valueName = some valueJson) :
    (Empties ListsValues (withStorage .object keyName valueName) keyName valueName storage packet
      key ↔ storage.lookup key = none) ∧
    (Empties NamesValues (withStorage .object keyName valueName) keyName valueName storage packet
      key ↔ storage.lookup key = none ∨ ∃ value values, valueJson = .string value ∧
        storage.lookup key = some values ∧ ∀ v, v ∈ values ↔ v = value) := by
  rw [empties_iff_of_lists hkey hvalue, empties_iff_of_lists hkey hvalue]
  constructor
  · refine or_iff_left ?_
    rintro ⟨value, values, -, -, -, strings, hlisted, -⟩
    cases hlisted
  · refine or_congr_right ⟨?_, ?_⟩
    · rintro ⟨value, values, hstring, hlookup, honly, -⟩
      exact ⟨value, values, hstring, hlookup, honly⟩
    · rintro ⟨value, values, hstring, hlookup, honly⟩
      exact ⟨value, values, hstring, hlookup, honly, .inr ⟨value, rfl, honly⟩⟩

end

/-- The packet `{"key": "a", "value": "x"}` that "Adder" gets, for an empty storage. -/
theorem empties_iff_empty :
    (Empties ListsValues (withStorage .object (bytes "key") (bytes "value")) (bytes "key")
      (bytes "value") ∅ addCall.packet (bytes "a") ↔
        (∅ : StorageMap).lookup (bytes "a") = none) ∧
    (Empties NamesValues (withStorage .object (bytes "key") (bytes "value")) (bytes "key")
      (bytes "value") ∅ addCall.packet (bytes "a") ↔
        (∅ : StorageMap).lookup (bytes "a") = none ∨ ∃ value values,
          Json.string (bytes "x") = .string value ∧
          (∅ : StorageMap).lookup (bytes "a") = some values ∧ ∀ v, v ∈ values ↔ v = value) :=
  empties_iff rfl rfl

/-- The values `x` and `y` for the key `a`. -/
def twoValues : StorageMap :=
  UnorderedMap.put ∅ (bytes "a") (((∅ : UnorderedSet ByteString).emplace (bytes "y")).emplace
    (bytes "x"))

/-- "Remove All" for the key `a` with the value `x` leaves `y`. -/
theorem not_empties : ¬ ∀ {keyName valueName key : ByteString} {storage : StorageMap}
    {packet : Packet} {valueJson : Json},
    packet.parameters.find keyName = some (.string key) →
    packet.parameters.find valueName = some valueJson →
    Empties NamesValues (withStorage .object keyName valueName) keyName valueName storage packet
      key := by
  intro h
  have hempties : Empties NamesValues (withStorage .object (bytes "key") (bytes "value"))
      (bytes "key") (bytes "value") twoValues addCall.packet (bytes "a") := h rfl rfl
  have hlookup : twoValues.lookup (bytes "a") =
      some ((((∅ : UnorderedSet ByteString).emplace (bytes "y")).emplace (bytes "x"))) := by
    rw [twoValues, UnorderedMap.lookup_put, if_pos rfl]
  obtain ⟨push, listed, storage', hhandle, -, -, hgone, -⟩ := hempties.present _ hlookup
  obtain ⟨value, hstring, hremove⟩ := remove_of_handlePacket rfl rfl hhandle
  have honly := (remove_lookup_iff hlookup hremove).1 hgone
  have hx : bytes "x" = value :=
    (honly (bytes "x")).1 (UnorderedSet.mem_emplace.2 (.inl rfl))
  have hy : bytes "y" = value := (honly (bytes "y")).1
    (UnorderedSet.mem_emplace.2 (.inr (UnorderedSet.mem_emplace.2 (.inl rfl))))
  exact absurd (hx.trans hy.symm) (by decide)

end VolatileKeyValueSet

end Maplang
