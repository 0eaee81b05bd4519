import Mathlib.Data.List.AList

/-!
# Hash maps

An `unordered_map` is its entries, in the order an iteration visits them.  The order is not known,
so what holds of all maps holds in every order.

* `UnorderedMap.put` : `map[key] = value` (`lookup_put`).
* `UnorderedMap.touch` : `map[key]`, which inserts an entry if there is none (`lookup_touch`).
* `UnorderedMap.All` : a property of all entries, kept by each write.
-/

namespace Maplang

/-- `unordered_map`: the entries in the order an iteration visits them, with no key twice. -/
abbrev UnorderedMap (κ ν : Type*) := AList fun _ : κ => ν

namespace UnorderedMap

variable {κ ν : Type*} [DecidableEq κ]

/-- `map[key] = value`.  An entry that is there stays where it is. -/
def put (m : UnorderedMap κ ν) (key : κ) (value : ν) : UnorderedMap κ ν :=
  if (m.lookup key).isSome then m.replace key value else m.insert key value

/-- `map[key]`: if there is no entry with the key, one with the initial value is inserted. -/
def touch (m : UnorderedMap κ ν) (key : κ) (initial : ν) : UnorderedMap κ ν :=
  if (m.lookup key).isSome then m else m.insert key initial

theorem kreplace_cons_self (key : κ) (value old : ν) (entries : List (Sigma fun _ : κ => ν)) :
    List.kreplace key value (⟨key, old⟩ :: entries) = ⟨key, value⟩ :: entries :=
  List.lookmap_cons_some _ _ (if_pos rfl)

theorem kreplace_cons_ne {key key' : κ} (h : key ≠ key') (value old : ν)
    (entries : List (Sigma fun _ : κ => ν)) :
    List.kreplace key value (⟨key', old⟩ :: entries) =
      ⟨key', old⟩ :: entries.kreplace key value :=
  List.lookmap_cons_none _ _ (if_neg h)

theorem dlookup_kreplace (key : κ) (value : ν) (entries : List (Sigma fun _ : κ => ν)) (k : κ) :
    (entries.kreplace key value).dlookup k =
      if k = key then (entries.dlookup key).map fun _ => value else entries.dlookup k := by
  induction entries with
  | nil => simp [List.kreplace, List.lookmap_nil]
  | cons entry entries ih =>
    obtain ⟨key', old⟩ := entry
    by_cases hkey : key = key'
    · subst hkey
      rw [kreplace_cons_self]
      by_cases hk : k = key
      · subst hk
        simp
      · simp [hk]
    · rw [kreplace_cons_ne hkey,
        List.dlookup_cons_ne entries ⟨key', old⟩ (show key ≠ key' from hkey)]
      by_cases hk : k = key'
      · subst hk
        simp [Ne.symm hkey]
      · rw [List.dlookup_cons_ne _ _ hk, ih, List.dlookup_cons_ne _ _ hk]

@[simp] theorem lookup_put (m : UnorderedMap κ ν) (key : κ) (value : ν) (k : κ) :
    (m.put key value).lookup k = if k = key then some value else m.lookup k := by
  unfold put
  split
  · rename_i h
    obtain ⟨old, hold⟩ := Option.isSome_iff_exists.1 h
    refine (dlookup_kreplace key value m.entries k).trans ?_
    rw [show m.entries.dlookup key = some old from hold, Option.map_some]
    rfl
  · by_cases hk : k = key
    · subst hk
      simp
    · rw [if_neg hk, AList.lookup_insert_ne hk]

theorem touch_of_some {m : UnorderedMap κ ν} {key : κ} {value : ν} (initial : ν)
    (h : m.lookup key = some value) : m.touch key initial = m :=
  if_pos (Option.isSome_of_eq_some h)

@[simp] theorem lookup_touch (m : UnorderedMap κ ν) (key : κ) (initial : ν) (k : κ) :
    (m.touch key initial).lookup k =
      if k = key then some ((m.lookup key).getD initial) else m.lookup k := by
  unfold touch
  cases h : m.lookup key with
  | some value =>
    by_cases hk : k = key
    · subst hk
      simp [h]
    · simp [hk]
  | none =>
    by_cases hk : k = key
    · subst hk
      simp
    · simp [hk, AList.lookup_insert_ne hk]

theorem lookup_erase (m : UnorderedMap κ ν) (key k : κ) :
    AList.lookup k (m.erase key) = if k = key then none else m.lookup k := by
  by_cases hk : k = key
  · subst hk
    rw [if_pos rfl, AList.lookup_erase]
  · rw [if_neg hk, AList.lookup_erase_ne hk]

/-- Writing what is there changes nothing. -/
theorem put_self {m : UnorderedMap κ ν} {key : κ} {value : ν} (h : m.lookup key = some value) :
    m.put key value = m := by
  rw [put, if_pos (Option.isSome_of_eq_some h)]
  exact AList.ext (List.kreplace_self m.nodupKeys (List.of_mem_dlookup h))

/-- Only the last of two writes is seen. -/
theorem put_put (m : UnorderedMap κ ν) (key : κ) (value value' : ν) :
    (m.put key value).put key value' = m.put key value' := by
  have hthere : ((m.put key value).lookup key).isSome = true := by simp
  refine (if_pos hthere).trans (AList.ext ?_)
  unfold put
  split
  · change (m.entries.kreplace key value).kreplace key value' = m.entries.kreplace key value'
    induction m.entries with
    | nil => rfl
    | cons entry entries ih =>
      obtain ⟨key', old⟩ := entry
      by_cases hkey : key = key'
      · subst hkey
        rw [kreplace_cons_self, kreplace_cons_self, kreplace_cons_self]
      · rw [kreplace_cons_ne hkey, kreplace_cons_ne hkey, kreplace_cons_ne hkey, ih]
  · exact kreplace_cons_self key value' value _

/-- The value an entry is made with is not seen after a write. -/
theorem put_touch (m : UnorderedMap κ ν) (key : κ) (initial value : ν) :
    (m.touch key initial).put key value = m.put key value := by
  cases h : m.lookup key with
  | some old => rw [touch_of_some initial h]
  | none =>
    have htouch : m.touch key initial = m.put key initial := by simp [touch, put, h]
    rw [htouch, put_put]

/-! ### What holds of all entries -/

/-- All entries have a property. -/
def All (m : UnorderedMap κ ν) (P : κ → ν → Prop) : Prop :=
  ∀ key value, m.lookup key = some value → P key value

variable {m : UnorderedMap κ ν} {P Q : κ → ν → Prop} {key : κ} {value : ν}

theorem all_empty : (∅ : UnorderedMap κ ν).All P := fun _ _ h => by cases h

theorem All.mono (h : m.All P) (hPQ : ∀ key value, P key value → Q key value) : m.All Q :=
  fun key value hvalue => hPQ key value (h key value hvalue)

theorem All.put (h : m.All P) (hp : P key value) : (m.put key value).All P := by
  intro k v hv
  rw [lookup_put] at hv
  split at hv
  · rename_i heq
    obtain rfl := Option.some.inj hv
    rwa [heq]
  · exact h k v hv

theorem All.touch (h : m.All P) (hp : m.lookup key = none → P key value) :
    (m.touch key value).All P := by
  cases hkey : m.lookup key with
  | some old => rwa [touch_of_some value hkey]
  | none =>
    intro k v hv
    rw [lookup_touch, hkey] at hv
    split at hv
    · rename_i heq
      obtain rfl := Option.some.inj hv
      rw [heq]
      exact hp hkey
    · exact h k v hv

/-- The entry that is erased is gone. -/
theorem All.erase_ne (h : m.All P) :
    UnorderedMap.All (m.erase key) fun k v => k ≠ key ∧ P k v := by
  intro k v hv
  rw [lookup_erase] at hv
  split at hv
  · cases hv
  · exact ⟨‹_›, h k v hv⟩

theorem All.erase (h : m.All P) : UnorderedMap.All (m.erase key) P :=
  h.erase_ne.mono fun _ _ => And.right

end UnorderedMap

end Maplang
