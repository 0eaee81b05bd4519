import Maplang.Cpp.UnorderedMap
import Mathlib.Data.Set.Insert

/-!
# Hash sets, and maps of them

An `unordered_set` is its values, in the order an iteration visits them, which is not known.

* `UnorderedSet.emplace`, `UnorderedSet.erase` : the writes (`mem_emplace`, `mem_erase`).
* `UnorderedMap.contents` : the values for each key of a map of sets; what a write to the map
  changes is an update of it (`contents_put`, `contents_erase`).
* `UnorderedMap.NoEmptySet` : a key of the map has a value.
-/

namespace Maplang

/-- `unordered_set`: the values in the order an iteration visits them, none of them twice. -/
structure UnorderedSet (α : Type*) where
  values : List α
  nodup : values.Nodup

namespace UnorderedSet

variable {α : Type*} {s : UnorderedSet α} {value v : α}

instance : Membership α (UnorderedSet α) := ⟨fun s value => value ∈ s.values⟩

instance : EmptyCollection (UnorderedSet α) := ⟨⟨[], List.nodup_nil⟩⟩

/-- `empty()`. -/
def empty (s : UnorderedSet α) : Bool := s.values.isEmpty

@[simp] theorem notMem_empty : value ∉ (∅ : UnorderedSet α) := List.not_mem_nil

theorem empty_iff : s.empty = true ↔ ∀ value, value ∉ s :=
  List.isEmpty_iff.trans List.eq_nil_iff_forall_not_mem

variable [DecidableEq α]

instance : Decidable (value ∈ s) := inferInstanceAs (Decidable (value ∈ s.values))

/-- `set.emplace(value)`. -/
def emplace (s : UnorderedSet α) (value : α) : UnorderedSet α :=
  if h : value ∈ s.values then s else ⟨value :: s.values, List.nodup_cons.2 ⟨h, s.nodup⟩⟩

/-- `set.erase(value)`. -/
def erase (s : UnorderedSet α) (value : α) : UnorderedSet α :=
  ⟨s.values.erase value, s.nodup.erase value⟩

@[simp] theorem mem_emplace : v ∈ s.emplace value ↔ v = value ∨ v ∈ s := by
  unfold emplace
  split
  · rename_i h
    exact ⟨.inr, fun hv => hv.elim (fun heq => heq ▸ h) id⟩
  · exact List.mem_cons

@[simp] theorem mem_erase : v ∈ s.erase value ↔ v ≠ value ∧ v ∈ s := s.nodup.mem_erase_iff

end UnorderedSet

namespace UnorderedMap

variable {κ ν : Type*} [DecidableEq κ] {m : UnorderedMap κ (UnorderedSet ν)} {key : κ}
  {values : UnorderedSet ν}

/-- The values for each key, none for a key that is not there. -/
def contents (m : UnorderedMap κ (UnorderedSet ν)) (key : κ) : Set ν :=
  (m.lookup key).elim ∅ fun values => {value | value ∈ values}

/-- No key has an empty set. -/
def NoEmptySet (m : UnorderedMap κ (UnorderedSet ν)) : Prop := m.All fun _ values => ∃ v, v ∈ values

theorem contents_empty : contents (∅ : UnorderedMap κ (UnorderedSet ν)) = fun _ => ∅ := rfl

theorem contents_of_none (h : m.lookup key = none) : contents m key = ∅ := by
  rw [contents, h, Option.elim_none]

theorem contents_of_some (h : m.lookup key = some values) :
    contents m key = {value | value ∈ values} := by
  rw [contents, h, Option.elim_some]

theorem contents_put : contents (m.put key values) =
    Function.update (contents m) key {value | value ∈ values} := by
  funext k
  rw [contents, lookup_put]
  by_cases hk : k = key
  · subst hk
    rw [if_pos rfl, Function.update_self, Option.elim_some]
  · rw [if_neg hk, Function.update_of_ne hk]
    rfl

theorem contents_touch : contents (m.touch key ∅) = contents m := by
  funext k
  rw [contents, lookup_touch]
  by_cases hk : k = key
  · subst hk
    rw [if_pos rfl, Option.elim_some]
    cases h : m.lookup k with
    | none => simp [contents_of_none h]
    | some values => rw [contents_of_some h, Option.getD_some]
  · rw [if_neg hk]
    rfl

theorem contents_erase : contents (m.erase key) = Function.update (contents m) key ∅ := by
  funext k
  rw [contents, lookup_erase]
  by_cases hk : k = key
  · subst hk
    rw [if_pos rfl, Function.update_self, Option.elim_none]
  · rw [if_neg hk, Function.update_of_ne hk]
    rfl

/-- A write at one key leaves no empty set behind if it leaves none at this key. -/
theorem NoEmptySet.of_ne {m' : UnorderedMap κ (UnorderedSet ν)} (h : NoEmptySet m) (key : κ)
    (hne : ∀ k ≠ key, m'.lookup k = m.lookup k)
    (hkey : ∀ values, m'.lookup key = some values → ∃ v, v ∈ values) : NoEmptySet m' := by
  intro k values hk
  by_cases heq : k = key
  · subst heq
    exact hkey values hk
  · exact h k values (hne k heq ▸ hk)

/-- A key that is there has a value. -/
theorem NoEmptySet.nonempty (h : NoEmptySet m) (hkey : m.lookup key = some values) :
    (contents m key).Nonempty := by
  rw [contents_of_some hkey]
  exact h key values hkey

end UnorderedMap

end Maplang
