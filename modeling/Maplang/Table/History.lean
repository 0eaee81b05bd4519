import Mathlib.Data.Set.Insert
import Mathlib.Data.List.Basic
import Mathlib.Logic.Function.Basic

/-!
# What a history of operations leaves in a map

* `SetOperation.kept` : a map from keys to sets of values.  What it holds for a key has been added
  and not since removed; each operation updates it at one key (`kept_add`, `kept_remove`).
* `latest`, `earliest` : a map from keys to values, of which the last write or the first one wins.
-/

namespace Maplang

variable {κ ν : Type*}

/-! ### Maps to sets -/

/-- An operation on a map from keys to sets of values. -/
inductive SetOperation (κ ν : Type*) where
  | add (key : κ) (value : ν)
  | get (key : κ)
  | remove (key : κ) (value : ν)

namespace SetOperation

/-- The values that have been added for a key and not since removed. -/
def kept (done : List (SetOperation κ ν)) (key : κ) : Set ν :=
  {value | ∃ before since, done = before ++ add key value :: since ∧ remove key value ∉ since}

variable {done : List (SetOperation κ ν)} {operation : SetOperation κ ν} {key : κ} {value : ν}

theorem kept_nil : kept ([] : List (SetOperation κ ν)) = fun _ => ∅ := by
  funext key
  refine Set.eq_empty_of_forall_notMem fun value => ?_
  rintro ⟨before, since, h, -⟩
  exact absurd h (by simp)

theorem mem_kept_concat : value ∈ kept (done ++ [operation]) key ↔
    operation = add key value ∨ value ∈ kept done key ∧ operation ≠ remove key value := by
  constructor
  · rintro ⟨before, since, h, hsince⟩
    rcases List.eq_nil_or_concat since with rfl | ⟨since, last, rfl⟩
    · exact .inl (List.singleton_inj.1 (List.append_inj' h rfl).2)
    · rw [List.concat_eq_append, ← List.cons_append, ← List.append_assoc] at h
      obtain ⟨hdone, hlast⟩ := List.append_inj' h rfl
      rw [List.concat_eq_append, List.mem_append, not_or, List.mem_singleton] at hsince
      exact .inr ⟨⟨before, since, hdone, hsince.1⟩,
        fun hremove => hsince.2 (hremove.symm.trans (List.singleton_inj.1 hlast))⟩
  · rintro (rfl | ⟨⟨before, since, rfl, hsince⟩, hne⟩)
    · exact ⟨done, [], rfl, List.not_mem_nil⟩
    · refine ⟨before, since ++ [operation], by simp, ?_⟩
      rw [List.mem_append, List.mem_singleton, not_or]
      exact ⟨hsince, Ne.symm hne⟩

theorem kept_get (key : κ) : kept (done ++ [get key]) = kept done := by
  funext k
  ext v
  rw [mem_kept_concat]
  exact ⟨fun h => (h.resolve_left nofun).1, fun h => .inr ⟨h, nofun⟩⟩

variable [DecidableEq κ]

theorem kept_add : kept (done ++ [add key value]) =
    Function.update (kept done) key (insert value (kept done key)) := by
  funext k
  ext v
  rw [mem_kept_concat]
  by_cases hk : k = key
  · subst hk
    rw [Function.update_self, Set.mem_insert_iff]
    exact or_congr ⟨fun h => by cases h; rfl, fun h => h ▸ rfl⟩
      ⟨And.left, fun h => ⟨h, nofun⟩⟩
  · rw [Function.update_of_ne hk]
    refine ⟨fun h => (h.resolve_left ?_).1, fun h => .inr ⟨h, nofun⟩⟩
    exact fun h => hk (by cases h; rfl)

theorem kept_remove : kept (done ++ [remove key value]) =
    Function.update (kept done) key (kept done key \ {value}) := by
  funext k
  ext v
  rw [mem_kept_concat]
  by_cases hk : k = key
  · subst hk
    rw [Function.update_self, Set.mem_sdiff, Set.mem_singleton_iff]
    refine ⟨fun h => ?_, fun ⟨h, hne⟩ => .inr ⟨h, fun heq => hne (by cases heq; rfl)⟩⟩
    obtain ⟨hmem, hne⟩ := h.resolve_left nofun
    exact ⟨hmem, fun heq => hne (heq ▸ rfl)⟩
  · rw [Function.update_of_ne hk]
    refine ⟨fun h => (h.resolve_left nofun).1, fun h => .inr ⟨h, fun heq => hk ?_⟩⟩
    cases heq
    rfl

end SetOperation

/-! ### Maps to values -/

section

variable [DecidableEq κ] {writes : List (κ × ν)}

/-- What the last write for a key has written. -/
def latest (writes : List (κ × ν)) (key : κ) : Option ν := writes.reverse.lookup key

/-- What the first write for a key has written. -/
def earliest (writes : List (κ × ν)) (key : κ) : Option ν := writes.lookup key

theorem earliest_concat (write : κ × ν) (key : κ) : earliest (writes ++ [write]) key =
    (earliest writes key).or (if key = write.1 then some write.2 else none) := by
  rw [earliest, List.lookup_append, List.lookup_cons]
  by_cases hkey : key = write.1
  · rw [if_pos hkey, beq_iff_eq.2 hkey]
    rfl
  · rw [if_neg hkey, beq_eq_false_iff_ne.2 hkey]
    rfl

end

end Maplang
