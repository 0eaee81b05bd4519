import Maplang.Machine.Basic
import Mathlib.Algebra.BigOperators.Group.Finset.Basic
import Mathlib.Data.Fintype.Card
import Mathlib.Logic.Relation

/-!
# Machines that come to an end

A machine whose steps make something smaller cannot go on for ever, whatever the schedule.

* `Machine.Decreases` : steps that make a measure smaller while an invariant holds.
* `Machine.Stuck` : no step is possible.
* `Machine.Decreases.length_add_le`, `Machine.Decreases.exists_stuck` : runs are bounded, and can be
  continued until nothing is possible any more.
* `sum_cost_update` : a sum over components, one of which changes.
* `height` : how many things can be reached along a relation.  Where there are no cycles it
  decreases along the relation (`height_lt`).
-/

namespace Maplang

namespace Machine

variable {S L : Type*} {M : Machine S L} {ok : S → L → Prop} {I : S → Prop} {size : S → ℕ}
  {s s' : S} {ls : List L}

variable (M ok I size) in
/-- While the invariant holds, each step keeps it and makes the measure smaller. -/
def Decreases : Prop :=
  ∀ s l s', I s → ok s l → M.step s l = some s' → I s' ∧ size s' < size s

variable (M ok s) in
/-- No step that meets the condition is possible. -/
def Stuck : Prop := ∀ l s', ok s l → M.step s l ≠ some s'

/-- A run has at most as many steps as the measure says. -/
theorem Decreases.length_add_le (h : M.Decreases ok I size) (hs : I s)
    (hrun : M.Run ok s ls s') : I s' ∧ size s' + ls.length ≤ size s := by
  induction hrun with
  | nil => exact ⟨hs, le_rfl⟩
  | snoc _ hok hstep ih =>
    obtain ⟨hu, hle⟩ := ih
    obtain ⟨hu', hlt⟩ := h _ _ _ hu hok hstep
    rw [List.length_append, List.length_singleton]
    exact ⟨hu', by omega⟩

/-- Every run can be continued until no step is possible. -/
theorem Decreases.exists_stuck (h : M.Decreases ok I size) (hs : I s) :
    ∃ s', M.Reachable ok s s' ∧ M.Stuck ok s' := by
  induction hn : size s using Nat.strong_induction_on generalizing s with
  | _ n ih =>
    by_cases hstuck : M.Stuck ok s
    · exact ⟨s, ⟨[], .nil s⟩, hstuck⟩
    · unfold Stuck at hstuck
      push Not at hstuck
      obtain ⟨l, u, hok, hstep⟩ := hstuck
      obtain ⟨hu, hlt⟩ := h s l u hs hok hstep
      obtain ⟨s', ⟨ls, hls⟩, hs'⟩ := ih (size u) (hn ▸ hlt) hu rfl
      exact ⟨s', ⟨l :: ls, .head hok hstep hls⟩, hs'⟩

end Machine

/-- Changing one component changes the sum by the difference of its costs. -/
theorem sum_cost_update {ι α : Type*} [DecidableEq ι] {is : Finset ι} {i : ι} (hi : i ∈ is)
    (f : ι → α) (a : α) (cost : ι → α → ℕ) :
    ∑ j ∈ is, cost j (Function.update f i a j) + cost i (f i) =
      ∑ j ∈ is, cost j (f j) + cost i a := by
  rw [← Finset.add_sum_erase is _ hi, ← Finset.add_sum_erase is (fun j => cost j (f j)) hi,
    Function.update_self]
  have hrest : ∑ j ∈ is.erase i, cost j (Function.update f i a j) =
      ∑ j ∈ is.erase i, cost j (f j) :=
    Finset.sum_congr rfl fun j hj => by rw [Function.update_of_ne (Finset.ne_of_mem_erase hj)]
  rw [hrest]
  omega

section

open scoped Classical

/-- How many of the given elements can be reached from `a`. -/
noncomputable def height {α : Type*} (r : α → α → Prop) (targets : Finset α) (a : α) : ℕ :=
  (targets.filter fun b => Relation.TransGen r a b).card

theorem height_le {α : Type*} (r : α → α → Prop) (targets : Finset α) (a : α) :
    height r targets a ≤ targets.card := Finset.card_filter_le _ _

/-- Without cycles, fewer elements can be reached from a successor. -/
theorem height_lt {α : Type*} {r : α → α → Prop} {targets : Finset α}
    (hacyclic : ∀ a, ¬ Relation.TransGen r a a) (htargets : ∀ a b, r a b → b ∈ targets) {a b : α}
    (h : r a b) : height r targets b < height r targets a := by
  refine Finset.card_lt_card (Finset.ssubset_iff_of_subset ?_ |>.2 ⟨b, ?_, ?_⟩)
  · intro c hc
    rw [Finset.mem_filter] at hc ⊢
    exact ⟨hc.1, .head h hc.2⟩
  · exact Finset.mem_filter.2 ⟨htargets a b h, .single h⟩
  · exact fun hb => hacyclic b (Finset.mem_filter.1 hb).2

end

end Maplang
