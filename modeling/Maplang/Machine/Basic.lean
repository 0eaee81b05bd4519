import Mathlib.Data.List.Basic
import Mathlib.Logic.Function.Basic

/-!
# Labelled machines and their runs

The concurrent models of this library are *labelled machines*: the label of a step names the
thread that moves and resolves every choice the environment makes, so the step itself is a
(partial) function and a schedule is a list of labels that can be executed.

## Main definitions

* `Machine S L` : states `S`, labels `L`, a partial step function.
* `Machine.Run ok s ls s'` : the labels `ls` lead from `s` to `s'`, and each of them satisfies the
  *step condition* `ok` in the state it is taken from.  An assumption about the environment ("no
  handler throws", "queues are FIFO") is a step condition; a claim about every run uses `free`.
* `Machine.Meets ok s ls` : every step of a schedule is taken in a state that meets a condition.
* `Machine.Reachable ok s s'` : some run leads from `s` to `s'`.
* `Machine.Precedes ok s s' P Q` : in every run from `s` to `s'`, `P` comes before `Q`.

## Main results

* `Machine.Run.invariant` : a predicate that holds initially and is kept by every step that meets
  the condition holds at the end of every run.
* `Machine.meets_congr` : conditions that are equivalent for single steps are so for schedules.
* `Machine.run_exec`, `Machine.reachable_exec` : executing a schedule gives a run.
* `getElem?_mono`, `getElem?_concat_cases` : histories, lists that only grow at their end.
-/

namespace Maplang

/-- A machine whose labels resolve every choice. -/
structure Machine (S L : Type*) where
  /-- The state reached by performing a label, `none` when it cannot be performed. -/
  step : S → L → Option S

namespace Machine

variable {S L : Type*} (M : Machine S L)

/-- The step condition that every step meets. -/
def free : S → L → Prop := fun _ _ => True

/-- Runs whose steps all meet the condition `ok`; the last step is the last constructor. -/
inductive Run (ok : S → L → Prop) : S → List L → S → Prop
  | nil (s : S) : Run ok s [] s
  | snoc {s s' s'' : S} {ls : List L} {l : L} :
      Run ok s ls s' → ok s' l → M.step s' l = some s'' → Run ok s (ls ++ [l]) s''

/-- `s'` is at the end of a run from `s`. -/
def Reachable (ok : S → L → Prop) (s s' : S) : Prop := ∃ ls, M.Run ok s ls s'

/-- In every run from `s` to `s'`, a step after which `Q` holds is taken from a state in which `P`
holds already. -/
def Precedes (ok : S → L → Prop) (s s' : S) (P Q : S → Prop) : Prop :=
  ∀ u l u', M.Reachable ok s u → ok u l → M.step u l = some u' → M.Reachable ok u' s' → Q u' → P u

/-- Execute a schedule, checking a decidable step condition on the way. -/
def exec (ok : S → L → Bool) : S → List L → Option S
  | s, [] => some s
  | s, l :: ls => if ok s l then (M.step s l).bind fun s' => exec ok s' ls else none

variable {M}

/-- A predicate that holds initially and is kept by every admitted step holds throughout. -/
theorem Run.invariant {ok : S → L → Prop} {I : S → Prop} {s s' : S} {ls : List L}
    (h : M.Run ok s ls s') (h₀ : I s)
    (hstep : ∀ u l u', I u → ok u l → M.step u l = some u' → I u') : I s' := by
  induction h with
  | nil => exact h₀
  | snoc _ hok hs ih => exact hstep _ _ _ ih hok hs

theorem Reachable.invariant {ok : S → L → Prop} {I : S → Prop} {s s' : S}
    (h : M.Reachable ok s s') (h₀ : I s)
    (hstep : ∀ u l u', I u → ok u l → M.step u l = some u' → I u') : I s' := by
  obtain ⟨ls, hls⟩ := h
  exact hls.invariant h₀ hstep

/-- Weakening the step condition. -/
theorem Run.mono {ok ok' : S → L → Prop} {s s' : S} {ls : List L} (h : M.Run ok s ls s')
    (hok : ∀ u l, ok u l → ok' u l) : M.Run ok' s ls s' := by
  induction h with
  | nil => exact .nil _
  | snoc _ hl hs ih => exact .snoc ih (hok _ _ hl) hs

theorem Reachable.mono {ok ok' : S → L → Prop} {s s' : S} (h : M.Reachable ok s s')
    (hok : ∀ u l, ok u l → ok' u l) : M.Reachable ok' s s' := by
  obtain ⟨ls, hls⟩ := h
  exact ⟨ls, hls.mono hok⟩

theorem Run.append {ok : S → L → Prop} {s u s' : S} {ls ls' : List L} (h : M.Run ok s ls u)
    (h' : M.Run ok u ls' s') : M.Run ok s (ls ++ ls') s' := by
  induction h' with
  | nil => rwa [List.append_nil]
  | snoc _ hl hs ih =>
    rw [← List.append_assoc]
    exact .snoc ih hl hs

theorem Run.head {ok : S → L → Prop} {s u s' : S} {l : L} {ls : List L} (hok : ok s l)
    (hs : M.step s l = some u) (h : M.Run ok u ls s') : M.Run ok s (l :: ls) s' :=
  Run.append (.snoc (.nil s) hok hs) h

theorem Reachable.trans {ok : S → L → Prop} {s u s' : S} (h : M.Reachable ok s u)
    (h' : M.Reachable ok u s') : M.Reachable ok s s' := by
  obtain ⟨ls, hls⟩ := h
  obtain ⟨ls', hls'⟩ := h'
  exact ⟨_, hls.append hls'⟩

theorem Reachable.snoc {ok : S → L → Prop} {s u s' : S} {l : L} (h : M.Reachable ok s u)
    (hok : ok u l) (hs : M.step u l = some s') : M.Reachable ok s s' := by
  obtain ⟨ls, hls⟩ := h
  exact ⟨_, .snoc hls hok hs⟩

/-- Executing a schedule whose steps meet the condition gives a run. -/
theorem run_of_exec {ok : S → L → Bool} {s s' : S} {ls : List L}
    (h : M.exec ok s ls = some s') : M.Run (fun u l => ok u l = true) s ls s' := by
  induction ls generalizing s with
  | nil => cases h; exact .nil _
  | cons l ls ih =>
    rw [exec] at h
    split at h
    · rename_i hok
      obtain ⟨u, hu, hrest⟩ := Option.bind_eq_some_iff.1 h
      exact Run.head hok hu (ih hrest)
    · cases h

/-- A schedule that can be executed leads to the state that executing it gives. -/
theorem run_exec {ok : S → L → Bool} {s : S} {ls : List L}
    (h : (M.exec ok s ls).isSome = true) :
    M.Run (fun u l => ok u l = true) s ls ((M.exec ok s ls).getD s) := by
  obtain ⟨s', hs'⟩ := Option.isSome_iff_exists.1 h
  rw [hs', Option.getD_some]
  exact run_of_exec hs'

/-- The state a schedule leads to is reachable. -/
theorem reachable_exec {ok : S → L → Bool} {s : S} {ls : List L}
    (h : (M.exec ok s ls).isSome = true) :
    M.Reachable (fun u l => ok u l = true) s ((M.exec ok s ls).getD s) :=
  ⟨ls, run_exec h⟩

/-! ### Conditions on the steps of a schedule -/

variable (M) in
/-- Every step of a schedule is taken in a state that meets the condition, as long as the steps can
be performed. -/
def Meets (ok : S → L → Prop) : S → List L → Prop
  | _, [] => True
  | s, l :: ls => ok s l ∧ ∀ s', M.step s l = some s' → Meets ok s' ls

/-- A condition that implies another one, while an invariant holds that it keeps. -/
theorem Meets.mono {I : S → Prop} {ok ok' : S → L → Prop} (himp : ∀ s l, I s → ok s l → ok' s l)
    (hinvariant : ∀ s l s', I s → ok s l → M.step s l = some s' → I s') {s : S} {ls : List L}
    (hs : I s) (h : M.Meets ok s ls) : M.Meets ok' s ls := by
  induction ls generalizing s with
  | nil => trivial
  | cons l ls ih =>
    obtain ⟨hok, hrest⟩ := h
    exact ⟨himp s l hs hok, fun s' hs' => ih (hinvariant s l s' hs hok hs') (hrest s' hs')⟩

/-- **Conditions on single steps** that are equivalent while an invariant holds, which they keep,
are equivalent for schedules. -/
theorem meets_congr {I : S → Prop} {ok ok' : S → L → Prop} (hiff : ∀ s l, I s → (ok s l ↔ ok' s l))
    (hinvariant : ∀ s l s', I s → ok' s l → M.step s l = some s' → I s') {s : S} (hs : I s)
    (ls : List L) : M.Meets ok s ls ↔ M.Meets ok' s ls := by
  constructor
  · exact Meets.mono (fun s l h => (hiff s l h).1)
      (fun s l s' h hok => hinvariant s l s' h ((hiff s l h).1 hok)) hs
  · exact Meets.mono (fun s l h => (hiff s l h).2) hinvariant hs

end Machine

/-! ### Histories -/

section

variable {α : Type*} {xs ys : List α} {x y : α} {i : ℕ}

/-- What a history has it keeps. -/
theorem getElem?_mono (h : xs <+: ys) (hx : xs[i]? = some x) : ys[i]? = some x := by
  obtain ⟨zs, rfl⟩ := h
  rw [List.getElem?_append_left (List.getElem?_eq_some_iff.1 hx).1, hx]

/-- What is in a history with one more entry was there before, or is that entry. -/
theorem getElem?_concat_cases (h : (xs ++ [x])[i]? = some y) :
    xs[i]? = some y ∧ i < xs.length ∨ i = xs.length ∧ y = x := by
  rw [List.getElem?_append] at h
  split at h
  · exact .inl ⟨h, ‹_›⟩
  · rw [List.getElem?_singleton] at h
    split at h
    · exact .inr ⟨by omega, (Option.some.inj h).symm⟩
    · cases h

end

end Maplang
