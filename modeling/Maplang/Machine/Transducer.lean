import Mathlib.Data.List.Basic

/-!
# Transducers

A transducer reads a list from left to right.  Each element takes it to another state and adds to
its output, or cannot be read.

* `Transducer.run` : the state after a list, and the output.
* `Transducer.run_append` : a list is read part by part.
* `Transducer.run_invariant` : what each step keeps holds after a list.
-/

namespace Maplang

/-- A machine that reads and writes. -/
structure Transducer (S α β : Type*) where
  step : S → α → Option (S × List β)

namespace Transducer

variable {S α β : Type*} (T : Transducer S α β)

/-- Read a list. -/
def run : S → List α → Option (S × List β)
  | s, [] => some (s, [])
  | s, x :: xs =>
    match T.step s x with
    | none => none
    | some (s', out) => (run s' xs).map fun (s'', out') => (s'', out ++ out')

variable {T} {s s' s'' : S} {x : α} {xs ys : List α} {out out' : List β}

theorem run_cons (hstep : T.step s x = some (s', out)) (h : T.run s' xs = some (s'', out')) :
    T.run s (x :: xs) = some (s'', out ++ out') := by
  rw [run, hstep]
  simp only [h, Option.map_some]

theorem run_cons_eq_some (h : T.run s (x :: xs) = some (s'', out)) :
    ∃ s' out₁ out₂, T.step s x = some (s', out₁) ∧ T.run s' xs = some (s'', out₂) ∧
      out = out₁ ++ out₂ := by
  rw [run] at h
  cases hstep : T.step s x with
  | none => simp [hstep] at h
  | some result =>
    obtain ⟨s', out₁⟩ := result
    simp only [hstep, Option.map_eq_some_iff] at h
    obtain ⟨⟨u, out₂⟩, hrun, heq⟩ := h
    obtain ⟨rfl, rfl⟩ := Prod.mk.inj heq
    exact ⟨s', out₁, out₂, rfl, hrun, rfl⟩

/-- A list is read part by part. -/
theorem run_append (h : T.run s xs = some (s', out)) (h' : T.run s' ys = some (s'', out')) :
    T.run s (xs ++ ys) = some (s'', out ++ out') := by
  induction xs generalizing s out with
  | nil =>
    obtain ⟨rfl, rfl⟩ := Prod.mk.inj (Option.some.inj h)
    exact h'
  | cons x xs ih =>
    obtain ⟨u, out₁, out₂, hstep, hrun, rfl⟩ := run_cons_eq_some h
    rw [List.cons_append, List.append_assoc]
    exact run_cons hstep (ih hrun)

/-- The parts of a list may be read one by one from the same state. -/
theorem run_flatMap {γ : Type*} {f : γ → List α} {g : γ → List β} {zs : List γ}
    (h : ∀ z ∈ zs, T.run s (f z) = some (s, g z)) :
    T.run s (zs.flatMap f) = some (s, zs.flatMap g) := by
  induction zs with
  | nil => rfl
  | cons z zs ih =>
    rw [List.flatMap_cons, List.flatMap_cons]
    exact run_append (h z (by simp)) (ih fun y hy => h y (by simp [hy]))

/-- **What each step keeps** holds after a list.  `I` is about what was read so far and the state,
`Q` about an element of the output. -/
theorem run_invariant {I : List α → S → Prop} {Q : β → Prop}
    (hstep : ∀ past x s s' out, past ++ [x] <+: xs → I past s → T.step s x = some (s', out) →
      I (past ++ [x]) s' ∧ ∀ b ∈ out, Q b)
    (hs : I [] s) (h : T.run s xs = some (s', out)) : I xs s' ∧ ∀ b ∈ out, Q b := by
  -- the rest of the list, after what was read so far
  have hrest : ∀ rest past s out, past ++ rest = xs → I past s →
      T.run s rest = some (s', out) → I xs s' ∧ ∀ b ∈ out, Q b := by
    intro rest
    induction rest with
    | nil =>
      intro past s out hpast hs h
      obtain ⟨rfl, rfl⟩ := Prod.mk.inj (Option.some.inj h)
      rw [List.append_nil] at hpast
      exact ⟨hpast ▸ hs, by simp⟩
    | cons x rest ih =>
      intro past s out hpast hs h
      obtain ⟨u, out₁, out₂, hx, hrun, rfl⟩ := run_cons_eq_some h
      rw [List.append_cons] at hpast
      obtain ⟨hu, hout₁⟩ := hstep past x s u out₁ ⟨rest, hpast⟩ hs hx
      obtain ⟨hs', hout₂⟩ := ih _ u out₂ hpast hu hrun
      exact ⟨hs', fun b hb => (List.mem_append.1 hb).elim (hout₁ b) (hout₂ b)⟩
  exact hrest xs [] s out rfl hs h

end Transducer

end Maplang
