import Mathlib.Data.List.Induction

/-!
# Services

A service answers one call after the other.  It has a state, which a call may change, and it may
fault.  What is asked of a service is about every call and all calls that were served before it.

* `Service.after` : the state after some calls.
* `Service.answers`, `Service.Indistinguishable` : the answers to some calls, and states that give
  the same ones.
* `Service.Serves` : no call faults, and what is asked holds of each of them.
* `Service.serves_of_invariant` : an invariant that relates the state to the history of calls, and
  that each call keeps, shows what is asked.
* `Service.indistinguishable_of_eq` : states that stand for the same abstract one cannot be told
  apart.
* `Service.serves_iff_eq_nil` : a service that faults whatever it is called for serves no call.
-/

namespace Maplang

namespace Service

variable {ε S C A : Type*}

/-- The state after one call after the other. -/
def after (serve : S → C → Except ε (A × S)) (s : S) (calls : List C) : Except ε S :=
  calls.foldlM (fun s call => (serve s call).map Prod.snd) s

/-- The answers to one call after the other. -/
def answers (serve : S → C → Except ε (A × S)) : S → List C → Except ε (List A)
  | _, [] => .ok []
  | s, call :: calls =>
    match serve s call with
    | .ok (answer, u) => (answers serve u calls).map (answer :: ·)
    | .error fault => .error fault

/-- No calls tell two states apart. -/
def Indistinguishable (serve : S → C → Except ε (A × S)) (s₁ s₂ : S) : Prop :=
  ∀ calls, answers serve s₁ calls = answers serve s₂ calls

/-- Each call is served, and what is asked of its answer and the new state holds. -/
def Serves (serve : S → C → Except ε (A × S)) (asked : List C → S → C → A → S → Prop) (s : S)
    (calls : List C) : Prop :=
  ∀ served call rest, calls = served ++ call :: rest → ∃ u answer u',
    after serve s served = .ok u ∧ serve u call = .ok (answer, u') ∧ asked served u call answer u'

variable {serve : S → C → Except ε (A × S)} {asked : List C → S → C → A → S → Prop} {s u u' : S}
  {calls : List C} {call : C} {answer : A}

theorem after_concat (h : after serve s calls = .ok u) (hcall : serve u call = .ok (answer, u')) :
    after serve s (calls ++ [call]) = .ok u' := by
  unfold after at h ⊢
  rw [List.foldlM_append, h]
  change (serve u call).map Prod.snd >>= pure = .ok u'
  rw [hcall]
  rfl

/-- **The rule for services**: an invariant of the history and the state. -/
theorem serves_of_invariant {I : List C → S → Prop} (h₀ : I [] s)
    (hstep : ∀ served call u, call ∈ calls → I served u → ∃ answer u',
      serve u call = .ok (answer, u') ∧ asked served u call answer u' ∧ I (served ++ [call]) u') :
    Serves serve asked s calls := by
  have hafter : ∀ served, (∀ call ∈ served, call ∈ calls) →
      ∃ u, after serve s served = .ok u ∧ I served u := by
    intro served
    induction served using List.reverseRecOn with
    | nil => exact fun _ => ⟨s, rfl, h₀⟩
    | append_singleton served call ih =>
      intro hmem
      obtain ⟨u, hu, hI⟩ := ih fun call' h => hmem call' (List.mem_append_left _ h)
      obtain ⟨answer, u', hserve, -, hI'⟩ := hstep served call u (hmem call (by simp)) hI
      exact ⟨u', after_concat hu hserve, hI'⟩
  rintro served call rest rfl
  obtain ⟨u, hu, hI⟩ := hafter served fun call' h => List.mem_append_left _ h
  obtain ⟨answer, u', hserve, hasked, -⟩ := hstep served call u (by simp) hI
  exact ⟨u, answer, u', hu, hserve, hasked⟩

/-- **States that stand for the same abstract state** cannot be told apart. -/
theorem indistinguishable_of_eq {B : Type*} {I : S → Prop} {abstract : S → B}
    {spec : B → C → A × B}
    (hserve : ∀ s call, I s → ∃ s', serve s call = .ok ((spec (abstract s) call).1, s') ∧ I s' ∧
      abstract s' = (spec (abstract s) call).2) {s₁ s₂ : S} (h₁ : I s₁) (h₂ : I s₂)
    (h : abstract s₁ = abstract s₂) : Indistinguishable serve s₁ s₂ := by
  intro calls
  induction calls generalizing s₁ s₂ with
  | nil => rfl
  | cons call calls ih =>
    obtain ⟨u₁, hserve₁, hI₁, hu₁⟩ := hserve s₁ call h₁
    obtain ⟨u₂, hserve₂, hI₂, hu₂⟩ := hserve s₂ call h₂
    have hu : abstract u₁ = abstract u₂ := by rw [hu₁, hu₂, h]
    simp only [answers, hserve₁, hserve₂, h, ih hI₁ hI₂ hu]

/-- No call is served by a service that faults at once. -/
theorem serves_iff_eq_nil (h : ∀ call ∈ calls, ∃ fault, serve s call = .error fault) :
    Serves serve asked s calls ↔ calls = [] := by
  constructor
  · intro hserves
    cases calls with
    | nil => rfl
    | cons call rest =>
      obtain ⟨u, answer, u', hu, hserve, -⟩ := hserves [] call rest rfl
      obtain ⟨fault, hfault⟩ := h call (by simp)
      obtain rfl : s = u := Except.ok.inj hu
      rw [hfault] at hserve
      cases hserve
  · rintro rfl served call rest h
    exact absurd h (by simp)

end Service

end Maplang
