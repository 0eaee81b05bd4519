import Maplang.Machine.Service
import Mathlib.Logic.Function.Basic

/-!
# Families of services

There is one service for each key, and a call goes to the service of its key.  Seen from one key,
the calls of the others do not happen: the answers to its calls are those that its own service gives
when it is called alone.

* `Service.each` : the family, as one service.
* `Service.callsOf`, `Service.answersOf` : the calls of one key, and the answers to them.
* `Service.answers_callsOf` : **the answers to the calls of a key are those of its own service**.
* `Service.exists_answers_each_iff` : the family answers exactly if each service does.
* `Service.answers_eq_of_simulates` : services that simulate each other, call by call, give the same
  answers.
-/

namespace Maplang

namespace Service

variable {ε S T C A K : Type*}

section

variable [DecidableEq K]

/-- One service for each key.  Each call goes to the service of its key. -/
def each (serve : S → C → Except ε (A × S)) (key : C → K) (f : K → S) (call : C) :
    Except ε (A × (K → S)) :=
  (serve (f (key call)) call).map fun p => (p.1, Function.update f (key call) p.2)

/-- The calls of one key. -/
def callsOf (key : C → K) (k : K) (calls : List C) : List C :=
  calls.filter fun call => key call = k

/-- The answers to the calls of one key. -/
def answersOf (key : C → K) (k : K) (calls : List C) (as : List A) : List A :=
  ((calls.zip as).filter fun p => key p.1 = k).map Prod.snd

variable {key : C → K} {k : K} {call : C} {calls : List C} {a : A} {as : List A}

theorem callsOf_cons_self (h : key call = k) :
    callsOf key k (call :: calls) = call :: callsOf key k calls :=
  List.filter_cons_of_pos (by simpa using h)

theorem callsOf_cons_of_ne (h : key call ≠ k) :
    callsOf key k (call :: calls) = callsOf key k calls :=
  List.filter_cons_of_neg (by simpa using h)

theorem answersOf_cons_self (h : key call = k) :
    answersOf key k (call :: calls) (a :: as) = a :: answersOf key k calls as := by
  rw [answersOf, List.zip_cons_cons, List.filter_cons_of_pos (by simpa using h), List.map_cons,
    answersOf]

theorem answersOf_cons_of_ne (h : key call ≠ k) :
    answersOf key k (call :: calls) (a :: as) = answersOf key k calls as := by
  rw [answersOf, List.zip_cons_cons, List.filter_cons_of_neg (by simpa using h), answersOf]

theorem callsOf_append (calls calls' : List C) :
    callsOf key k (calls ++ calls') = callsOf key k calls ++ callsOf key k calls' :=
  List.filter_append ..

theorem answersOf_append (h : calls.length = as.length) (calls' : List C) (as' : List A) :
    answersOf key k (calls ++ calls') (as ++ as') =
      answersOf key k calls as ++ answersOf key k calls' as' := by
  rw [answersOf, List.zip_append h, List.filter_append, List.map_append, answersOf, answersOf]

theorem length_answersOf (h : calls.length = as.length) :
    (answersOf key k calls as).length = (callsOf key k calls).length := by
  induction calls generalizing as with
  | nil => rfl
  | cons call calls ih =>
    obtain ⟨a, as, rfl⟩ := List.exists_cons_of_length_eq_add_one h.symm
    have ih := ih (Nat.succ.inj h)
    by_cases hk : key call = k
    · rw [callsOf_cons_self hk, answersOf_cons_self hk, List.length_cons, List.length_cons, ih]
    · rw [callsOf_cons_of_ne hk, answersOf_cons_of_ne hk, ih]

theorem callsOf_map {D : Type*} (g : D → C) (k : K) (calls : List D) :
    callsOf key k (calls.map g) = (callsOf (fun call => key (g call)) k calls).map g := by
  rw [callsOf, List.filter_map]
  rfl

/-- The answers to calls depend on their keys. -/
theorem answersOf_map {D : Type*} (g : D → C) (k : K) (calls : List D) (as : List A) :
    answersOf key k (calls.map g) as = answersOf (fun call => key (g call)) k calls as := by
  rw [answersOf, answersOf, List.zip_map_left, List.filter_map, List.map_map]
  rfl

end

variable {serve : S → C → Except ε (A × S)} {call : C} {calls : List C} {as : List A} {s : S}

/-- What answers to calls are made of. -/
theorem answers_cons_iff : answers serve s (call :: calls) = .ok as ↔
    ∃ a u rest, serve s call = .ok (a, u) ∧ answers serve u calls = .ok rest ∧ as = a :: rest := by
  rw [answers]
  cases hserve : serve s call with
  | error fault =>
    constructor
    · intro h
      cases h
    · rintro ⟨a, u, rest, h, -⟩
      cases h
  | ok p =>
    obtain ⟨a, u⟩ := p
    simp only
    constructor
    · cases hrest : answers serve u calls with
      | error fault =>
        intro h
        cases h
      | ok rest =>
        intro h
        exact ⟨a, u, rest, rfl, hrest, (Except.ok.inj h).symm⟩
    · rintro ⟨a', u', rest, h, hrest, rfl⟩
      obtain ⟨rfl, rfl⟩ := Prod.mk.inj (Except.ok.inj h)
      rw [hrest]
      rfl

theorem length_answers (h : answers serve s calls = .ok as) : as.length = calls.length := by
  induction calls generalizing s as with
  | nil =>
    obtain rfl := Except.ok.inj h
    rfl
  | cons call calls ih =>
    obtain ⟨a, u, rest, -, hrest, rfl⟩ := answers_cons_iff.1 h
    rw [List.length_cons, ih hrest, List.length_cons]

/-- Calls that come after others find the state that these have left. -/
theorem answers_append {u : S} (h : answers serve s calls = .ok as)
    (hafter : after serve s calls = .ok u) {calls' : List C} {as' : List A}
    (h' : answers serve u calls' = .ok as') :
    answers serve s (calls ++ calls') = .ok (as ++ as') := by
  induction calls generalizing s as with
  | nil =>
    obtain rfl := Except.ok.inj h
    obtain rfl := Except.ok.inj hafter
    exact h'
  | cons call calls ih =>
    obtain ⟨a, v, rest, hserve, hrest, rfl⟩ := answers_cons_iff.1 h
    rw [after, List.foldlM_cons, hserve] at hafter
    exact answers_cons_iff.2 ⟨a, v, _, hserve, ih hrest hafter, rfl⟩

section

variable [DecidableEq K] {key : C → K} {f : K → S}

theorem each_eq_ok {a : A} {g : K → S} : each serve key f call = .ok (a, g) ↔
    ∃ u, serve (f (key call)) call = .ok (a, u) ∧ g = Function.update f (key call) u := by
  rw [each]
  cases serve (f (key call)) call with
  | error fault => exact ⟨nofun, fun ⟨_, h, _⟩ => nomatch h⟩
  | ok p =>
    obtain ⟨a', u⟩ := p
    constructor
    · intro h
      obtain ⟨rfl, rfl⟩ := Prod.mk.inj (Except.ok.inj h)
      exact ⟨u, rfl, rfl⟩
    · rintro ⟨u', h, rfl⟩
      obtain ⟨rfl, rfl⟩ := Prod.mk.inj (Except.ok.inj h)
      rfl

/-- **Seen from one key, the others do nothing.** -/
theorem answers_callsOf (h : answers (each serve key) f calls = .ok as) (k : K) :
    answers serve (f k) (callsOf key k calls) = .ok (answersOf key k calls as) := by
  induction calls generalizing f as with
  | nil => rfl
  | cons call calls ih =>
    obtain ⟨a, g, rest, hcall, hrest, rfl⟩ := answers_cons_iff.1 h
    obtain ⟨u, hserve, rfl⟩ := each_eq_ok.1 hcall
    have ih := ih hrest
    by_cases hk : key call = k
    · subst hk
      rw [Function.update_self] at ih
      rw [callsOf_cons_self rfl, answersOf_cons_self rfl]
      exact answers_cons_iff.2 ⟨a, u, _, hserve, ih, rfl⟩
    · rw [Function.update_of_ne (Ne.symm hk)] at ih
      rw [callsOf_cons_of_ne hk, answersOf_cons_of_ne hk]
      exact ih

/-- The family answers all calls exactly if each service answers those of its key. -/
theorem exists_answers_each_iff : (∃ as, answers (each serve key) f calls = .ok as) ↔
    ∀ k, ∃ as, answers serve (f k) (callsOf key k calls) = .ok as := by
  refine ⟨fun ⟨as, h⟩ k => ⟨_, answers_callsOf h k⟩, fun h => ?_⟩
  induction calls generalizing f with
  | nil => exact ⟨[], rfl⟩
  | cons call calls ih =>
    obtain ⟨as, has⟩ := h (key call)
    rw [callsOf_cons_self rfl] at has
    obtain ⟨a, u, rest, hserve, hrest, -⟩ := answers_cons_iff.1 has
    obtain ⟨as', has'⟩ := ih (f := Function.update f (key call) u) fun k => by
      by_cases hk : key call = k
      · subst hk
        rw [Function.update_self]
        exact ⟨rest, hrest⟩
      · rw [Function.update_of_ne (Ne.symm hk)]
        have hk' := h k
        rwa [callsOf_cons_of_ne hk] at hk'
    exact ⟨_, answers_cons_iff.2 ⟨a, _, as', each_eq_ok.2 ⟨u, hserve, rfl⟩, has', rfl⟩⟩

end

/-- **Simulation, call by call**: what relates two states relates those after a call, which both
services answer alike; a call of the one is `g` of it for the other. -/
theorem answers_eq_of_simulates {D : Type*} {serve' : T → D → Except ε (A × T)}
    {g : List C → C → D} {R : List C → S → T → Prop}
    (hcall : ∀ before call after s t, calls = before ++ call :: after → R before s t →
      (∃ a s' t', serve s call = .ok (a, s') ∧ serve' t (g before call) = .ok (a, t') ∧
        R (before ++ [call]) s' t') ∨
      ∃ fault, serve s call = .error fault ∧ serve' t (g before call) = .error fault)
    {t : T} (h : R [] s t) :
    answers serve s calls =
      answers serve' t (calls.mapIdx fun p call => g (calls.take p) call) := by
  suffices hrest : ∀ before rest s t, calls = before ++ rest → R before s t →
      answers serve s rest = answers serve' t
        (rest.mapIdx fun p call => g (before ++ rest.take p) call) by
    simpa using hrest [] calls s t rfl h
  intro before rest
  induction rest generalizing before with
  | nil => exact fun _ _ _ _ => rfl
  | cons call rest ih =>
    intro s t hcalls hR
    rw [List.mapIdx_cons, List.take_zero, List.append_nil, answers, answers]
    rcases hcall before call rest s t hcalls hR with
      ⟨a, s', t', hserve, hserve', hR'⟩ | ⟨fault, hserve, hserve'⟩
    · have hrest := ih (before ++ [call]) s' t' (by simpa using hcalls) hR'
      simp only [hserve, hserve', hrest, List.take_succ_cons, List.append_assoc, List.cons_append,
        List.nil_append]
    · rw [hserve, hserve']

end Service

end Maplang
