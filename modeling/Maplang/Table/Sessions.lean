import Maplang.Machine.Basic
import Mathlib.Data.List.Induction
import Mathlib.Logic.Function.Basic
import Mathlib.Order.Nat

/-!
# Keyed sessions

A sequence of events uses and closes keys.  The first use of a key opens a session, which lasts
until the key is closed; the next use after that opens a new one.  A session is known by the
position of the event that opened it.

## Main definitions

* `Sessions.current events k` : the session of `k` after the events, if it has one.
* `Sessions.session events p k` : the session in which the event at position `p` uses `k`.
* `Sessions.opened events` : how many sessions have been opened.

## Main results

* `Sessions.current_some`, `Sessions.current_none` : what `current` says, in terms of positions.
* `Sessions.key_unique` : a session belongs to one key.
* `Sessions.not_session_of_close` : a closed session is not used again.
* `Sessions.opened_inj` : sessions can be numbered by how many were opened before.
-/

namespace Maplang

namespace Sessions

/-- Something happens to a key. -/
inductive Event (K : Type*) where
  | use (k : K)
  | close (k : K)

variable {K : Type*}

section

variable [DecidableEq K]

/-- The sessions after the event at position `n`. -/
def advance (open_ : K → Option ℕ) (n : ℕ) : Event K → K → Option ℕ
  | .use k => Function.update open_ k (some ((open_ k).getD n))
  | .close k => Function.update open_ k none

/-- The session of each key after the events. -/
def current (events : List (Event K)) : K → Option ℕ :=
  events.zipIdx.foldl (fun open_ e => advance open_ e.2 e.1) fun _ => none

/-- The session in which the event at position `p` uses `k`. -/
def session (events : List (Event K)) (p : ℕ) (k : K) : ℕ := (current (events.take p) k).getD p

/-- The event at position `p` opens a session. -/
def opens (events : List (Event K)) (p : ℕ) : Bool :=
  match events[p]? with
  | some (.use k) => (current (events.take p) k).isNone
  | _ => false

/-- How many sessions have been opened. -/
def opened (events : List (Event K)) : ℕ := (List.range events.length).countP (opens events)

theorem current_append (events : List (Event K)) (e : Event K) :
    current (events ++ [e]) = advance (current events) events.length e := by
  simp [current, List.zipIdx_append]

end

/-- What is known about a key that has a session, and about one that has none. -/
def Describes (events : List (Event K)) (k : K) : Option ℕ → Prop
  | some q => events[q]? = some (.use k) ∧ (∀ r : ℕ, q < r → events[r]? ≠ some (.close k)) ∧
      ∀ q' < q, events[q']? = some (.use k) →
        ∃ r : ℕ, q' < r ∧ r < q ∧ events[r]? = some (.close k)
  | none => ∀ q : ℕ, events[q]? = some (.use k) → ∃ r : ℕ, q < r ∧ events[r]? = some (.close k)

/-- An event that neither closes nor opens the session of a key leaves its description. -/
theorem Describes.append {events : List (Event K)} {k : K} {o : Option ℕ} (h : Describes events k o)
    {e : Event K} (hclose : e ≠ .close k) (huse : o = none → e ≠ .use k) :
    Describes (events ++ [e]) k o := by
  cases o with
  | some q =>
    obtain ⟨hq, hopen, hfirst⟩ := h
    refine ⟨getElem?_mono (List.prefix_append _ _) hq, fun r hr hcl => ?_, fun q' hq' huse' => ?_⟩
    · rcases getElem?_concat_cases hcl with ⟨hcl, -⟩ | ⟨-, rfl⟩
      · exact hopen r hr hcl
      · exact hclose rfl
    · rcases getElem?_concat_cases huse' with ⟨huse', -⟩ | ⟨rfl, -⟩
      · obtain ⟨r, hr, hrq, hcl⟩ := hfirst q' hq' huse'
        exact ⟨r, hr, hrq, getElem?_mono (List.prefix_append _ _) hcl⟩
      · have := (List.getElem?_eq_some_iff.1 hq).1
        omega
  | none =>
    intro q hq
    rcases getElem?_concat_cases hq with ⟨hq, -⟩ | ⟨-, heq⟩
    · obtain ⟨r, hr, hcl⟩ := h q hq
      exact ⟨r, hr, getElem?_mono (List.prefix_append _ _) hcl⟩
    · exact absurd heq.symm (huse rfl)

theorem getElem?_take {events : List (Event K)} {p q : ℕ} {x : Event K}
    (h : (events.take p)[q]? = some x) : q < p ∧ events[q]? = some x := by
  rw [List.getElem?_take] at h
  split at h
  · exact ⟨‹_›, h⟩
  · cases h

variable [DecidableEq K]

/-- `current` describes every key. -/
theorem describes_current (events : List (Event K)) (k : K) :
    Describes events k (current events k) := by
  induction events using List.reverseRecOn with
  | nil =>
    intro q hq
    simp at hq
  | append_singleton events e ih =>
    rw [current_append]
    cases e with
    | use k' =>
      by_cases hk : k = k'
      · subst hk
        rw [advance, Function.update_self]
        -- a key without a session gets one that starts here
        cases hcur : current events k with
        | some q => exact (hcur ▸ ih).append (by simp) (by simp)
        | none =>
          rw [hcur] at ih
          refine ⟨by simp, fun r hr hcl => ?_, fun q' hq' huse => ?_⟩
          · have := (List.getElem?_eq_some_iff.1 hcl).1
            simp at hr this
            omega
          · rcases getElem?_concat_cases huse with ⟨huse, -⟩ | ⟨rfl, -⟩
            · obtain ⟨r, hr, hcl⟩ := ih q' huse
              exact ⟨r, hr, (List.getElem?_eq_some_iff.1 hcl).1,
                getElem?_mono (List.prefix_append _ _) hcl⟩
            · exact absurd hq' (lt_irrefl _)
      · rw [advance, Function.update_of_ne hk]
        exact ih.append (by simp) fun _ heq => hk (Event.use.inj heq).symm
    | close k' =>
      by_cases hk : k = k'
      · subst hk
        rw [advance, Function.update_self]
        intro q hq
        -- the event at the end closes whatever was open
        rcases getElem?_concat_cases hq with ⟨-, hlt⟩ | ⟨-, heq⟩
        · exact ⟨events.length, hlt, by simp⟩
        · cases heq
      · rw [advance, Function.update_of_ne hk]
        exact ih.append (fun heq => hk (Event.close.inj heq).symm) (by simp)

theorem current_some {events : List (Event K)} {k : K} {q : ℕ} (h : current events k = some q) :
    events[q]? = some (.use k) ∧ (∀ r, q < r → events[r]? ≠ some (.close k)) ∧
      ∀ q' < q, events[q']? = some (.use k) →
        ∃ r, q' < r ∧ r < q ∧ events[r]? = some (.close k) := by
  have hdescribes := describes_current events k
  rwa [h] at hdescribes

theorem current_none {events : List (Event K)} {k : K} (h : current events k = none) {q : ℕ}
    (hq : events[q]? = some (.use k)) : ∃ r, q < r ∧ events[r]? = some (.close k) := by
  have hdescribes := describes_current events k
  rw [h] at hdescribes
  exact hdescribes q hq

theorem lt_length_of_current {events : List (Event K)} {k : K} {q : ℕ}
    (h : current events k = some q) : q < events.length :=
  (List.getElem?_eq_some_iff.1 (current_some h).1).1

variable {events : List (Event K)} {p : ℕ} {k : K}

theorem session_le : session events p k ≤ p := by
  unfold session
  cases h : current (events.take p) k with
  | none => exact le_rfl
  | some q => exact (getElem?_take (current_some h).1).1.le

/-- The session of a use was opened by a use of the same key, ... -/
theorem use_session (h : events[p]? = some (.use k)) :
    events[session events p k]? = some (.use k) := by
  unfold session
  cases hcur : current (events.take p) k with
  | none => exact h
  | some q => exact (getElem?_take (current_some hcur).1).2

/-- ... has not been closed since, ... -/
theorem not_close_of_session {r : ℕ} (hr : session events p k < r) (hp : r < p) :
    events[r]? ≠ some (.close k) := by
  unfold session at hr
  cases hcur : current (events.take p) k with
  | none => simp [hcur] at hr; omega
  | some q =>
    rw [hcur] at hr
    intro hcl
    refine (current_some hcur).2.1 r hr ?_
    rw [List.getElem?_take, if_pos hp, hcl]

/-- ... and is the first use since the key was closed last. -/
theorem close_before_session {q : ℕ} (hq : q < session events p k)
    (huse : events[q]? = some (.use k)) :
    ∃ r, q < r ∧ r < session events p k ∧ events[r]? = some (.close k) := by
  have hqp : q < p := hq.trans_le session_le
  unfold session at hq ⊢
  have huse' : (events.take p)[q]? = some (.use k) := by rw [List.getElem?_take, if_pos hqp, huse]
  cases hcur : current (events.take p) k with
  | none =>
    obtain ⟨r, hr, hcl⟩ := current_none hcur huse'
    exact ⟨r, hr, (getElem?_take hcl).1, (getElem?_take hcl).2⟩
  | some q' =>
    rw [hcur] at hq
    obtain ⟨r, hr, hrq, hcl⟩ := (current_some hcur).2.2 q hq huse'
    exact ⟨r, hr, hrq, (getElem?_take hcl).2⟩

/-- **A session belongs to one key.** -/
theorem key_unique {p' : ℕ} {k' : K} (h : events[p]? = some (.use k))
    (h' : events[p']? = some (.use k')) (heq : session events p k = session events p' k') :
    k = k' := by
  have hq := use_session h
  rw [heq, use_session h'] at hq
  exact (Event.use.inj (Option.some.inj hq)).symm

/-- **A closed session is not used again.** -/
theorem not_session_of_close {r p' : ℕ} {k' : K} (h : events[p]? = some (.use k))
    (hr : events[r]? = some (.close k)) (hpr : p < r) (h' : events[p']? = some (.use k'))
    (hrp : r < p') : session events p k ≠ session events p' k' := by
  intro heq
  obtain rfl := key_unique h h' heq
  exact not_close_of_session (heq ▸ session_le.trans_lt hpr) hrp hr

/-! ### Numbering sessions -/

theorem opens_take {n : ℕ} (h : p < n) : opens (events.take n) p = opens events p := by
  simp [opens, h, List.take_take, Nat.min_eq_left h.le]

theorem opens_of_current {q : ℕ} (h : current events k = some q) : opens events q = true := by
  obtain ⟨hopen, -, hfirst⟩ := current_some h
  have hnone : current (events.take q) k = none := by
    by_contra hne
    obtain ⟨q', hq'⟩ := Option.ne_none_iff_exists'.1 hne
    obtain ⟨hlt, huse⟩ := getElem?_take (current_some hq').1
    obtain ⟨r, hqr, hrq, hcl⟩ := hfirst q' hlt huse
    refine (current_some hq').2.1 r hqr ?_
    rw [List.getElem?_take, if_pos hrq, hcl]
  simp [opens, hopen, hnone]

theorem opens_session (h : events[p]? = some (.use k)) :
    opens events (session events p k) = true := by
  unfold session
  cases hcur : current (events.take p) k with
  | none => simp [opens, h, hcur]
  | some q =>
    have hlt : q < p := (getElem?_take (current_some hcur).1).1
    rw [Option.getD_some, ← opens_take hlt]
    exact opens_of_current hcur

/-- The event that opens a session is in it. -/
theorem session_session (h : events[p]? = some (.use k)) :
    session events (session events p k) k = session events p k := by
  have hopens := opens_session h
  rw [opens, use_session h] at hopens
  rw [session, Option.isNone_iff_eq_none.1 hopens, Option.getD_none]

theorem opened_take (n : ℕ) (h : n ≤ events.length) :
    opened (events.take n) = (List.range n).countP (opens events) := by
  rw [opened, List.length_take, Nat.min_eq_left h]
  exact List.countP_congr fun q hq => by rw [opens_take (List.mem_range.1 hq)]

theorem opened_append (events : List (Event K)) (e : Event K) :
    opened (events ++ [e]) =
      opened events + if opens (events ++ [e]) events.length then 1 else 0 := by
  rw [opened, List.length_append, List.length_singleton, List.range_succ, List.countP_append,
    List.countP_singleton]
  congr 1
  rw [← opened_take events.length (by simp), List.take_left]

/-- Opening a session increases the count. -/
theorem opened_take_lt {q n : ℕ} (hq : opens events q = true) (hqn : q < n)
    (hn : n ≤ events.length) : opened (events.take q) < opened (events.take n) := by
  rw [opened_take q (hqn.le.trans hn), opened_take n hn]
  have hsplit : List.range n = List.range q ++ (List.range (n - q)).map (q + ·) := by
    rw [← List.range_add, Nat.add_sub_cancel' hqn.le]
  rw [hsplit, List.countP_append]
  refine Nat.lt_add_of_pos_right (List.countP_pos_iff.2 ⟨q, ?_, hq⟩)
  exact List.mem_map.2 ⟨0, List.mem_range.2 (by omega), rfl⟩

/-- **Different sessions have different numbers.** -/
theorem opened_inj {q q' : ℕ} (hq : opens events q = true) (hq' : opens events q' = true)
    (h : opened (events.take q) = opened (events.take q')) : q = q' := by
  have hlength : ∀ {a : ℕ}, opens events a = true → a ≤ events.length := by
    intro a ha
    by_contra hge
    rw [opens, List.getElem?_eq_none (by omega)] at ha
    cases ha
  rcases lt_trichotomy q q' with hqq | rfl | hqq
  · exact absurd h (opened_take_lt hq hqq (hlength hq')).ne
  · rfl
  · exact absurd h.symm (opened_take_lt hq' hqq (hlength hq)).ne

end Sessions

end Maplang
