import Maplang.Machine.Basic
import Mathlib.Algebra.BigOperators.Group.List.Basic
import Mathlib.Algebra.Order.Ring.Nat
import Mathlib.Data.List.Perm.Basic

/-!
# A queue whose consumers sleep while it is empty

A consumer of a `BlockOnEmptyConcurrentQueue` that finds the queue empty locks a mutex, looks once
more, and goes to sleep.  A producer enqueues and notifies, without the mutex.  When it does so
after the second look and before the consumer sleeps, it wakes nobody, and the item may stay in the
queue while the consumer sleeps.

The queue is linearizable, and a dequeue gets some item: the position is a choice of the
environment.  A sleeping consumer may wake up on its own.

## Main definitions

* `Phase` : where a consumer is inside `pop`.
* `BlockOnEmptyConcurrentQueue`, `blockOnEmptyMachine` : the producers and consumers of a queue.
* `BlockOnEmptyConcurrentQueue.Lost` : there are items, and all consumers sleep for good.
* `BlockOnEmptyConcurrentQueue.KeepsWakeup` : the step condition for notifications.

## Main results

* `BlockOnEmptyConcurrentQueue.not_lost_of_reachable` : as long as all steps meet the condition, no
  wakeup is lost.
* `BlockOnEmptyConcurrentQueue.exists_lost_of_not` : after a step that does not, all consumers may
  fall asleep although nothing else is pushed or popped.
-/

namespace Maplang

/-- Where a consumer is inside `pop`. -/
inductive Phase where
  /-- Before the first `try_dequeue`. -/
  | trying
  /-- Before it locks the mutex. -/
  | locking
  /-- With the mutex, before the predicate of `wait` is evaluated. -/
  | checking
  /-- With the mutex, after the predicate was false. -/
  | unsatisfied
  /-- In `wait`, without the mutex. -/
  | asleep
  /-- Before `wait` locks the mutex again. -/
  | woken
  /-- With the mutex, after the predicate was true. -/
  | returning
  deriving DecidableEq, Repr

namespace Phase

/-- The consumer has locked the mutex. -/
def HasMutex : Phase → Bool
  | checking | unsatisfied | returning => true
  | trying | locking | asleep | woken => false

/-- The consumer is going to look at the queue. -/
def Looks : Phase → Bool
  | trying | locking | checking | woken => true
  | unsatisfied | asleep | returning => false

/-- The consumer has seen an empty queue, and does not look again unless it is woken. -/
def Waits : Phase → Bool
  | unsatisfied | asleep => true
  | trying | locking | checking | woken | returning => false

/-- How many steps the consumer may still make, if it finds an item when it looks. -/
def stepsLeft : Phase → ℕ
  | trying | unsatisfied | returning => 1
  | checking => 2
  | locking | woken => 3
  | asleep => 0

end Phase

/-- `class BlockOnEmptyConcurrentQueue`, while it is not destroyed: the queue, the consumers inside
`pop`, and how many producers are between their `enqueue` and their `notify_one`. -/
structure BlockOnEmptyConcurrentQueue (α : Type) where
  mQueue : List α := []
  consumers : List Phase := []
  notifying : ℕ := 0

namespace BlockOnEmptyConcurrentQueue

variable {α : Type}

/-- `try_dequeue`, which fails if the queue is empty, and otherwise gets the item at a position. -/
def try_dequeue (mQueue : List α) (position : ℕ) : Option (Bool × List α) :=
  if mQueue = [] then some (false, mQueue)
  else if position < mQueue.length then some (true, mQueue.eraseIdx position)
  else none

/-- A step of a producer or a consumer. -/
inductive Step (α : Type) where
  /-- `push` enqueues an item, ... -/
  | enqueue (item : α)
  /-- ... and calls `notify_one`, which wakes a sleeping consumer if there is one. -/
  | notify (consumer : Option ℕ)
  /-- A consumer calls `pop`. -/
  | enter
  /-- The next step of a consumer. -/
  | pop (consumer position : ℕ)
  /-- A consumer wakes up on its own. -/
  | wake (consumer : ℕ)

variable (s : BlockOnEmptyConcurrentQueue α)

/-- A consumer is somewhere else. -/
def setPhase (i : ℕ) (phase : Phase) : BlockOnEmptyConcurrentQueue α :=
  { s with consumers := s.consumers.set i phase }

/-- A consumer returns. -/
def leave (i : ℕ) : BlockOnEmptyConcurrentQueue α :=
  { s with consumers := s.consumers.eraseIdx i }

/-- The consumer at an index locks the mutex, if nobody else has it. -/
def lock (i : ℕ) : Option (BlockOnEmptyConcurrentQueue α) :=
  if s.consumers.any Phase.HasMutex then none else some (s.setPhase i .checking)

/-- `BlockOnEmptyConcurrentQueue::pop`, one step of the consumer at an index. -/
def popStep (i position : ℕ) : Phase → Option (BlockOnEmptyConcurrentQueue α)
  | .trying => (try_dequeue s.mQueue position).map fun (dequeued, mQueue) =>
    if dequeued then { s with mQueue }.leave i else s.setPhase i .locking
  | .locking | .woken => s.lock i
  | .checking => (try_dequeue s.mQueue position).map fun (dequeued, mQueue) =>
    { s with mQueue }.setPhase i (if dequeued then .returning else .unsatisfied)
  | .unsatisfied => some (s.setPhase i .asleep)
  | .asleep => none
  | .returning => some (s.leave i)

/-- `notify_one` of a producer. -/
def notifyStep : Option ℕ → Option (BlockOnEmptyConcurrentQueue α)
  | none =>
    if s.notifying = 0 ∨ .asleep ∈ s.consumers then none
    else some { s with notifying := s.notifying - 1 }
  | some i =>
    if s.notifying = 0 ∨ s.consumers[i]? ≠ some .asleep then none
    else some { s.setPhase i .woken with notifying := s.notifying - 1 }

end BlockOnEmptyConcurrentQueue

open BlockOnEmptyConcurrentQueue in
/-- The machine of a queue with any number of producers and consumers. -/
def blockOnEmptyMachine (α : Type) : Machine (BlockOnEmptyConcurrentQueue α) (Step α) where
  step s
    | .enqueue item =>
      some { s with mQueue := s.mQueue ++ [item], notifying := s.notifying + 1 }
    | .notify consumer => s.notifyStep consumer
    | .enter => some { s with consumers := s.consumers ++ [.trying] }
    | .pop consumer position => s.consumers[consumer]?.bind (s.popStep consumer position)
    | .wake consumer =>
      if s.consumers[consumer]? = some .asleep then some (s.setPhase consumer .woken) else none

namespace BlockOnEmptyConcurrentQueue

variable {α : Type}

/-- A wakeup has been lost: all pushes have returned, and all consumers sleep although there is an
item. -/
structure Lost (s : BlockOnEmptyConcurrentQueue α) : Prop where
  returned : s.notifying = 0
  items : s.mQueue ≠ []
  inside : s.consumers ≠ []
  asleep : ∀ phase ∈ s.consumers, phase = .asleep

/-- How many consumers are going to look at the queue. -/
def looking (s : BlockOnEmptyConcurrentQueue α) : ℕ := s.consumers.countP Phase.Looks

/-- How many consumers wait to be woken. -/
def waiting (s : BlockOnEmptyConcurrentQueue α) : ℕ := s.consumers.countP Phase.Waits

/-- When `notify_one` wakes nobody while a consumer is about to sleep, the other producers that
still notify, and the consumers that still look, are as many as the items. -/
def KeepsWakeup (s : BlockOnEmptyConcurrentQueue α) : Step α → Prop
  | .notify none =>
    .unsatisfied ∈ s.consumers → s.mQueue.length ≤ s.notifying - 1 + s.looking
  | _ => True

instance (s : BlockOnEmptyConcurrentQueue α) : DecidablePred s.KeepsWakeup
  | .notify none => inferInstanceAs (Decidable (_ → _))
  | .enqueue _ | .notify (some _) | .enter | .pop _ _ | .wake _ =>
    inferInstanceAs (Decidable True)

/-- A wakeup is on its way for each item, if a consumer needs one. -/
def Covered (s : BlockOnEmptyConcurrentQueue α) : Prop :=
  0 < s.waiting → s.mQueue.length ≤ s.notifying + s.looking

/-! ### Counting consumers -/

section

variable {p : Phase → Bool} {phases : List Phase} {i : ℕ} {phase : Phase}

theorem countP_eraseIdx (h : phases[i]? = some phase) :
    (phases.eraseIdx i).countP p + (if p phase then 1 else 0) = phases.countP p := by
  obtain ⟨hi, rfl⟩ := List.getElem?_eq_some_iff.1 h
  rw [← List.countP_cons]
  exact (List.getElem_cons_eraseIdx_perm hi).countP_eq p

theorem countP_set (h : phases[i]? = some phase) (phase' : Phase) :
    (phases.set i phase').countP p + (if p phase then 1 else 0) =
      phases.countP p + (if p phase' then 1 else 0) := by
  have hi := (List.getElem?_eq_some_iff.1 h).1
  rw [(List.set_perm_cons_eraseIdx hi phase').countP_eq p, List.countP_cons,
    ← countP_eraseIdx h]
  omega

end

section

variable {s s' : BlockOnEmptyConcurrentQueue α} {mQueue mQueue' : List α} {i position : ℕ}
  {phase : Phase} {dequeued : Bool}

/-- A dequeue fails if there is no item, and otherwise there is one item less. -/
theorem try_dequeue_cases (h : try_dequeue mQueue position = some (dequeued, mQueue')) :
    dequeued = false ∧ mQueue' = [] ∨ dequeued = true ∧ mQueue'.length + 1 = mQueue.length := by
  rw [try_dequeue] at h
  split at h
  · rename_i hempty
    obtain ⟨rfl, rfl⟩ := Prod.mk.inj (Option.some.inj h)
    exact .inl ⟨rfl, hempty⟩
  · split at h
    · rename_i hposition
      obtain ⟨rfl, rfl⟩ := Prod.mk.inj (Option.some.inj h)
      exact .inr ⟨rfl, List.length_eraseIdx_add_one hposition⟩
    · cases h

/-- The numbers after a consumer has moved. -/
theorem looking_setPhase (h : s.consumers[i]? = some phase) (phase' : Phase) :
    (s.setPhase i phase').looking + (if phase.Looks then 1 else 0) =
      s.looking + (if phase'.Looks then 1 else 0) := countP_set h phase'

theorem waiting_setPhase (h : s.consumers[i]? = some phase) (phase' : Phase) :
    (s.setPhase i phase').waiting + (if phase.Waits then 1 else 0) =
      s.waiting + (if phase'.Waits then 1 else 0) := countP_set h phase'

theorem looking_leave (h : s.consumers[i]? = some phase) :
    (s.leave i).looking + (if phase.Looks then 1 else 0) = s.looking := countP_eraseIdx h

theorem waiting_leave (h : s.consumers[i]? = some phase) :
    (s.leave i).waiting + (if phase.Waits then 1 else 0) = s.waiting := countP_eraseIdx h

/-! ### No wakeup is lost -/

theorem Covered.of_le (h : Covered s) (hwaiting : s'.waiting ≤ s.waiting)
    (hle : s'.mQueue.length + s.notifying + s.looking ≤
      s.mQueue.length + s'.notifying + s'.looking) : Covered s' := by
  intro hpos
  have := h (hpos.trans_le hwaiting)
  omega

/-- A consumer moves without looking. -/
theorem Covered.setPhase (h : Covered s) (hi : s.consumers[i]? = some phase) {phase' : Phase}
    (hlooks : phase'.Looks = phase.Looks) (hwaits : phase'.Waits = phase.Waits) :
    Covered (s.setPhase i phase') := by
  have hlooking := looking_setPhase hi phase'
  have hwaiting := waiting_setPhase hi phase'
  rw [hlooks, Nat.add_right_cancel_iff] at hlooking
  rw [hwaits, Nat.add_right_cancel_iff] at hwaiting
  exact h.of_le hwaiting.le (by rw [hlooking]; exact le_rfl)

/-- A consumer that looks gets an item, and does not look again. -/
theorem Covered.dequeue (h : Covered s) (hlength : mQueue'.length + 1 = s.mQueue.length)
    (hqueue : s'.mQueue = mQueue') (hnotifying : s'.notifying = s.notifying)
    (hlooking : s'.looking + 1 = s.looking) (hwaiting : s'.waiting = s.waiting) : Covered s' := by
  refine h.of_le hwaiting.le ?_
  rw [hqueue, hnotifying]
  omega

/-- Whoever sleeps is woken by the next `notify_one`. -/
theorem Covered.wake (h : Covered s) (hi : s.consumers[i]? = some .asleep) {notified : ℕ}
    (hnotified : notified ≤ 1) :
    Covered { s.setPhase i .woken with notifying := s.notifying - notified } := by
  have hlooking : (s.setPhase i .woken).looking = s.looking + 1 := looking_setPhase hi .woken
  have hwaiting : (s.setPhase i .woken).waiting + 1 = s.waiting := waiting_setPhase hi .woken
  refine h.of_le (Nat.le_of_succ_le hwaiting.le) ?_
  change s.mQueue.length + _ + _ ≤ s.mQueue.length + _ + (s.setPhase i .woken).looking
  rw [hlooking]
  dsimp only
  omega

theorem Covered.pop (h : Covered s) (hi : s.consumers[i]? = some phase)
    (hs : s.popStep i position phase = some s') : Covered s' := by
  cases phase with
  | trying =>
    obtain ⟨⟨dequeued, mQueue'⟩, htaken, rfl⟩ := Option.map_eq_some_iff.1 hs
    rcases try_dequeue_cases htaken with ⟨rfl, -⟩ | ⟨rfl, hlength⟩
    · exact h.setPhase hi rfl rfl
    · exact h.dequeue hlength rfl rfl (looking_leave hi) (waiting_leave hi)
  | locking | woken =>
    rw [popStep, lock] at hs
    split at hs
    · cases hs
    · obtain rfl := Option.some.inj hs
      exact h.setPhase hi rfl rfl
  | checking =>
    obtain ⟨⟨dequeued, mQueue'⟩, htaken, rfl⟩ := Option.map_eq_some_iff.1 hs
    rcases try_dequeue_cases htaken with ⟨rfl, rfl⟩ | ⟨rfl, hlength⟩
    · exact fun _ => Nat.zero_le _
    · exact h.dequeue hlength rfl rfl (looking_setPhase hi .returning)
        (waiting_setPhase hi .returning)
  | unsatisfied =>
    obtain rfl := Option.some.inj hs
    exact h.setPhase hi rfl rfl
  | asleep => cases hs
  | returning =>
    obtain rfl := Option.some.inj hs
    exact h.of_le (waiting_leave hi).le (by rw [← looking_leave hi]; exact le_rfl)

/-- A consumer that waits, and does not sleep, is about to. -/
theorem unsatisfied_of_waiting (hpos : 0 < s.waiting) (hnobody : .asleep ∉ s.consumers) :
    .unsatisfied ∈ s.consumers := by
  obtain ⟨phase, hmem, hwaits⟩ := List.countP_pos_iff.1 hpos
  cases phase with
  | unsatisfied => exact hmem
  | asleep => exact absurd hmem hnobody
  | _ => cases hwaits

/-- **One step** that meets the condition. -/
theorem Covered.step (h : Covered s) {step : Step α} (hok : s.KeepsWakeup step)
    (hs : (blockOnEmptyMachine α).step s step = some s') : Covered s' := by
  cases step with
  | enqueue item =>
    obtain rfl := Option.some.inj hs
    refine h.of_le le_rfl ?_
    rw [List.length_append, List.length_singleton]
    change s.mQueue.length + 1 + s.notifying + s.looking ≤
      s.mQueue.length + (s.notifying + 1) + s.looking
    omega
  | notify consumer =>
    cases consumer with
    | none =>
      simp only [blockOnEmptyMachine, notifyStep] at hs
      split at hs
      · cases hs
      · rename_i hnot
        obtain ⟨-, hnobody⟩ := not_or.1 hnot
        obtain rfl := Option.some.inj hs
        exact fun hpos => hok (unsatisfied_of_waiting hpos hnobody)
    | some i =>
      simp only [blockOnEmptyMachine, notifyStep] at hs
      split at hs
      · cases hs
      · rename_i hnot
        obtain ⟨-, hasleep⟩ := not_or.1 hnot
        obtain rfl := Option.some.inj hs
        exact h.wake (not_not.1 hasleep) le_rfl
  | enter =>
    obtain rfl := Option.some.inj hs
    have hlooking : (s.consumers ++ [Phase.trying]).countP Phase.Looks = s.looking + 1 :=
      List.countP_append
    have hwaiting : (s.consumers ++ [Phase.trying]).countP Phase.Waits = s.waiting :=
      List.countP_append
    refine h.of_le hwaiting.le ?_
    rw [looking, looking, hlooking]
    exact Nat.add_le_add_left (Nat.le_succ _) _
  | pop consumer position =>
    obtain ⟨phase, hi, hstep⟩ := Option.bind_eq_some_iff.1 hs
    exact h.pop hi hstep
  | wake consumer =>
    simp only [blockOnEmptyMachine] at hs
    split at hs
    · rename_i hasleep
      obtain rfl := Option.some.inj hs
      exact h.wake hasleep (Nat.zero_le 1)
    · cases hs

theorem Covered.not_lost (h : Covered s) : ¬ Lost s := by
  rintro ⟨hreturned, hitems, hinside, hasleep⟩
  have hwaiting : s.waiting = s.consumers.length :=
    List.countP_eq_length.2 fun phase hphase => by rw [hasleep phase hphase]; rfl
  have hlooking : s.looking = 0 :=
    List.countP_eq_zero.2 fun phase hphase => by rw [hasleep phase hphase]; exact Bool.false_ne_true
  have hpos := List.length_pos_iff.2 hinside
  have hcovered := h (hwaiting ▸ hpos)
  rw [hreturned, hlooking] at hcovered
  exact hitems (List.length_eq_zero_iff.1 (Nat.le_zero.1 hcovered))

/-- **No wakeup is lost** in a run whose steps all meet the condition: while there are items, some
push has not returned, or some consumer inside `pop` is not asleep. -/
theorem not_lost_of_reachable
    (h : (blockOnEmptyMachine α).Reachable KeepsWakeup {} s) : ¬ Lost s :=
  Covered.not_lost <| h.invariant (I := Covered) (fun hpos => absurd hpos (lt_irrefl 0))
    fun _ _ _ hcovered hok hs => hcovered.step hok hs

/-! ### A lost wakeup -/

/-- Nothing is pushed, and nobody calls `pop`. -/
def Quiet (_s : BlockOnEmptyConcurrentQueue α) : Step α → Prop
  | .enqueue _ | .enter => False
  | .notify _ | .pop _ _ | .wake _ => True

/-- How many steps the consumers may still make. -/
def stepsLeft (s : BlockOnEmptyConcurrentQueue α) : ℕ :=
  (s.consumers.map Phase.stepsLeft).sum

theorem stepsLeft_leave (h : s.consumers[i]? = some phase) :
    (s.leave i).stepsLeft + phase.stepsLeft = s.stepsLeft := by
  obtain ⟨hi, rfl⟩ := List.getElem?_eq_some_iff.1 h
  have hperm := ((List.getElem_cons_eraseIdx_perm hi).map Phase.stepsLeft).sum_eq
  rw [List.map_cons, List.sum_cons, Nat.add_comm] at hperm
  exact hperm

theorem stepsLeft_setPhase (h : s.consumers[i]? = some phase) (phase' : Phase) :
    (s.setPhase i phase').stepsLeft + phase.stepsLeft = s.stepsLeft + phase'.stepsLeft := by
  have hi := (List.getElem?_eq_some_iff.1 h).1
  have hperm := ((List.set_perm_cons_eraseIdx hi phase').map Phase.stepsLeft).sum_eq
  rw [List.map_cons, List.sum_cons] at hperm
  have hleft := stepsLeft_leave h
  rw [stepsLeft, setPhase, hperm]
  change phase'.stepsLeft + (s.leave i).stepsLeft + _ = _
  omega

/-- There are more items than consumers that look, and one consumer waits. -/
structure Doomed (s : BlockOnEmptyConcurrentQueue α) : Prop where
  returned : s.notifying = 0
  items : s.looking < s.mQueue.length
  waits : 0 < s.waiting

/-- A consumer can move if it has the mutex, or nobody has it. -/
theorem exists_movable (h : ∃ phase ∈ s.consumers, phase ≠ Phase.asleep) :
    ∃ (i : ℕ) (phase : Phase), s.consumers[i]? = some phase ∧ phase ≠ .asleep ∧
      (phase.HasMutex ∨ s.consumers.any Phase.HasMutex = false) := by
  by_cases hmutex : s.consumers.any Phase.HasMutex = true
  · obtain ⟨phase, hmem, hhas⟩ := List.any_eq_true.1 hmutex
    obtain ⟨i, hi⟩ := List.getElem?_of_mem hmem
    exact ⟨i, phase, hi, fun hasleep => by simp [hasleep, Phase.HasMutex] at hhas, .inl hhas⟩
  · obtain ⟨phase, hmem, hne⟩ := h
    obtain ⟨i, hi⟩ := List.getElem?_of_mem hmem
    exact ⟨i, phase, hi, hne, .inr (Bool.not_eq_true _ ▸ hmutex)⟩

/-- A consumer that moves leaves things as bad as they were. -/
theorem Doomed.move (h : Doomed s) (hi : s.consumers[i]? = some phase) (hne : phase ≠ .asleep)
    (hmutex : phase.HasMutex ∨ s.consumers.any Phase.HasMutex = false) :
    ∃ s', (blockOnEmptyMachine α).step s (.pop i 0) = some s' ∧ Doomed s' ∧
      s'.stepsLeft < s.stepsLeft := by
  have hitems := h.items
  have hpos : 0 < s.mQueue.length := Nat.zero_lt_of_lt hitems
  have hdequeue : try_dequeue s.mQueue 0 = some (true, s.mQueue.eraseIdx 0) := by
    rw [try_dequeue, if_neg (List.length_pos_iff.1 hpos), if_pos hpos]
  have hlength : (s.mQueue.eraseIdx 0).length + 1 = s.mQueue.length :=
    List.length_eraseIdx_add_one hpos
  have hstep : (blockOnEmptyMachine α).step s (.pop i 0) = s.popStep i 0 phase := by
    simp only [blockOnEmptyMachine, hi, Option.bind_some]
  rw [hstep]
  -- a consumer that looks takes one of the items, and does not look again
  have htakes : ∀ s₁ : BlockOnEmptyConcurrentQueue α, s₁.notifying = s.notifying →
      s₁.mQueue = s.mQueue.eraseIdx 0 → s₁.looking + 1 = s.looking → s₁.waiting = s.waiting →
      Doomed s₁ := fun s₁ hnotifying hqueue hlooking hwaiting =>
    ⟨hnotifying.trans h.returned, by rw [hqueue]; omega, hwaiting ▸ h.waits⟩
  have hkeeps : ∀ s₁ : BlockOnEmptyConcurrentQueue α, s₁.notifying = s.notifying →
      s₁.mQueue = s.mQueue → s₁.looking = s.looking → s₁.waiting = s.waiting → Doomed s₁ :=
    fun s₁ hnotifying hqueue hlooking hwaiting =>
      ⟨hnotifying.trans h.returned, by rw [hqueue, hlooking]; exact hitems, hwaiting ▸ h.waits⟩
  cases phase with
  | trying =>
    let s₁ := { s with mQueue := s.mQueue.eraseIdx 0 }.leave i
    have hlooking : s₁.looking + 1 = s.looking := looking_leave hi
    have hwaiting : s₁.waiting = s.waiting := waiting_leave hi
    have hleft : s₁.stepsLeft + 1 = s.stepsLeft := stepsLeft_leave hi
    exact ⟨s₁, by rw [popStep, hdequeue]; rfl, htakes s₁ rfl rfl hlooking hwaiting, by omega⟩
  | locking | woken =>
    have hfree : s.consumers.any Phase.HasMutex = false := hmutex.resolve_left Bool.false_ne_true
    let s₁ := s.setPhase i .checking
    have hlooking : s₁.looking + 1 = s.looking + 1 := looking_setPhase hi .checking
    have hwaiting : s₁.waiting = s.waiting := waiting_setPhase hi .checking
    have hleft : s₁.stepsLeft + 3 = s.stepsLeft + 2 := stepsLeft_setPhase hi .checking
    exact ⟨s₁, by rw [popStep, lock, hfree]; rfl,
      hkeeps s₁ rfl rfl (Nat.succ.inj hlooking) hwaiting, by omega⟩
  | checking =>
    let s₁ := { s with mQueue := s.mQueue.eraseIdx 0 }.setPhase i .returning
    have hlooking : s₁.looking + 1 = s.looking := looking_setPhase hi .returning
    have hwaiting : s₁.waiting = s.waiting := waiting_setPhase hi .returning
    have hleft : s₁.stepsLeft + 2 = s.stepsLeft + 1 := stepsLeft_setPhase hi .returning
    exact ⟨s₁, by rw [popStep, hdequeue]; rfl, htakes s₁ rfl rfl hlooking hwaiting, by omega⟩
  | unsatisfied =>
    let s₁ := s.setPhase i .asleep
    have hlooking : s₁.looking = s.looking := looking_setPhase hi .asleep
    have hwaiting : s₁.waiting + 1 = s.waiting + 1 := waiting_setPhase hi .asleep
    have hleft : s₁.stepsLeft + 1 = s.stepsLeft := stepsLeft_setPhase hi .asleep
    exact ⟨s₁, rfl, hkeeps s₁ rfl rfl hlooking (Nat.succ.inj hwaiting), by omega⟩
  | asleep => exact absurd rfl hne
  | returning =>
    let s₁ := s.leave i
    have hlooking : s₁.looking = s.looking := looking_leave hi
    have hwaiting : s₁.waiting = s.waiting := waiting_leave hi
    have hleft : s₁.stepsLeft + 1 = s.stepsLeft := stepsLeft_leave hi
    exact ⟨s₁, rfl, hkeeps s₁ rfl rfl hlooking hwaiting, by omega⟩

theorem Doomed.exists_lost (h : Doomed s) :
    ∃ s', (blockOnEmptyMachine α).Reachable Quiet s s' ∧ Lost s' := by
  induction hleft : s.stepsLeft using Nat.strong_induction_on generalizing s with
  | _ n ih =>
    by_cases hmoves : ∃ phase ∈ s.consumers, phase ≠ Phase.asleep
    · obtain ⟨i, phase, hi, hne, hmutex⟩ := exists_movable hmoves
      obtain ⟨s₁, hs₁, hdoomed, hless⟩ := h.move hi hne hmutex
      obtain ⟨s', ⟨steps, hrun⟩, hlost⟩ := ih _ (hleft ▸ hless) hdoomed rfl
      have hquiet : Quiet s (.pop i 0) := trivial
      exact ⟨s', ⟨_, .head hquiet hs₁ hrun⟩, hlost⟩
    · refine ⟨s, ⟨[], .nil _⟩, h.returned, ?_, ?_, fun phase hphase => ?_⟩
      · exact List.length_pos_iff.1 (Nat.zero_lt_of_lt h.items)
      · rintro hempty
        have hwaits := h.waits
        rw [waiting, hempty] at hwaits
        exact lt_irrefl 0 hwaits
      · by_contra hne
        exact hmoves ⟨phase, hphase, hne⟩

/-- While nobody sleeps, all producers may notify in vain. -/
theorem reachable_notified (hnobody : .asleep ∉ s.consumers) :
    (blockOnEmptyMachine α).Reachable Quiet s { s with notifying := 0 } := by
  induction hcount : s.notifying generalizing s with
  | zero =>
    rw [← hcount]
    exact ⟨[], .nil _⟩
  | succ n ih =>
    have hstep :
        (blockOnEmptyMachine α).step s (.notify none) = some { s with notifying := n } := by
      simp only [blockOnEmptyMachine, notifyStep]
      rw [if_neg (not_or.2 ⟨by omega, hnobody⟩), hcount, Nat.add_sub_cancel]
    have hquiet : Quiet s (.notify none) := trivial
    obtain ⟨steps, hrun⟩ := @ih { s with notifying := n } hnobody rfl
    exact ⟨_, .head hquiet hstep hrun⟩

/-- **After a step that does not meet the condition** a wakeup may be lost, even if nothing else is
pushed, and nobody else calls `pop`. -/
theorem exists_lost_of_not {step : Step α} (hnot : ¬ s.KeepsWakeup step)
    (hs : (blockOnEmptyMachine α).step s step = some s') :
    ∃ s'', (blockOnEmptyMachine α).Reachable Quiet s' s'' ∧ Lost s'' := by
  obtain rfl : step = .notify none := by
    cases step with
    | notify consumer =>
      cases consumer with
      | none => rfl
      | some i => exact absurd trivial hnot
    | _ => exact absurd trivial hnot
  rw [KeepsWakeup, Classical.not_imp, Nat.not_le] at hnot
  obtain ⟨hunsatisfied, hitems⟩ := hnot
  simp only [blockOnEmptyMachine, notifyStep] at hs
  split at hs
  · cases hs
  · rename_i hready
    obtain ⟨-, hnobody⟩ := not_or.1 hready
    obtain rfl := Option.some.inj hs
    have hreach := @reachable_notified _ { s with notifying := s.notifying - 1 } hnobody
    have hdoomed : Doomed { s with notifying := 0 } :=
      ⟨rfl, Nat.lt_of_le_of_lt (Nat.le_add_left _ _) hitems,
        List.countP_pos_iff.2 ⟨_, hunsatisfied, rfl⟩⟩
    obtain ⟨s'', hreach', hlost⟩ := hdoomed.exists_lost
    exact ⟨s'', hreach.trans hreach', hlost⟩

end

/-- A consumer falls asleep on an empty queue, and a push wakes it. -/
def wakeupSteps : List (Step ℕ) :=
  [.enter, .pop 0 0, .pop 0 0, .pop 0 0, .pop 0 0, .enqueue 7, .enter, .notify (some 0), .pop 1 0,
    .pop 0 0, .pop 0 0, .pop 0 0]

theorem not_lost_woken :
    ¬ Lost (((blockOnEmptyMachine ℕ).exec (fun s step => decide (s.KeepsWakeup step)) {}
      wakeupSteps).getD {}) :=
  not_lost_of_reachable ((Machine.reachable_exec (by decide)).mono
    fun _ _ hok => of_decide_eq_true hok)

/-- **A wakeup is lost** when an item is pushed after the only consumer has looked for the second
time, and before it sleeps. -/
theorem not_notLost_pushed :
    ¬ ∀ s, (blockOnEmptyMachine ℕ).Reachable Machine.free {} s → ¬ Lost s := by
  intro h
  have hrun : ((blockOnEmptyMachine ℕ).exec (fun _ _ => true) {} [.enter, .pop 0 0, .pop 0 0,
      .pop 0 0, .enqueue 7, .notify none, .pop 0 0]).isSome = true := by
    decide
  refine h _ ((Machine.reachable_exec hrun).mono fun _ _ _ => trivial) ⟨rfl, ?_, ?_, ?_⟩
  all_goals decide

end BlockOnEmptyConcurrentQueue

end Maplang
