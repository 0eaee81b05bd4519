import Maplang.Graph.Steps

/-!
# No lost wakeup

Producers enqueue first and signal afterwards, signals are merged, and `packetReady` drains its
queue in batches while producers go on.  While nothing throws and the graph is alive, a packet in a
queue is never forgotten: a signal is pending, or a producer is about to signal, or `packetReady`
is still going to look at the queue.

## Main definitions

* `GraphState.Draining s g` : `packetReady` of `g` runs and has not seen an empty queue.
* `GraphState.Signalling s g` : a thread is between its `enqueue` to `g` and its `uv_async_send`.
* `GraphState.Armed s g` : some thread will look at the queue of `g`.

## Main results

* `armed_of_reachable` : a queue with packets in it is armed.
* `draining_until_dequeue` : a drain does not end without another look at the queue.
* `conserved_of_reachable` : nothing is lost, nothing is processed twice.
* `no_lost_wakeup` : all three together.
-/

namespace Maplang

/-- A `uv_async_send` to group `g` is the next thing this frame does. -/
def Frame.Signals (g : String) : Frame → Prop
  | .signal _ _ g' _ => g' = g
  | _ => False

/-- Every packet enqueued so far is in exactly one place, and the batches are small. -/
structure ThreadGroup.Conserved (group : ThreadGroup) : Prop where
  perm : (group.processed ++ group.batch ++ group.mPacketQueue).Perm group.enqueued
  batch_length : group.batch.length ≤ kMaxDequeueAtOnce

namespace GraphState

variable (s : GraphState) (g : String)

/-- `packetReady` of group `g` is running and will call `try_dequeue_bulk` again. -/
def Draining : Prop := ∃ r, (s.groups g).ready = some r ∧ r.finished = false

/-- Some thread is between its `enqueue` to group `g` and its `uv_async_send`. -/
def Signalling : Prop := ∃ t, ∃ f ∈ s.stack t, f.Signals g

/-- Some thread will look at the queue of group `g`. -/
def Armed : Prop := (s.groups g).asyncPending = true ∨ s.Signalling g ∨ s.Draining g

end GraphState

variable {G : DataGraphImpl} {s s' : GraphState}

/-! ### Signals -/

theorem signalling_of_update {g : String} (h : s.Signalling g) {t : ThreadId} {frames : List Frame}
    (hstack : s'.stack = Function.update s.stack t frames)
    (hf : ∀ f ∈ s.stack t, f.Signals g → f ∈ frames) : s'.Signalling g := by
  obtain ⟨u, f, hmem, hsig⟩ := h
  refine ⟨u, f, ?_, hsig⟩
  by_cases hu : u = t
  · subst hu
    rw [hstack, Function.update_self]
    exact hf f hmem hsig
  · rwa [hstack, Function.update_of_ne hu]

/-- A frame that does not signal is replaced by other frames. -/
theorem signalling_of_replace {g : String} (h : s.Signalling g) {t : ThreadId} {top : Frame}
    {rest : List Frame} (hs : s.stack t = top :: rest) (htop : ¬ top.Signals g) (new : List Frame)
    (hstack : s'.stack = Function.update s.stack t (new ++ rest)) : s'.Signalling g := by
  refine signalling_of_update h hstack ?_
  rw [hs]
  intro f hf hsig
  rcases List.mem_cons.1 hf with rfl | hf
  · exact absurd hsig htop
  · exact List.mem_append_right _ hf

theorem mem_notePush_of_signals {g : String} {kind : CallKind} {frames : List Frame} {f : Frame}
    (hf : f ∈ frames) (hsig : f.Signals g) : f ∈ notePush kind frames := by
  unfold notePush
  split
  · rcases List.mem_cons.1 hf with rfl | hf
    · cases hsig
    · exact List.mem_cons_of_mem _ hf
  · exact hf

theorem signalling_beginCall {g : String} (h : s.Signalling g) {t : ThreadId} {call : Call}
    {frames : List Frame} : (s.beginCall t call frames).Signalling g :=
  signalling_of_update h rfl fun _ hf hsig =>
    List.mem_append_right _ (mem_notePush_of_signals hf hsig)

/-- A producer between its `enqueue` and its `uv_async_send` stays there until it signals. -/
theorem signalling_step {a : Act} (hstep : GraphStep G s a s') (hquiet : a.quiet = true)
    {g : String} (h : s.Signalling g) :
    s'.Signalling g ∨ (s'.groups g).asyncPending = true := by
  cases hstep with
  | @signal t id call g' groups rest hs =>
    by_cases hg : g' = g
    · subst hg
      exact .inr (by simp)
    · exact .inl (signalling_of_replace h hs hg [_] rfl)
  | drop => exact .inl (signalling_beginCall h)
  | push => exact .inl (signalling_beginCall h)
  | send => exact .inl (signalling_beginCall h)
  | edgeThrows hs => exact .inl (signalling_of_replace h hs id [_, _] rfl)
  | edgeDirect hs => exact .inl (signalling_of_replace h hs id [_, _] rfl)
  | edgeKnown hs => exact .inl (signalling_of_replace h hs id [_] rfl)
  | edgeNew hs => exact .inl (signalling_of_replace h hs id [_] rfl)
  | edgesDone hs => exact .inl (signalling_of_replace h hs id [_] rfl)
  | enqueue hs => exact .inl (signalling_of_replace h hs id [_] rfl)
  | enqueueDone hs => exact .inl (signalling_of_replace h hs id [] rfl)
  | readyThrows hs => exact .inl (signalling_of_replace h hs id [_, _] rfl)
  | readySends hs => exact .inl (signalling_of_replace h hs id [_, _] rfl)
  | readyDone hs => exact .inl (signalling_of_replace h hs id [] rfl)
  | wake hidle => exact .inl (signalling_of_update h rfl (by simp [hidle]))
  | ret hs => exact .inl (signalling_of_replace h hs id [] rfl)
  | readySkips => exact .inl h
  | readyNext => exact .inl h
  | dequeueNone => exact .inl h
  | dequeueSome => exact .inl h
  | wakeDead => exact .inl h
  | destroy => exact .inl h
  | throw => cases hquiet
  | unwind => cases hquiet

/-- A packet appears in an empty queue when a producer has enqueued it and is about to signal. -/
theorem signalling_of_enqueued {a : Act} (hstep : GraphStep G s a s') {g : String}
    (hempty : (s.groups g).mPacketQueue = []) (hqueue : (s'.groups g).mPacketQueue ≠ []) :
    s'.Signalling g := by
  cases hstep with
  | @enqueue t id call g' groups rest hs =>
    by_cases hg : g = g'
    · subst hg
      exact ⟨t, .signal id call g groups, by simp, rfl⟩
    · simp [hg, hempty] at hqueue
  | @dequeueSome t picks g' rest infos queue hs hr htake =>
    by_cases hg : g = g'
    · subst hg
      have hperm := Bag.takeMany_perm htake
      rw [hempty, List.perm_nil, List.append_eq_nil_iff] at hperm
      simp [hperm.2] at hqueue
    · simp [hg, hempty] at hqueue
  | _ => simp [Function.update_apply] at hqueue; grind

/-! ### `packetReady` -/

/-- A drain goes on until `try_dequeue_bulk` finds the queue empty. -/
theorem draining_step {a : Act} (hstep : GraphStep G s a s') {g : String} (h : s.Draining g) :
    s'.Draining g ∨ (s'.groups g).mPacketQueue = [] ∧
      ∃ t picks rest, a = .dequeue t picks ∧ s.stack t = .packetReady g :: rest := by
  obtain ⟨r, hr, hfinished⟩ := h
  have hgroup := group_step hstep g
  unfold GraphState.Draining
  generalize s'.groups g = group at hgroup ⊢
  cases hgroup with
  | same => exact .inl ⟨r, hr, hfinished⟩
  | enqueue => exact .inl ⟨r, hr, hfinished⟩
  | signal => exact .inl ⟨r, hr, hfinished⟩
  | sends _ hr' => exact .inl ⟨_, rfl, by grind⟩
  | next _ hr' => exact .inl ⟨_, rfl, by grind⟩
  | done _ hr' => grind
  | dequeueNone hstack _ hqueue => exact .inr ⟨hqueue, _, _, _, rfl, hstack⟩
  | dequeueSome => exact .inl ⟨_, rfl, rfl⟩
  | wake => exact .inl ⟨_, rfl, rfl⟩
  | wakeDead => exact .inl ⟨r, hr, hfinished⟩

/-- Before a drain ends, `try_dequeue_bulk` is called again. -/
theorem draining_until_dequeue {ok : GraphState → Act → Prop} {acts : List Act}
    (hrun : G.machine.Run ok s acts s') {g : String} (h : s.Draining g) :
    s'.Draining g ∨ ∃ before t picks after u rest, acts = before ++ .dequeue t picks :: after ∧
      G.machine.Run ok s before u ∧ u.stack t = .packetReady g :: rest := by
  induction hrun with
  | nil => exact .inl h
  | @snoc u u' acts a hacts hok hs ih =>
    rcases ih with hd | ⟨before, t, picks, after, v, rest, rfl, hv⟩
    · rcases draining_step (step_cases hs) hd with hd' | ⟨-, t, picks, rest, rfl, hstack⟩
      · exact .inl hd'
      · exact .inr ⟨acts, t, picks, [], u, rest, rfl, hacts, hstack⟩
    · exact .inr ⟨before, t, picks, after ++ [a], v, rest, by simp, hv⟩

/-! ### Nothing is lost, nothing is processed twice -/

theorem conserved_step {a : Act} (hstep : GraphStep G s a s') {g : String}
    (h : (s.groups g).Conserved) : (s'.groups g).Conserved := by
  have hgroup := group_step hstep g
  obtain ⟨hperm, hlength⟩ := h
  generalize s'.groups g = group at hgroup ⊢
  cases hgroup with
  | same => exact ⟨hperm, hlength⟩
  | signal => exact ⟨hperm, hlength⟩
  | wakeDead => exact ⟨hperm, hlength⟩
  | @enqueue t id call =>
    refine ⟨?_, hlength⟩
    have hadded := hperm.append_right [call.info id]
    rw [List.append_assoc] at hadded
    exact hadded
  | sends _ hr =>
    simp only [ThreadGroup.batch, hr] at hperm hlength
    exact ⟨hperm, hlength⟩
  | next _ hr _ hbatch =>
    simp only [ThreadGroup.batch, hr, hbatch] at hperm hlength
    refine ⟨?_, Nat.le_of_succ_le hlength⟩
    simpa [ThreadGroup.batch] using hperm
  | done _ hr _ hbatch =>
    simp only [ThreadGroup.batch, hr, hbatch] at hperm hlength
    exact ⟨hperm, hlength⟩
  | dequeueNone _ hr =>
    simp only [ThreadGroup.batch, hr] at hperm hlength
    exact ⟨hperm, hlength⟩
  | dequeueSome _ hr htake hmax =>
    -- the batch is empty, and takes over what leaves the queue
    simp only [ThreadGroup.batch, hr, List.append_nil] at hperm
    refine ⟨?_, (Bag.takeMany_length htake).symm ▸ hmax⟩
    rw [List.append_assoc]
    exact ((Bag.takeMany_perm htake).append_left _).trans hperm
  | wake hr =>
    simp only [ThreadGroup.batch, hr] at hperm hlength
    exact ⟨hperm, hlength⟩

theorem conserved_of_reachable {ok : GraphState → Act → Prop} {s₀ : GraphState} (h₀ : s₀.Idle)
    (h : G.machine.Reachable ok s₀ s) (g : String) : (s.groups g).Conserved := by
  refine h.invariant (I := fun s => (s.groups g).Conserved) ?_ fun u _ u' hu _ hs =>
    conserved_step (step_cases hs) hu
  rw [h₀.groups g]
  exact ⟨.refl _, by simp [ThreadGroup.batch]⟩

/-! ### The invariant -/

theorem implAlive_of_step {a : Act} (hstep : GraphStep G s a s') (h : s'.implAlive = true) :
    s.implAlive = true := by
  cases hstep <;> simp_all

theorem armed_step {a : Act} (hstep : GraphStep G s a s') (hquiet : a.quiet = true)
    (halive : s'.implAlive = true) {g : String}
    (h : (s.groups g).mPacketQueue ≠ [] → s.Armed g) (hqueue : (s'.groups g).mPacketQueue ≠ []) :
    s'.Armed g := by
  -- the producer that fills an empty queue has yet to signal
  by_cases hempty : (s.groups g).mPacketQueue = []
  · exact .inr (.inl (signalling_of_enqueued hstep hempty hqueue))
  rcases h hempty with hpending | hsignalling | hdraining
  · have hgroup := group_step hstep g
    have halive' := implAlive_of_step hstep halive
    unfold GraphState.Armed GraphState.Draining
    generalize s'.groups g = group at hgroup ⊢
    cases hgroup with
    | wake => exact .inr (.inr ⟨_, rfl, rfl⟩)
    | wakeDead hdead => simp [halive'] at hdead
    | signal => exact .inl rfl
    | _ => exact .inl hpending
  -- the producer signals, or still has to
  · rcases signalling_step hstep hquiet hsignalling with hsig | hpending
    · exact .inr (.inl hsig)
    · exact .inl hpending
  -- only an empty queue ends the drain
  · rcases draining_step hstep hdraining with hdraining | ⟨hempty', -⟩
    · exact .inr (.inr hdraining)
    · exact absurd hempty' hqueue

theorem armed_of_reachable {s₀ : GraphState} (h₀ : s₀.Idle)
    (h : G.machine.Reachable quietRuns s₀ s) (halive : s.implAlive = true) {g : String}
    (hqueue : (s.groups g).mPacketQueue ≠ []) : s.Armed g := by
  refine h.invariant
    (I := fun s => s.implAlive = true → (s.groups g).mPacketQueue ≠ [] → s.Armed g) ?_ ?_
    halive hqueue
  · intro _ hq
    simp [h₀.groups g] at hq
  · intro u a u' hu hquiet hs halive' hqueue'
    have hstep := step_cases hs
    exact armed_step hstep hquiet halive' (hu (implAlive_of_step hstep halive')) hqueue'

/-- **No lost wakeup.**  In every reachable state of every run in which nothing throws:

* while the graph is alive, a group with packets in its queue has a pending signal, or a producer
  between its `enqueue` and its `uv_async_send`, or its `packetReady` is running and has not seen an
  empty queue;
* in the last case, whatever happens next, `packetReady` does not return before it has called
  `try_dequeue_bulk` again;
* every packet ever enqueued is in exactly one place: in the queue, in the current batch of at most
  100, or among those that have been processed, once for each time it was enqueued;
* so when no signal is pending, no producer is about to signal and `packetReady` has returned, all
  of them have been processed. -/
theorem no_lost_wakeup {s₀ : GraphState} (h₀ : s₀.Idle) (h : G.machine.Reachable quietRuns s₀ s)
    (g : String) :
    (s.implAlive = true → (s.groups g).mPacketQueue ≠ [] →
      (s.groups g).asyncPending = true ∨ s.Signalling g ∨ s.Draining g) ∧
    (s.Draining g → ∀ acts s', G.machine.Run quietRuns s acts s' → (s'.groups g).ready = none →
      ∃ before t picks after u rest, acts = before ++ .dequeue t picks :: after ∧
        G.machine.Run quietRuns s before u ∧ u.stack t = .packetReady g :: rest) ∧
    (((s.groups g).processed ++ (s.groups g).batch ++ (s.groups g).mPacketQueue).Perm
      (s.groups g).enqueued ∧ (s.groups g).batch.length ≤ kMaxDequeueAtOnce) ∧
    (s.implAlive = true → (s.groups g).asyncPending = false → ¬ s.Signalling g →
      (s.groups g).ready = none → (s.groups g).processed.Perm (s.groups g).enqueued) := by
  have hconserved := conserved_of_reachable h₀ h g
  refine ⟨fun halive hqueue => armed_of_reachable h₀ h halive hqueue, ?_,
    ⟨hconserved.perm, hconserved.batch_length⟩, ?_⟩
  · intro hdraining acts s' hrun hready
    rcases draining_until_dequeue hrun hdraining with ⟨r, hr, -⟩ | hdequeue
    · simp [hready] at hr
    · exact hdequeue
  · intro halive hpending hsignalling hready
    have hqueue : (s.groups g).mPacketQueue = [] := by
      by_contra hqueue
      rcases armed_of_reachable h₀ h halive hqueue with hp | hs | ⟨r, hr, -⟩
      · simp [hpending] at hp
      · exact hsignalling hs
      · simp [hready] at hr
    simpa [hqueue, ThreadGroup.batch, hready] using hconserved.perm

/-- The relay, whose second group is in the middle of its first batch. -/
theorem no_lost_wakeup_relay :
    (relayState.groups "worker").processed.length = 1 ∧
    (relayState.groups "worker").ready.isSome = true ∧
    ((relayState.groups "worker").processed ++ (relayState.groups "worker").batch ++
      (relayState.groups "worker").mPacketQueue).Perm (relayState.groups "worker").enqueued :=
  ⟨by decide, by decide,
    (no_lost_wakeup startState_idle relayState_reachable "worker").2.2.1.1⟩

end Maplang
