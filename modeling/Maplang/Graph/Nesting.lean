import Maplang.Graph.Delivery
import Mathlib.Logic.Relation

/-!
# Pushes run to completion

A direct edge is a call: `pushPacket` calls the handler of the target, which may push again, and
returns when all of this is done.  So when a handler makes two calls, all that is done inside the
first one, however deep, is done before the second one begins.  Threads, cycles of direct edges and
exceptions do not change this: a handler can only make a call while nothing is on top of it.

## Main definitions

* `Delivery.IsDirect` : a delivery that `pushPacket` makes itself.
* `GraphState.MadeBy` : a call that the handler of a delivery makes.
* `GraphState.Under` : a call that is made inside another one, at any depth.
* `GraphState.Event`, `GraphState.Did` : what calls do, in one order whatever its kind.
* `DataGraphImpl.Before` : in every run, all that one call does comes before what another one does.
* `GraphState.WellNested` : the stacks are what has been called.

## Main results

* `GraphState.WellNested.step` : what a step does to the stacks.
* `GraphState.addsNothing_step` : nothing is done any more inside a call that has returned.
* `runs_to_completion` : calls of one handler run to completion in every run.
-/

namespace Maplang

/-- The first loop of `pushPacket` has made this delivery: it is along a direct edge, on the thread
of the call. -/
def Delivery.IsDirect (calls : List Call) (d : Delivery) : Prop :=
  ∃ call e, CallOn calls d.callId call d.thread ∧ d.via = .edge e ∧
    e.sameThreadQueueToTargetType = .pushDirectlyToTarget

/-- The delivery whose handler this is. -/
def Frame.deliveryOf : Frame → Option ℕ
  | .handlePacket delivery .. => some delivery
  | _ => none

/-- The deliveries whose handlers are on a stack. -/
def handlersOf (frames : List Frame) : List ℕ := frames.filterMap Frame.deliveryOf

/-- The delivery whose handler is on top of a stack. -/
def handlerOn (frames : List Frame) : Option ℕ := frames.head?.bind Frame.deliveryOf

namespace GraphState

variable (s : GraphState)

/-- The handler of delivery `delivery` has made call number `id`. -/
def MadeBy (delivery id : ℕ) : Prop :=
  ∃ call pushes, s.calls[id]? = some call ∧ call.cause = some (delivery, pushes)

/-- Call number `id` was made by a handler that call `i` had called. -/
def MadeInside (i id : ℕ) : Prop :=
  ∃ delivery d, s.MadeBy delivery id ∧ s.log[delivery]? = some d ∧ d.IsDirect s.calls ∧
    d.callId = i

/-- Call number `id` is call `i`, or was made inside it. -/
def Under (i id : ℕ) : Prop := Relation.ReflTransGen s.MadeInside i id

/-- The call is on a stack. -/
def Active (i : ℕ) : Prop := ∃ t, ∃ f ∈ s.stack t, f.callId? = some i

/-- What calls do, known by its place among all that has been done. -/
inductive Event where
  /-- A call is made: its number. -/
  | made (id : ℕ)
  /-- A packet is delivered along a direct edge: the number of the delivery. -/
  | delivered (delivery : ℕ)
  /-- A packet is put into the queue of a group: its position among all that were put there. -/
  | enqueued (group : String) (position : ℕ)

/-- Call number `id` has done this. -/
def Did (id : ℕ) : Event → Prop
  | .made id' => id' = id ∧ id < s.calls.length
  | .delivered delivery => ∃ d, s.log[delivery]? = some d ∧ d.IsDirect s.calls ∧ d.callId = id
  | .enqueued g position =>
    ∃ info, (s.groups g).enqueued[position]? = some info ∧ info.callId = id

/-- On the way to `s'` nothing is done by call `i`, or inside it. -/
def AddsNothing (s s' : GraphState) (i : ℕ) : Prop :=
  ∀ c, s'.Under i c → s.Under i c ∧ ∀ e, s'.Did c e → s.Did c e

/-- What the frame on top of `rest` was called by: a call by the handler below it, and a handler of
a direct delivery by the call below it. -/
def LiesOn (f : Frame) (rest : List Frame) : Prop :=
  (∀ id, f.callId? = some id →
    ∃ call, s.calls[id]? = some call ∧ call.cause.map Prod.fst = handlerOn rest) ∧
  ∀ delivery, f.deliveryOf = some delivery → ∃ d, s.log[delivery]? = some d ∧
    (d.IsDirect s.calls → rest.head?.bind Frame.callId? = some d.callId)

/-- Every frame of a stack lies on what it was called by. -/
def Nested : List Frame → Prop
  | [] => True
  | f :: rest => s.LiesOn f rest ∧ Nested rest

/-- The stacks are what has been called: each handler is on one of them at most once, and the only
call of a handler that is on a stack is its last one. -/
structure WellNested : Prop where
  nested : ∀ t, s.Nested (s.stack t)
  handlers : ∀ t, (handlersOf (s.stack t)).Nodup
  latest : ∀ delivery i j, s.MadeBy delivery i → s.MadeBy delivery j → i < j → ¬ s.Active i
  causes : ∀ delivery id, s.MadeBy delivery id → delivery < s.log.length
  enqueued : ∀ g, ∀ info ∈ (s.groups g).enqueued, info.callId < s.calls.length

end GraphState

/-- In every run from `s₀` to `s`, all that call `i` does is done before anything that call `j`
does: before `j` is made, before it delivers directly, and before it enqueues to any group. -/
def DataGraphImpl.Before (G : DataGraphImpl) (s₀ s : GraphState) (i j : ℕ) : Prop :=
  ∀ e e', s.Did i e → G.machine.Precedes Machine.free s₀ s (·.Did i e) (·.Did j e')

namespace GraphState

variable {G : DataGraphImpl} {s s' : GraphState} {t : ThreadId} {frames rest : List Frame}
  {f : Frame} {i j id delivery : ℕ} {d : Delivery}

/-! ### Calls and deliveries are only added -/

theorem lt_length_of_madeBy (h : s.MadeBy delivery id) : id < s.calls.length := by
  obtain ⟨call, pushes, hcall, -⟩ := h
  exact (List.getElem?_eq_some_iff.1 hcall).1

theorem MadeBy.unique {delivery' : ℕ} (h : s.MadeBy delivery id) (h' : s.MadeBy delivery' id) :
    delivery = delivery' := by
  obtain ⟨call, pushes, hcall, hcause⟩ := h
  obtain ⟨call', pushes', hcall', hcause'⟩ := h'
  obtain rfl := Option.some.inj (hcall.symm.trans hcall')
  exact (Prod.mk.inj (Option.some.inj (hcause.symm.trans hcause'))).1

theorem MadeBy.mono (hcalls : s.calls <+: s'.calls) (h : s.MadeBy delivery id) :
    s'.MadeBy delivery id := by
  obtain ⟨call, pushes, hcall, hcause⟩ := h
  exact ⟨call, pushes, getElem?_mono hcalls hcall, hcause⟩

theorem isDirect_mono {calls calls' : List Call} (hcalls : calls <+: calls')
    (h : d.IsDirect calls) : d.IsDirect calls' := by
  obtain ⟨call, e, hcall, he⟩ := h
  exact ⟨call, e, hcall.mono hcalls, he⟩

/-- Whether a delivery is direct does not change when more calls are made. -/
theorem isDirect_iff {calls calls' : List Call} (hcalls : calls <+: calls')
    (hlt : d.callId < calls.length) : d.IsDirect calls' ↔ d.IsDirect calls := by
  refine ⟨fun ⟨call, e, hcall, he⟩ => ⟨call, e, ⟨?_, hcall.2⟩, he⟩, isDirect_mono hcalls⟩
  obtain ⟨more, rfl⟩ := hcalls
  rw [← hcall.1, List.getElem?_append_left hlt]

theorem lt_length_of_mem_log (htraced : G.Traced s) (hd : s.log[delivery]? = some d) :
    d.callId < s.calls.length := by
  obtain ⟨call, hcall, -⟩ := htraced.log d (List.mem_of_getElem? hd)
  exact (List.getElem?_eq_some_iff.1 hcall).1

theorem LiesOn.mono (htraced : G.Traced s) (hcalls : s.calls <+: s'.calls)
    (hlog : s.log <+: s'.log) (h : s.LiesOn f rest) : s'.LiesOn f rest := by
  refine ⟨fun id hid => ?_, fun delivery hdelivery => ?_⟩
  · obtain ⟨call, hcall, hcause⟩ := h.1 id hid
    exact ⟨call, getElem?_mono hcalls hcall, hcause⟩
  · obtain ⟨d, hd, hdirect⟩ := h.2 delivery hdelivery
    refine ⟨d, getElem?_mono hlog hd, fun hdirect' => hdirect ?_⟩
    exact (isDirect_iff hcalls (lt_length_of_mem_log htraced hd)).1 hdirect'

theorem Nested.mono (htraced : G.Traced s) (hcalls : s.calls <+: s'.calls)
    (hlog : s.log <+: s'.log) (h : s.Nested frames) : s'.Nested frames := by
  induction frames with
  | nil => trivial
  | cons f rest ih => exact ⟨h.1.mono htraced hcalls hlog, ih h.2⟩

/-! ### What lies below a frame -/

theorem Nested.drop (h : s.Nested frames) (n : ℕ) : s.Nested (frames.drop n) := by
  induction frames generalizing n with
  | nil => rwa [List.drop_nil]
  | cons f rest ih =>
    cases n with
    | zero => exact h
    | succ n => exact ih h.2 n

/-- Every frame lies on the frames below it. -/
theorem Nested.exists_below (h : s.Nested frames) (hf : f ∈ frames) :
    ∃ rest, f :: rest <:+ frames ∧ s.LiesOn f rest ∧ s.Nested rest := by
  induction frames with
  | nil => cases hf
  | cons f' rest ih =>
    rcases List.mem_cons.1 hf with rfl | hf
    · exact ⟨rest, List.suffix_rfl, h.1, h.2⟩
    · obtain ⟨below, hsuffix, hbelow⟩ := ih h.2 hf
      exact ⟨below, hsuffix.trans (List.suffix_cons _ _), hbelow⟩

theorem handlerOn_eq_some (h : handlerOn frames = some delivery) :
    ∃ node pushes rest, frames = .handlePacket delivery node pushes :: rest := by
  cases frames with
  | nil => cases h
  | cons f rest =>
    cases f with
    | handlePacket delivery' node pushes => exact ⟨node, pushes, rest, by cases h; rfl⟩
    | _ => cases h

/-- The handler that has made a call is below the frames of the call. -/
theorem LiesOn.handler (h : s.LiesOn f rest) (hid : f.callId? = some id)
    (hmade : s.MadeBy delivery id) :
    ∃ node pushes rest', rest = .handlePacket delivery node pushes :: rest' := by
  obtain ⟨call, hcall, hcause⟩ := h.1 id hid
  obtain ⟨call', pushes, hcall', hcause'⟩ := hmade
  obtain rfl := Option.some.inj (hcall.symm.trans hcall')
  rw [hcause', Option.map_some] at hcause
  exact handlerOn_eq_some hcause.symm

/-- The call that has called a handler is below it. -/
theorem active_of_handler (h : s.Nested frames) (hframes : ∃ t, frames <:+ s.stack t)
    (hhandler : handlerOn frames = some delivery) (hd : s.log[delivery]? = some d)
    (hdirect : d.IsDirect s.calls) : s.Active d.callId := by
  obtain ⟨node, pushes, rest, rfl⟩ := handlerOn_eq_some hhandler
  obtain ⟨d', hd', hcall⟩ := h.1.2 delivery rfl
  obtain rfl := Option.some.inj (hd.symm.trans hd')
  obtain ⟨f, hf, hid⟩ := Option.bind_eq_some_iff.1 (hcall hdirect)
  obtain ⟨t, hsuffix⟩ := hframes
  exact ⟨t, f, hsuffix.subset (List.mem_cons_of_mem _ (List.mem_of_mem_head? hf)), hid⟩

/-- A call is on a stack as long as one that was made inside it is. -/
theorem Active.of_under (h : s.WellNested) (hactive : s.Active id) (hunder : s.Under i id) :
    s.Active i := by
  induction hunder with
  | refl => exact hactive
  | tail _ hinside ih =>
    refine ih ?_
    obtain ⟨delivery, d, hmade, hd, hdirect, rfl⟩ := hinside
    obtain ⟨t, f, hf, hid⟩ := hactive
    obtain ⟨rest, hsuffix, hlies, hrest⟩ := (h.nested t).exists_below hf
    obtain ⟨node, pushes, rest', rfl⟩ := hlies.handler hid hmade
    exact active_of_handler hrest ⟨t, (List.suffix_cons _ _).trans hsuffix⟩ rfl hd hdirect

/-! ### Counting a push -/

theorem handlerOn_notePush (kind : CallKind) (frames : List Frame) :
    handlerOn (notePush kind frames) = handlerOn frames := by
  unfold notePush
  split <;> rfl

theorem handlersOf_notePush (kind : CallKind) (frames : List Frame) :
    handlersOf (notePush kind frames) = handlersOf frames := by
  unfold notePush
  split <;> rfl

theorem handlersOf_handlePacket (delivery : ℕ) (node : String) (pushes : ℕ) (rest : List Frame) :
    handlersOf (.handlePacket delivery node pushes :: rest) = delivery :: handlersOf rest := rfl

theorem handlersOf_callId (h : f.callId? = some id) (rest : List Frame) :
    handlersOf (f :: rest) = handlersOf rest := by
  cases f with
  | pushEdges => rfl
  | enqueue => rfl
  | signal => rfl
  | _ => cases h

theorem nested_notePush (kind : CallKind) (h : s.Nested frames) :
    s.Nested (notePush kind frames) := by
  unfold notePush
  split
  · exact h
  · exact h

theorem exists_callId_notePush {kind : CallKind} :
    (∃ f ∈ notePush kind frames, f.callId? = some id) ↔ ∃ f ∈ frames, f.callId? = some id := by
  unfold notePush
  split
  · simp [Frame.callId?, Frame.call?]
  · rfl

theorem handlerOn_of_canCall (h : canCall frames = true) :
    (causeOf frames).map Prod.fst = handlerOn frames := by
  unfold canCall at h
  split at h
  · rfl
  · rfl
  · cases h

/-! ### What a step does to the stacks -/

theorem active_congr (h : ∀ u, (∃ f ∈ s'.stack u, f.callId? = some id) →
    ∃ f ∈ s.stack u, f.callId? = some id) (hactive : s'.Active id) : s.Active id := by
  obtain ⟨u, hu⟩ := hactive
  exact ⟨u, h u hu⟩

/-- A step that makes no call and no delivery changes a stack: the handlers and the calls on it are
some of those that were there. -/
theorem WellNested.restack (h : s.WellNested) (hcalls : s'.calls = s.calls)
    (hlog : s'.log = s.log) (hstack : s'.stack = Function.update s.stack t frames)
    (hnested : s.Nested frames) (hhandlers : (handlersOf frames).Sublist (handlersOf (s.stack t)))
    (hactive : ∀ id, (∃ f ∈ frames, f.callId? = some id) → ∃ f ∈ s.stack t, f.callId? = some id)
    (henqueued : ∀ g, ∀ info ∈ (s'.groups g).enqueued, info.callId < s.calls.length) :
    s'.WellNested := by
  have hsame : s'.MadeBy = s.MadeBy := by
    funext delivery id
    rw [MadeBy, MadeBy, hcalls]
  have hlies : s'.LiesOn = s.LiesOn := by
    funext f rest
    rw [LiesOn, LiesOn, hcalls, hlog]
  have hall : ∀ frames, s.Nested frames → s'.Nested frames := by
    intro frames hframes
    induction frames with
    | nil => trivial
    | cons f rest ih => exact ⟨hlies ▸ hframes.1, ih hframes.2⟩
  refine ⟨fun u => hall _ ?_, fun u => ?_, fun delivery i j hi hj hij hi' => ?_,
    fun delivery id hmade => hlog ▸ h.causes delivery id (hsame ▸ hmade),
    fun g info hinfo => hcalls ▸ henqueued g info hinfo⟩
  · by_cases hu : u = t
    · rw [hstack, hu, Function.update_self]
      exact hnested
    · rw [hstack, Function.update_of_ne hu]
      exact h.nested u
  · by_cases hu : u = t
    · rw [hstack, hu, Function.update_self]
      exact (h.handlers t).sublist hhandlers
    · rw [hstack, Function.update_of_ne hu]
      exact h.handlers u
  · refine h.latest delivery i j (hsame ▸ hi) (hsame ▸ hj) hij (active_congr (fun u hu => ?_) hi')
    rw [hstack] at hu
    by_cases hut : u = t
    · rw [hut, Function.update_self] at hu
      exact hut ▸ hactive i hu
    · rwa [Function.update_of_ne hut] at hu

/-- The frame on top is taken off, or replaced by another frame of its call. -/
theorem Nested.replaceTop {f' : Frame} (h : s.Nested (f :: rest)) (hid : f'.callId? = f.callId?)
    (hdelivery : f'.deliveryOf = none) : s.Nested (f' :: rest) :=
  ⟨⟨fun id hf' => h.1.1 id (hid ▸ hf'),
    fun delivery hf' => by rw [hdelivery] at hf'; cases hf'⟩, h.2⟩

theorem handlersOf_cons_none (h : f.deliveryOf = none) (rest : List Frame) :
    handlersOf (f :: rest) = handlersOf rest := List.filterMap_cons_none h

theorem WellNested.replaceTop {f' : Frame} (h : s.WellNested) (hs : s.stack t = f :: rest)
    (hstack : s'.stack = Function.update s.stack t (f' :: rest)) (hid : f'.callId? = f.callId?)
    (hdelivery : f'.deliveryOf = none) (hcalls : s'.calls = s.calls) (hlog : s'.log = s.log)
    (henqueued : ∀ g, ∀ info ∈ (s'.groups g).enqueued, info.callId < s.calls.length) :
    s'.WellNested := by
  have hnested := h.nested t
  rw [hs] at hnested
  refine h.restack hcalls hlog hstack (hnested.replaceTop hid hdelivery) ?_ ?_ henqueued
  · rw [handlersOf_cons_none hdelivery, hs]
    exact (List.sublist_cons_self f rest).filterMap _
  · intro id hframes
    simpa [hs, hid] using hframes

/-- Frames are taken off. -/
theorem WellNested.drop (h : s.WellNested) (n : ℕ) (hcalls : s'.calls = s.calls)
    (hlog : s'.log = s.log) (hstack : s'.stack = Function.update s.stack t ((s.stack t).drop n))
    (henqueued : ∀ g, ∀ info ∈ (s'.groups g).enqueued, info.callId < s.calls.length) :
    s'.WellNested := by
  refine h.restack hcalls hlog hstack ((h.nested t).drop n)
    ((List.drop_sublist n _).filterMap _) ?_ henqueued
  rintro id ⟨f, hf, hid⟩
  exact ⟨f, List.mem_of_mem_drop hf, hid⟩

/-- A frame that is neither of a call nor of a handler lies on anything. -/
theorem liesOn_of_none (hid : f.callId? = none) (hdelivery : f.deliveryOf = none) :
    s.LiesOn f rest := by
  constructor
  · intro id hf
    rw [hid] at hf
    cases hf
  · intro delivery hf
    rw [hdelivery] at hf
    cases hf

/-- Such a frame is put on top. -/
theorem WellNested.cover {f' : Frame} (h : s.WellNested) (hid : f'.callId? = none)
    (hdelivery : f'.deliveryOf = none) : (s.setStack t (f' :: s.stack t)).WellNested := by
  refine h.restack rfl rfl rfl ⟨liesOn_of_none hid hdelivery, h.nested t⟩ ?_ ?_ h.enqueued
  · rw [handlersOf_cons_none hdelivery]
  · intro id hframes
    simpa [hid] using hframes

/-- A step that changes groups, and enqueues nothing. -/
theorem WellNested.onGroups (h : s.WellNested) (hcalls : s'.calls = s.calls)
    (hlog : s'.log = s.log) (hstack : s'.stack = s.stack)
    (henqueued : ∀ g, (s'.groups g).enqueued = (s.groups g).enqueued) : s'.WellNested := by
  refine h.restack (t := 0) hcalls hlog (hstack.trans (Function.update_eq_self 0 s.stack).symm)
    (h.nested 0) (List.Sublist.refl _) (fun _ hid => hid) fun g info hinfo => ?_
  rw [henqueued] at hinfo
  exact h.enqueued g info hinfo

/-! ### Calls -/

theorem mem_handlersOf {node : String} {pushes : ℕ}
    (h : .handlePacket delivery node pushes ∈ frames) : delivery ∈ handlersOf frames :=
  List.mem_filterMap.2 ⟨_, h, rfl⟩

/-- A handler is on the stack of one thread. -/
theorem thread_unique (htraced : G.Traced s) {u : ThreadId} {node node' : String}
    {pushes pushes' : ℕ} (h : .handlePacket delivery node pushes ∈ s.stack t)
    (h' : .handlePacket delivery node' pushes' ∈ s.stack u) : u = t := by
  obtain ⟨d, hd, -, rfl⟩ := htraced.frames t _ h
  obtain ⟨d', hd', -, rfl⟩ := htraced.frames u _ h'
  rw [Option.some.inj (hd.symm.trans hd')]

/-- A handler on top of a stack has no other call on a stack. -/
theorem WellNested.not_active_of_top (h : s.WellNested) (htraced : G.Traced s)
    (htop : handlerOn (s.stack t) = some delivery) (hmade : s.MadeBy delivery i) :
    ¬ s.Active i := by
  rintro ⟨u, f, hf, hid⟩
  obtain ⟨node, pushes, rest, hs⟩ := handlerOn_eq_some htop
  obtain ⟨below, hsuffix, hlies, -⟩ := (h.nested u).exists_below hf
  obtain ⟨node', pushes', rest', rfl⟩ := hlies.handler hid hmade
  have hmem : .handlePacket delivery node' pushes' ∈ s.stack u := hsuffix.subset (by simp)
  obtain rfl : u = t := thread_unique htraced (hs ▸ List.mem_cons_self) hmem
  -- the call is below the handler, which would lie on itself
  have hnodup := h.handlers u
  rw [hs, handlersOf_handlePacket, List.nodup_cons] at hnodup
  rw [hs, List.suffix_cons_iff] at hsuffix
  rcases hsuffix with heq | hsuffix
  · rw [(List.cons.inj heq).1] at hid
    cases hid
  · exact hnodup.1 (mem_handlersOf (hsuffix.subset (List.mem_cons_of_mem _ List.mem_cons_self)))

variable {call : Call}

theorem madeBy_beginCall (hmade : (s.beginCall t call frames).MadeBy delivery id) :
    s.MadeBy delivery id ∨ id = s.calls.length ∧ call.cause.map Prod.fst = some delivery := by
  obtain ⟨call', pushes, hcall', hcause⟩ := hmade
  rcases getElem?_concat_cases hcall' with ⟨hold, -⟩ | ⟨rfl, rfl⟩
  · exact .inl ⟨call', pushes, hold, hcause⟩
  · exact .inr ⟨rfl, by rw [hcause, Option.map_some]⟩

theorem active_beginCall (hframes : ∀ f ∈ frames, f.callId? = some s.calls.length)
    (hactive : (s.beginCall t call frames).Active id) :
    s.Active id ∨ id = s.calls.length := by
  obtain ⟨u, f, hf, hid⟩ := hactive
  rw [beginCall_stack] at hf
  by_cases hu : u = t
  · rw [hu, Function.update_self, List.mem_append] at hf
    rcases hf with hf | hf
    · exact .inr (Option.some.inj (hid.symm.trans (hframes f hf)))
    · exact .inl ⟨t, exists_callId_notePush.1 ⟨f, hf, hid⟩⟩
  · rw [Function.update_of_ne hu] at hf
    exact .inl ⟨u, f, hf, hid⟩

/-- A call is made by the handler on top, whose other calls have been completed. -/
theorem WellNested.beginCall (h : s.WellNested) (htraced : G.Traced s)
    (hcan : canCall (s.stack t) = true) (hcause : call.cause = causeOf (s.stack t))
    (hframes : frames = [] ∨ ∃ f, frames = [f] ∧ f.callId? = some s.calls.length) :
    (s.beginCall t call frames).WellNested := by
  have htop : call.cause.map Prod.fst = handlerOn (s.stack t) :=
    hcause ▸ handlerOn_of_canCall hcan
  have hcalls : s.calls <+: (s.beginCall t call frames).calls := List.prefix_append _ _
  have hcallId : ∀ f ∈ frames, f.callId? = some s.calls.length := by
    rintro f hf
    rcases hframes with rfl | ⟨f', rfl, hid⟩
    · cases hf
    · rwa [List.mem_singleton.1 hf]
  have hmono : ∀ frames', s.Nested frames' → (s.beginCall t call frames).Nested frames' :=
    fun frames' => Nested.mono htraced hcalls (List.prefix_refl _)
  have hbelow := hmono _ (nested_notePush call.kind (h.nested t))
  constructor
  case nested =>
    intro u
    rw [beginCall_stack]
    by_cases hu : u = t
    · rw [hu, Function.update_self]
      rcases hframes with rfl | ⟨f, rfl, hid⟩
      · exact hbelow
      · refine ⟨⟨fun id hf => ?_, fun delivery hf => ?_⟩, hbelow⟩
        · obtain rfl := Option.some.inj (hf.symm.trans hid)
          refine ⟨call, by rw [beginCall_calls, List.getElem?_concat_length], ?_⟩
          change _ = handlerOn (notePush call.kind (s.stack t))
          rw [handlerOn_notePush, htop]
        · cases f with
          | handlePacket => cases hid
          | _ => cases hf
    · rw [Function.update_of_ne hu]
      exact hmono _ (h.nested u)
  case handlers =>
    intro u
    rw [beginCall_stack]
    by_cases hu : u = t
    · rw [hu, Function.update_self]
      rcases hframes with rfl | ⟨f, rfl, hid⟩
      · rw [List.nil_append, handlersOf_notePush]
        exact h.handlers t
      · rw [List.singleton_append, handlersOf_callId hid, handlersOf_notePush]
        exact h.handlers t
    · rw [Function.update_of_ne hu]
      exact h.handlers u
  case latest =>
    intro delivery i j hi hj hij hactive
    have hj' := lt_length_of_madeBy hj
    rw [beginCall_calls, List.length_append, List.length_singleton] at hj'
    have hold : s.Active i := (active_beginCall hcallId hactive).resolve_right (by omega)
    have hmade : s.MadeBy delivery i :=
      (madeBy_beginCall hi).resolve_right fun hnew => by omega
    rcases madeBy_beginCall hj with hj | ⟨rfl, hnew⟩
    · exact h.latest delivery i j hmade hj hij hold
    · exact h.not_active_of_top htraced (htop ▸ hnew) hmade hold
  case causes =>
    intro delivery id hmade
    rcases madeBy_beginCall hmade with hold | ⟨-, hnew⟩
    · exact h.causes delivery id hold
    · obtain ⟨node, pushes, rest, hs⟩ := handlerOn_eq_some (htop ▸ hnew)
      obtain ⟨d, hd, -⟩ := htraced.frames t (.handlePacket delivery node pushes) (by simp [hs])
      exact (List.getElem?_eq_some_iff.1 hd).1
  case enqueued =>
    intro g info hinfo
    rw [beginCall_calls, List.length_append]
    exact Nat.lt_add_right _ (h.enqueued g info hinfo)

/-! ### Deliveries -/

/-- A delivery calls a handler that has not been called before. -/
theorem WellNested.deliver (h : s.WellNested) (htraced : G.Traced s) {callId : ℕ} {packet : Packet}
    {via : Via} (hnested : s.Nested frames)
    (hhandlers : (handlersOf frames).Sublist (handlersOf (s.stack t)))
    (hactive : ∀ id, (∃ f ∈ frames, f.callId? = some id) → ∃ f ∈ s.stack t, f.callId? = some id)
    (hcaller : Delivery.IsDirect s.calls ⟨callId, via, packet, t⟩ →
      frames.head?.bind Frame.callId? = some callId) :
    (G.sendPacketToNode s t callId packet via frames).WellNested := by
  have hlog : s.log <+: (G.sendPacketToNode s t callId packet via frames).log :=
    List.prefix_append _ _
  have hmono : ∀ frames', s.Nested frames' →
      (G.sendPacketToNode s t callId packet via frames).Nested frames' :=
    fun frames' => Nested.mono htraced (List.prefix_refl _) hlog
  have hcallId : (G.receive s.log.length via.node).callId? = none := by
    unfold DataGraphImpl.receive
    split
    · rfl
    · split <;> rfl
  have hdeliveryOf : ∀ delivery,
      (G.receive s.log.length via.node).deliveryOf = some delivery → delivery = s.log.length := by
    intro delivery hdelivery
    unfold DataGraphImpl.receive at hdelivery
    split at hdelivery
    · cases hdelivery
    · split at hdelivery
      · exact (Option.some.inj hdelivery).symm
      · cases hdelivery
  -- the number of the delivery is new
  have hfresh : s.log.length ∉ handlersOf (s.stack t) := by
    intro hmem
    obtain ⟨f, hf, hdelivery⟩ := List.mem_filterMap.1 hmem
    cases f with
    | handlePacket delivery node pushes =>
      obtain rfl := Option.some.inj hdelivery
      obtain ⟨d, hd, -⟩ := htraced.frames t _ hf
      exact absurd (List.getElem?_eq_some_iff.1 hd).1 (Nat.lt_irrefl _)
    | _ => cases hdelivery
  constructor
  case nested =>
    intro u
    rw [DataGraphImpl.sendPacketToNode_stack]
    by_cases hu : u = t
    · rw [hu, Function.update_self]
      refine ⟨⟨fun id hf => ?_, fun delivery hf => ?_⟩, hmono _ hnested⟩
      · rw [hcallId] at hf
        cases hf
      · rw [hdeliveryOf delivery hf]
        exact ⟨_, List.getElem?_concat_length, hcaller⟩
    · rw [Function.update_of_ne hu]
      exact hmono _ (h.nested u)
  case handlers =>
    intro u
    rw [DataGraphImpl.sendPacketToNode_stack]
    by_cases hu : u = t
    · rw [hu, Function.update_self, handlersOf, List.filterMap_cons]
      split
      · exact (h.handlers t).sublist hhandlers
      · rename_i delivery hdelivery
        rw [hdeliveryOf delivery hdelivery, List.nodup_cons]
        exact ⟨fun hmem => hfresh (hhandlers.subset hmem), (h.handlers t).sublist hhandlers⟩
    · rw [Function.update_of_ne hu]
      exact h.handlers u
  case latest =>
    intro delivery i j hi hj hij hactive'
    refine h.latest delivery i j hi hj hij (active_congr (fun u hu => ?_) hactive')
    rw [DataGraphImpl.sendPacketToNode_stack] at hu
    by_cases hut : u = t
    · rw [hut, Function.update_self] at hu
      obtain ⟨f, hf, hid⟩ := hu
      rcases List.mem_cons.1 hf with rfl | hf
      · rw [hcallId] at hid
        cases hid
      · exact hut ▸ hactive i ⟨f, hf, hid⟩
    · rwa [Function.update_of_ne hut] at hu
  case causes =>
    intro delivery id hmade
    rw [DataGraphImpl.sendPacketToNode_log, List.length_append]
    exact Nat.lt_add_right _ (h.causes delivery id hmade)
  case enqueued => exact h.enqueued

/-! ### Steps -/

theorem enqueued_onGroup {g : String} {m : ThreadGroup → ThreadGroup}
    (h : (m (s.groups g)).enqueued = (s.groups g).enqueued) (g' : String) :
    ((s.onGroup g m).groups g').enqueued = (s.groups g').enqueued := by
  rw [onGroup_groups]
  by_cases hg : g' = g
  · rw [hg, Function.update_self, h]
  · rw [Function.update_of_ne hg]

theorem enqueued_enqueue {g : String} {info : PushedPacketInfo} (g' : String) :
    ((s.onGroup g fun group => group.enqueue info).groups g').enqueued =
      (s.groups g').enqueued ++ if g' = g then [info] else [] := by
  rw [onGroup_groups]
  by_cases hg : g' = g
  · rw [hg, Function.update_self, if_pos rfl]
    rfl
  · rw [Function.update_of_ne hg, if_neg hg, List.append_nil]

/-- A packet that `packetReady` takes from the queue is not delivered directly: an edge to its own
thread is then one that always queues. -/
theorem not_isDirect_of_selects (htraced : G.Traced s) {g : String} {r : Ready}
    {info : PushedPacketInfo} {x : String × Via}
    {sending : List (PushedPacketInfo × String × Via)} (hr : (s.groups g).ready = some r)
    (hsending : r.sending = (info, x) :: sending) (hselects : G.selects t info x = true) :
    ¬ Delivery.IsDirect s.calls ⟨info.callId, x.2, info.packet, t⟩ := by
  rintro ⟨call, e, ⟨hcall, rfl⟩, hvia, htype⟩
  have hentry : G.EntryOk s.calls g info :=
    ((htraced.groups g).sending r hr (info, x) (by simp [hsending])).1
  obtain ⟨call', hcall', hinfo, -⟩ := hentry
  obtain rfl := Option.some.inj (hcall.symm.trans hcall')
  have hthread : info.queuedFromThreadId = call.thread := by
    rw [hinfo, Call.info]
    split <;> rfl
  obtain ⟨channel, via⟩ := x
  obtain rfl : via = .edge e := hvia
  simp [DataGraphImpl.selects, hthread, htype] at hselects

/-- **What a step does to the stacks**, exceptions included. -/
theorem WellNested.step (h : s.WellNested) (htraced : G.Traced s) {a : Act}
    (hstep : GraphStep G s a s') : s'.WellNested := by
  cases hstep with
  | drop hcan => exact h.beginCall htraced hcan rfl (.inl rfl)
  | push hcan => exact h.beginCall htraced hcan rfl (.inr ⟨_, rfl, rfl⟩)
  | send hcan => exact h.beginCall htraced hcan rfl (.inr ⟨_, rfl, rfl⟩)
  | edgeThrows hs =>
    rw [← hs]
    exact h.cover rfl rfl
  | @edgeDirect t id call e edges queuedTo groups rest hs =>
    have hnested := h.nested t
    rw [hs] at hnested
    refine h.deliver htraced (hnested.replaceTop rfl rfl) ?_ ?_ fun _ => rfl
    · rw [hs, handlersOf_callId rfl, handlersOf_callId rfl]
    · rintro id' hframes
      simpa [hs, Frame.callId?, Frame.call?] using hframes
  | edgeKnown hs => exact h.replaceTop hs rfl rfl rfl rfl rfl h.enqueued
  | edgeNew hs => exact h.replaceTop hs rfl rfl rfl rfl rfl h.enqueued
  | edgesDone hs => exact h.replaceTop hs rfl rfl rfl rfl rfl h.enqueued
  | @enqueue t id call g groups rest hs =>
    refine h.replaceTop hs rfl rfl rfl rfl rfl fun g' info hinfo => ?_
    change info ∈ ((s.onGroup g fun group => group.enqueue (call.info id)).groups g').enqueued
      at hinfo
    rw [enqueued_enqueue, List.mem_append] at hinfo
    rcases hinfo with hinfo | hinfo
    · exact h.enqueued g' info hinfo
    · obtain ⟨⟨hid, -⟩, -⟩ := htraced.frames t (.enqueue id call (g :: groups)) (by simp [hs])
      split at hinfo
      · rw [List.mem_singleton.1 hinfo, DataGraphImpl.callId_info]
        exact (List.getElem?_eq_some_iff.1 hid).1
      · cases hinfo
  | enqueueDone hs => exact h.drop 1 rfl rfl (by rw [hs]; rfl) h.enqueued
  | signal hs =>
    refine h.replaceTop hs rfl rfl rfl rfl rfl fun g' info hinfo => h.enqueued g' info ?_
    exact enqueued_onGroup (m := fun group => { group with asyncPending := true }) rfl g' ▸
      hinfo
  | readyThrows hs =>
    rw [← hs]
    exact h.cover rfl rfl
  | @readySends t g rest r info x sending hs hr hsending hselects =>
    have hnested := h.nested t
    rw [hs] at hnested
    have hdeliver : (G.sendPacketToNode s t info.callId info.packet x.2
        (.packetReady g :: rest)).WellNested :=
      h.deliver htraced hnested (by rw [hs]) (fun id hframes => hs ▸ hframes)
        fun hdirect => absurd hdirect (not_isDirect_of_selects htraced hr hsending hselects)
    exact hdeliver.onGroups rfl rfl rfl
      (enqueued_onGroup (m := fun group => group.setReady (some { r with sending })) rfl)
  | readySkips => exact h.onGroups rfl rfl rfl (enqueued_onGroup rfl)
  | readyNext => exact h.onGroups rfl rfl rfl (enqueued_onGroup rfl)
  | readyDone hs =>
    refine h.drop 1 rfl rfl (by rw [hs]; rfl) fun g' info hinfo => h.enqueued g' info ?_
    exact enqueued_onGroup (m := fun group => group.setReady none) rfl g' ▸ hinfo
  | dequeueNone => exact h.onGroups rfl rfl rfl (enqueued_onGroup rfl)
  | dequeueSome => exact h.onGroups rfl rfl rfl (enqueued_onGroup rfl)
  | @wake g hidle =>
    refine h.restack rfl rfl rfl ⟨liesOn_of_none rfl rfl, trivial⟩ (by rw [hidle]; exact .refl _)
      (by simp [Frame.callId?, Frame.call?]) fun g' info hinfo => h.enqueued g' info ?_
    exact enqueued_onGroup
      (m := fun group => { group with asyncPending := false, ready := some {} }) rfl g' ▸ hinfo
  | wakeDead => exact h.onGroups rfl rfl rfl (enqueued_onGroup rfl)
  | ret hs => exact h.drop 1 rfl rfl (by rw [hs]; rfl) h.enqueued
  | throw hs =>
    rw [← hs]
    exact h.cover rfl rfl
  | @unwind t n rest hs => exact h.drop (n + 1) rfl rfl (by rw [hs]; rfl) h.enqueued
  | destroy => exact h.onGroups rfl rfl rfl fun _ => rfl

theorem wellNested_of_idle (h : s.Idle) : s.WellNested := by
  have hcalls : ∀ {delivery id}, ¬ s.MadeBy delivery id := by
    rintro delivery id ⟨call, pushes, hcall, -⟩
    rw [h.calls] at hcall
    cases hcall
  constructor
  case nested =>
    intro t
    rw [h.stack]
    trivial
  case handlers =>
    intro t
    rw [h.stack]
    exact List.nodup_nil
  case latest => exact fun delivery i j hi => absurd hi hcalls
  case causes => exact fun delivery id hmade => absurd hmade hcalls
  case enqueued =>
    intro g info hinfo
    rw [h.groups] at hinfo
    cases hinfo

/-! ### The order of what calls do -/

/-- What was made inside a call does not change when more calls and deliveries are made. -/
theorem MadeInside.of_prefix (h : s.WellNested) (htraced : G.Traced s)
    (hcalls : s.calls <+: s'.calls) (hlog : s.log <+: s'.log) (hlt : id < s.calls.length)
    (hinside : s'.MadeInside i id) : s.MadeInside i id ∧ i < s.calls.length := by
  obtain ⟨delivery, d, ⟨call, pushes, hcall, hcause⟩, hd, hdirect, rfl⟩ := hinside
  obtain ⟨more, hmore⟩ := hcalls
  obtain ⟨later, hlater⟩ := hlog
  rw [← hmore, List.getElem?_append_left hlt] at hcall
  have hmade : s.MadeBy delivery id := ⟨call, pushes, hcall, hcause⟩
  rw [← hlater, List.getElem?_append_left (h.causes delivery id hmade)] at hd
  have hcallId := lt_length_of_mem_log htraced hd
  exact ⟨⟨delivery, d, hmade, hd, (isDirect_iff ⟨more, hmore⟩ hcallId).1 hdirect, rfl⟩, hcallId⟩

theorem Under.of_prefix (h : s.WellNested) (htraced : G.Traced s)
    (hcalls : s.calls <+: s'.calls) (hlog : s.log <+: s'.log) (hlt : id < s.calls.length)
    (hunder : s'.Under i id) : s.Under i id := by
  induction hunder with
  | refl => exact .refl
  | tail _ hinside ih =>
    obtain ⟨hinside, hk⟩ := hinside.of_prefix h htraced hcalls hlog hlt
    exact (ih hk).tail hinside

theorem Under.lt_length (hunder : s.Under i id) (hi : i < s.calls.length) :
    id < s.calls.length := by
  rcases Relation.ReflTransGen.cases_tail hunder with rfl | ⟨_, -, delivery, d, hmade, -⟩
  · exact hi
  · exact lt_length_of_madeBy hmade

/-- A call that has just been made was made inside calls that are on a stack. -/
theorem active_of_under_new (h : s.WellNested) (htraced : G.Traced s)
    (hcan : canCall (s.stack t) = true) (hcause : call.cause = causeOf (s.stack t))
    (hunder : (s.beginCall t call frames).Under i s.calls.length) :
    i = s.calls.length ∨ s.Active i := by
  have hcalls : s.calls <+: (s.beginCall t call frames).calls := List.prefix_append _ _
  rcases Relation.ReflTransGen.cases_tail hunder with heq | ⟨k, hunder, hinside⟩
  · exact .inl heq.symm
  obtain ⟨delivery, d, hmade, hd, hdirect, rfl⟩ := hinside
  have hcallId := lt_length_of_mem_log htraced hd
  rcases madeBy_beginCall hmade with hold | ⟨-, hnew⟩
  · exact absurd (lt_length_of_madeBy hold) (Nat.lt_irrefl _)
  rw [hcause, handlerOn_of_canCall hcan] at hnew
  have hactive : s.Active d.callId := active_of_handler (h.nested t) ⟨t, List.suffix_rfl⟩ hnew hd
    ((isDirect_iff hcalls hcallId).1 hdirect)
  exact .inr (hactive.of_under h
    (Under.of_prefix h htraced hcalls (List.prefix_refl _) hcallId hunder))

theorem AddsNothing.refl (s : GraphState) (i : ℕ) : s.AddsNothing s i :=
  fun _ hc => ⟨hc, fun _ he => he⟩

theorem AddsNothing.trans {s'' : GraphState} (h : s.AddsNothing s' i)
    (h' : s'.AddsNothing s'' i) : s.AddsNothing s'' i := by
  intro c hc
  obtain ⟨hunder', hdid'⟩ := h' c hc
  obtain ⟨hunder, hdid⟩ := h c hunder'
  exact ⟨hunder, fun e he => hdid e (hdid' e he)⟩

/-- Nothing is called, delivered or enqueued. -/
theorem addsNothing_of_eq (hcalls : s'.calls = s.calls) (hlog : s'.log = s.log)
    (henqueued : ∀ g, (s'.groups g).enqueued = (s.groups g).enqueued) : s.AddsNothing s' i := by
  have hinside : s'.MadeInside = s.MadeInside := by
    funext i id
    simp only [MadeInside, MadeBy, hcalls, hlog]
  have hunder : s'.Under = s.Under := by
    funext i id
    rw [Under, Under, hinside]
  refine fun c hc => ⟨hunder ▸ hc, fun e he => ?_⟩
  cases e with
  | made => rwa [Did, hcalls] at he
  | delivered => rwa [Did, hcalls, hlog] at he
  | enqueued => rwa [Did, henqueued] at he

/-- A call is made, by a handler that is not inside call `i`. -/
theorem addsNothing_beginCall (h : s.WellNested) (htraced : G.Traced s)
    (hcan : canCall (s.stack t) = true) (hcause : call.cause = causeOf (s.stack t))
    (hi : i < s.calls.length) (hactive : ¬ s.Active i) :
    s.AddsNothing (s.beginCall t call frames) i := by
  intro c hc
  have hcalls : s.calls <+: (s.beginCall t call frames).calls := List.prefix_append _ _
  have hlength : (s.beginCall t call frames).calls.length = s.calls.length + 1 := by simp
  have hclt : c < s.calls.length := by
    have hlt := hc.lt_length (by omega : i < (s.beginCall t call frames).calls.length)
    by_contra hge
    obtain rfl : c = s.calls.length := by omega
    rcases active_of_under_new h htraced hcan hcause hc with heq | hnew
    · exact hi.ne heq
    · exact hactive hnew
  refine ⟨Under.of_prefix h htraced hcalls (List.prefix_refl _) hclt hc, fun e he => ?_⟩
  cases e with
  | made => exact ⟨he.1, hclt⟩
  | delivered =>
    obtain ⟨d, hd, hdirect, hid⟩ := he
    exact ⟨d, hd, (isDirect_iff hcalls (lt_length_of_mem_log htraced hd)).1 hdirect, hid⟩
  | enqueued => exact he

/-- A delivery is made, which is not a direct one of a call inside `i`. -/
theorem addsNothing_deliver (h : s.WellNested) (htraced : G.Traced s) (hi : i < s.calls.length)
    (hactive : ¬ s.Active i) {callId : ℕ} {packet : Packet} {via : Via}
    (hcaller : Delivery.IsDirect s.calls ⟨callId, via, packet, t⟩ → s.Active callId) :
    s.AddsNothing (G.sendPacketToNode s t callId packet via frames) i := by
  intro c hc
  have hcalls : s.calls <+: (G.sendPacketToNode s t callId packet via frames).calls :=
    List.prefix_rfl
  have hunder : s.Under i c :=
    Under.of_prefix h htraced hcalls (List.prefix_append _ _) (hc.lt_length hi) hc
  refine ⟨hunder, fun e he => ?_⟩
  cases e with
  | made => exact he
  | enqueued => exact he
  | delivered =>
    obtain ⟨d, hd, hdirect, rfl⟩ := he
    rcases getElem?_concat_cases hd with ⟨hold, -⟩ | ⟨rfl, rfl⟩
    · exact ⟨d, hold, hdirect, rfl⟩
    · exact absurd ((hcaller hdirect).of_under h hunder) hactive

/-- A packet is enqueued, by a call that is not inside `i`. -/
theorem addsNothing_enqueue (h : s.WellNested) (hactive : ¬ s.Active i) {g : String}
    {info : PushedPacketInfo} (hcaller : s.Active info.callId) :
    s.AddsNothing (s.onGroup g fun group => group.enqueue info) i := by
  intro c hc
  refine ⟨hc, fun e he => ?_⟩
  cases e with
  | made => exact he
  | delivered => exact he
  | enqueued g' position =>
    obtain ⟨info', hinfo, rfl⟩ := he
    rw [enqueued_enqueue] at hinfo
    split at hinfo
    · rcases getElem?_concat_cases hinfo with ⟨hold, -⟩ | ⟨-, rfl⟩
      · exact ⟨info', hold, rfl⟩
      · exact absurd (hcaller.of_under h hc) hactive
    · rw [List.append_nil] at hinfo
      exact ⟨info', hinfo, rfl⟩

/-- **A call that has returned does nothing more**: while it is on no stack, no step does anything
inside it. -/
theorem addsNothing_step (h : s.WellNested) (htraced : G.Traced s) (hi : i < s.calls.length)
    (hactive : ¬ s.Active i) {a : Act} (hstep : GraphStep G s a s') : s.AddsNothing s' i := by
  cases hstep with
  | drop hcan => exact addsNothing_beginCall h htraced hcan rfl hi hactive
  | push hcan => exact addsNothing_beginCall h htraced hcan rfl hi hactive
  | send hcan => exact addsNothing_beginCall h htraced hcan rfl hi hactive
  | @edgeDirect t id call e edges queuedTo groups rest hs =>
    exact addsNothing_deliver h htraced hi hactive fun _ =>
      ⟨t, .pushEdges id call (e :: edges) queuedTo groups, by simp [hs], rfl⟩
  | @readySends t g rest r info x sending hs hr hsending hselects =>
    have hdeliver : s.AddsNothing (G.sendPacketToNode s t info.callId info.packet x.2
        (.packetReady g :: rest)) i :=
      addsNothing_deliver h htraced hi hactive fun hdirect =>
        absurd hdirect (not_isDirect_of_selects htraced hr hsending hselects)
    exact hdeliver.trans (addsNothing_of_eq rfl rfl
      (enqueued_onGroup (m := fun group => group.setReady (some { r with sending })) rfl))
  | @enqueue t id call g groups rest hs =>
    have hcaller : s.Active (call.info id).callId :=
      ⟨t, .enqueue id call (g :: groups), by simp [hs], by rw [DataGraphImpl.callId_info]; rfl⟩
    exact (addsNothing_enqueue h hactive hcaller).trans (addsNothing_of_eq rfl rfl fun _ => rfl)
  | signal =>
    exact addsNothing_of_eq rfl rfl
      (enqueued_onGroup (m := fun group => { group with asyncPending := true }) rfl)
  | readySkips => exact addsNothing_of_eq rfl rfl (enqueued_onGroup rfl)
  | readyNext => exact addsNothing_of_eq rfl rfl (enqueued_onGroup rfl)
  | readyDone =>
    exact addsNothing_of_eq rfl rfl (enqueued_onGroup (m := fun group => group.setReady none) rfl)
  | dequeueNone => exact addsNothing_of_eq rfl rfl (enqueued_onGroup rfl)
  | dequeueSome => exact addsNothing_of_eq rfl rfl (enqueued_onGroup rfl)
  | wake =>
    exact addsNothing_of_eq rfl rfl (enqueued_onGroup
      (m := fun group => { group with asyncPending := false, ready := some {} }) rfl)
  | wakeDead => exact addsNothing_of_eq rfl rfl (enqueued_onGroup rfl)
  | _ => exact addsNothing_of_eq rfl rfl fun _ => rfl

end GraphState

variable {G : DataGraphImpl} {s₀ s : GraphState}

/-- What holds in every state of any run. -/
theorem wellNested_of_reachable {ok : GraphState → Act → Prop} (h₀ : s₀.Idle)
    (h : G.machine.Reachable ok s₀ s) : G.Traced s ∧ s.WellNested :=
  h.invariant (I := fun s => G.Traced s ∧ s.WellNested)
    ⟨DataGraphImpl.traced_of_idle h₀, GraphState.wellNested_of_idle h₀⟩
    fun _ _ _ hu _ hs => ⟨hu.1.step (step_cases hs), hu.2.step hu.1 (step_cases hs)⟩

namespace GraphState

/-- Once a handler has made another call, nothing is done any more inside an earlier one. -/
theorem addsNothing_of_later {ok : GraphState → Act → Prop} {u : GraphState} (h₀ : s₀.Idle)
    (hu : G.machine.Reachable ok s₀ u) (hs : G.machine.Reachable ok u s) {delivery i j : ℕ}
    (hij : i < j) (hi : u.MadeBy delivery i) (hj : u.MadeBy delivery j) : u.AddsNothing s i := by
  have hinv : (G.Traced s ∧ s.WellNested) ∧ (s.MadeBy delivery i ∧ s.MadeBy delivery j) ∧
      u.AddsNothing s i := by
    refine hs.invariant (I := fun v => (G.Traced v ∧ v.WellNested) ∧
      (v.MadeBy delivery i ∧ v.MadeBy delivery j) ∧ u.AddsNothing v i)
      ⟨wellNested_of_reachable h₀ hu, ⟨hi, hj⟩, .refl u i⟩ ?_
    rintro v a v' ⟨⟨htraced, hnested⟩, ⟨hi, hj⟩, hadds⟩ - hv
    have hstep := step_cases hv
    have hcalls := calls_isPrefix hstep
    refine ⟨⟨htraced.step hstep, hnested.step htraced hstep⟩,
      ⟨hi.mono hcalls, hj.mono hcalls⟩, hadds.trans ?_⟩
    exact addsNothing_step hnested htraced (lt_length_of_madeBy hi)
      (hnested.latest delivery i j hi hj hij) hstep
  exact hinv.2.2

/-- When a handler makes a call, or has made it, its earlier calls are on no stack. -/
theorem not_active_before {u u' : GraphState} {a : Act} (h : u.WellNested) (htraced : G.Traced u)
    (hstep : GraphStep G u a u') {delivery i j : ℕ} (hij : i < j) (hi : u'.MadeBy delivery i)
    (hj : u'.MadeBy delivery j) : u.MadeBy delivery i ∧ ¬ u.Active i := by
  have hbegin : ∀ {t : ThreadId} {call : Call} {frames : List Frame},
      canCall (u.stack t) = true → call.cause = causeOf (u.stack t) →
      (u.beginCall t call frames).MadeBy delivery i →
      (u.beginCall t call frames).MadeBy delivery j → u.MadeBy delivery i ∧ ¬ u.Active i := by
    intro t call frames hcan hcause hi hj
    have hj' := lt_length_of_madeBy hj
    rw [beginCall_calls, List.length_append, List.length_singleton] at hj'
    have hmade : u.MadeBy delivery i :=
      (madeBy_beginCall hi).resolve_right fun hnew => by omega
    refine ⟨hmade, ?_⟩
    rcases madeBy_beginCall hj with hold | ⟨-, hnew⟩
    · exact h.latest delivery i j hmade hold hij
    · rw [hcause, handlerOn_of_canCall hcan] at hnew
      exact h.not_active_of_top htraced hnew hmade
  have hsame : u'.calls = u.calls → u.MadeBy delivery i ∧ ¬ u.Active i := by
    intro hcalls
    rw [MadeBy, hcalls] at hi hj
    exact ⟨hi, h.latest delivery i j hi hj hij⟩
  cases hstep with
  | drop hcan => exact hbegin hcan rfl hi hj
  | push hcan => exact hbegin hcan rfl hi hj
  | send hcan => exact hbegin hcan rfl hi hj
  | _ => exact hsame rfl

/-- A call that has done something has been made. -/
theorem lt_length_of_did (h : s.WellNested) (htraced : G.Traced s) {id : ℕ} {e : Event}
    (hdid : s.Did id e) : id < s.calls.length := by
  cases e with
  | made => exact hdid.2
  | delivered =>
    obtain ⟨d, hd, -, rfl⟩ := hdid
    exact lt_length_of_mem_log htraced hd
  | enqueued g =>
    obtain ⟨info, hinfo, rfl⟩ := hdid
    exact h.enqueued g info (List.mem_of_getElem? hinfo)

/-- A call was made before those inside it. -/
theorem Under.left_lt_length (htraced : G.Traced s) {i id : ℕ} (hunder : s.Under i id)
    (hid : id < s.calls.length) : i < s.calls.length := by
  rcases Relation.ReflTransGen.cases_head hunder with rfl | ⟨_, ⟨_, d, -, hd, -, rfl⟩, -⟩
  · exact hid
  · exact lt_length_of_mem_log htraced hd

/-- What a handler has made it had made when there were so many calls. -/
theorem MadeBy.of_prefix {u : GraphState} (hcalls : u.calls <+: s.calls) {delivery id : ℕ}
    (hid : id < u.calls.length) (h : s.MadeBy delivery id) : u.MadeBy delivery id := by
  obtain ⟨call, pushes, hcall, hcause⟩ := h
  obtain ⟨more, hmore⟩ := hcalls
  rw [← hmore, List.getElem?_append_left hid] at hcall
  exact ⟨call, pushes, hcall, hcause⟩

end GraphState

open GraphState in
/-- **Calls of one handler run to completion**, in every interleaving, with any nesting, and
whatever is thrown: when a handler has made call `i` and later call `j`, each call that was made
inside `i` does all that it ever does, along direct edges and into the queues of any groups, before
a call that was made inside `j` does anything. -/
theorem runs_to_completion (h₀ : s₀.Idle) {delivery i j : ℕ} (hij : i < j)
    (hi : s.MadeBy delivery i) (hj : s.MadeBy delivery j) {c c' : ℕ} (hc : s.Under i c)
    (hc' : s.Under j c') : G.Before s₀ s c c' := by
  intro e e' he u a u' hu _ hstep hs he'
  obtain ⟨htraced, hnested⟩ := wellNested_of_reachable h₀ hu
  have hu' : G.machine.Reachable Machine.free s₀ u' := hu.snoc trivial hstep
  obtain ⟨htraced', hnested'⟩ := wellNested_of_reachable h₀ hu'
  obtain ⟨hcalls, hlog⟩ := prefix_of_reachable hs
  -- both calls have been made by then
  have hclt' : c' < u'.calls.length := lt_length_of_did hnested' htraced' he'
  have hjlt : j < u'.calls.length := Under.left_lt_length htraced'
    (Under.of_prefix hnested' htraced' hcalls hlog hclt' hc') hclt'
  have hi' : u'.MadeBy delivery i := hi.of_prefix hcalls (hij.trans hjlt)
  have hj' : u'.MadeBy delivery j := hj.of_prefix hcalls hjlt
  -- so the earlier one has returned, and nothing is done inside it from here on
  obtain ⟨hmade, hactive⟩ := not_active_before hnested htraced (step_cases hstep) hij hi' hj'
  have hnothing : u.AddsNothing s i :=
    (addsNothing_step hnested htraced (lt_length_of_madeBy hmade) hactive (step_cases hstep)).trans
      (addsNothing_of_later h₀ hu' hs hij hi' hj')
  exact (hnothing c hc).2 e he

/-! ### An example -/

/-- The handler of `source` pushes twice, and `middle` passes both packets on. -/
def passedOnSchedule : List Act :=
  [.sendPacket 7 {} "source", .run 7, .run 7, .run 7, .wake "", .dequeue 0 [0], .run 0, .run 0,
    .pushPacket 0 "source" "out" {}, .run 0, .pushPacket 0 "middle" "out" {}, .run 0, .run 0,
    .run 0, .run 0, .run 0, .ret 0, .run 0, .run 0,
    .pushPacket 0 "source" "out" {}, .run 0, .pushPacket 0 "middle" "out" {}, .run 0, .run 0]

/-- The state the schedule leads to. -/
def passedOnState : GraphState :=
  (relayGraph.machine.exec (fun _ a => a.quiet) startState passedOnSchedule).getD startState

theorem passedOnState_reachable : relayGraph.machine.Reachable quietRuns startState passedOnState :=
  Machine.reachable_exec (by decide)

/-- Both pushes of `middle` were made inside a push of `source`. -/
theorem passedOnState_under : passedOnState.Under 1 2 ∧ passedOnState.Under 3 4 := by
  exact ⟨.single ⟨1, _, ⟨_, 0, rfl, rfl⟩, rfl, ⟨_, _, ⟨rfl, rfl⟩, rfl, rfl⟩, rfl⟩,
    .single ⟨2, _, ⟨_, 0, rfl, rfl⟩, rfl, ⟨_, _, ⟨rfl, rfl⟩, rfl, rfl⟩, rfl⟩⟩

theorem runs_to_completion_nested :
    relayGraph.machine.Reachable quietRuns startState passedOnState ∧
      relayGraph.Before startState passedOnState 2 4 :=
  ⟨passedOnState_reachable,
    runs_to_completion startState_idle (show 1 < 3 by decide)
      (show passedOnState.MadeBy 0 1 from ⟨_, 0, rfl, rfl⟩) ⟨_, 1, rfl, rfl⟩
      passedOnState_under.1 passedOnState_under.2⟩

end Maplang
