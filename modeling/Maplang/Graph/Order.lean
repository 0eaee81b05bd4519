import Maplang.Graph.Delivery

/-!
# Order of the deliveries along an edge

Queues are first-in-first-out for each producer, so one would expect an edge to hand on the
packets of one thread in the order they were pushed.  It does not always: `pushPacket` enqueues
after its direct deliveries have returned, and a handler called by one of these may push on the
same channel again.  The inner push overtakes the outer one on every edge the outer one has not
served yet.

## Main definitions

* `fifoRuns` : nothing throws, and queues are first-in-first-out for each producer.
* `GraphState.InOrder` : along an edge, each delivery comes after those of all earlier pushes.
* `unnested` : a push does not start on a thread while an earlier push of the thread on the same
  channel still has to serve the edge.

## Main results

* `not_perEdgeOrder_loop` : a direct cycle breaks the order.
* `inOrder_of_unnested` : in every run of unnested pushes the order is kept.
-/

namespace Maplang

/-- The step condition: nothing throws, and a dequeue overtakes no packet of the same thread. -/
def fifoRuns (s : GraphState) : Act → Bool
  | .dequeue t picks =>
    match s.stack t with
    | .packetReady g :: _ =>
      Bag.fifoPicks PushedPacketInfo.queuedFromThreadId (s.groups g).mPacketQueue picks
    | _ => true
  | a => a.quiet

/-- Call number `id` is a push by thread `t` from channel `c` of node `f`. -/
def IsPush (calls : List Call) (t : ThreadId) (f c : String) (id : ℕ) : Prop :=
  ∃ call, CallOn calls id call t ∧ call.kind = .pushPacket f c

/-- Of two pushes of one thread on the same channel, the earlier one is delivered along the edge
`e` before the later one. -/
def GraphState.InOrder (s : GraphState) (f c : String) (e : GraphEdge) : Prop :=
  ∀ t i j, i < j → IsPush s.calls t f c i → IsPush s.calls t f c j →
    ∀ (q : ℕ) (d : Delivery), s.log[q]? = some d → d.callId = j → d.via = .edge e →
      ∃ (p : ℕ) (d' : Delivery), p < q ∧ s.log[p]? = some d' ∧ d'.callId = i ∧ d'.via = .edge e

/-- Every edge of every channel is in order, in every run. -/
def DataGraphImpl.PerEdgeOrder (G : DataGraphImpl) : Prop :=
  ∀ s₀ s : GraphState, s₀.Idle → G.machine.Reachable (fun u a => fifoRuns u a = true) s₀ s →
    ∀ f c e, e ∈ (G.channelEdges f c).getD [] → s.InOrder f c e

/-- No push on channel `c` of node `f` starts on a thread while an earlier one of the same thread
still has to deliver along `e`, or to enqueue to a group that will. -/
def unnested (G : DataGraphImpl) (f c : String) (e : GraphEdge) (s : GraphState) : Act → Bool
  | .pushPacket t node channel _ =>
    node != f || channel != c || (s.stack t).all fun frame =>
      match frame.call? with
      | none => true
      | some (id, call) => call.kind != .pushPacket f c || !(G.owes id frame).contains (.edge e)
  | _ => true

/-! ### A direct cycle -/

/-- A node with a direct edge to itself and a queued edge to `log`, on the same channel. -/
def loopGraph : DataGraphImpl where
  mGraph := (∅ : UnorderedMap String GraphNode)
    |>.insert "loop" ⟨"loop", "loop", .singleton "out" [⟨"out", "loop", .pushDirectlyToTarget⟩,
      ⟨"out", "log", .alwaysQueue⟩]⟩
    |>.insert "log" ⟨"log", "log", ∅⟩
  mInstances := (∅ : UnorderedMap String Instance)
    |>.insert "loop" ⟨some ⟨true⟩, ""⟩
    |>.insert "log" ⟨some ⟨true⟩, ""⟩
  mUvLoopThreadId _ := 0

/-- `loop` pushes a packet, and when it receives it, pushes another one. -/
def loopSchedule : List Act :=
  [.pushPacket 0 "loop" "out" {}, .run 0,
    .pushPacket 0 "loop" "out" {}, .run 0, .ret 0, .run 0, .run 0, .run 0, .run 0, .run 0, .ret 0,
    .run 0, .run 0, .run 0, .run 0, .run 0,
    .wake "", .dequeue 0 [0, 0], .run 0, .run 0, .run 0]

/-- The state the schedule leads to. -/
def loopState : GraphState :=
  (loopGraph.machine.exec fifoRuns startState loopSchedule).getD startState

/-- **Order is lost in a direct cycle.**  `loop` pushes packet 0, which is delivered to `loop`
directly; the handler pushes packet 1 before packet 0 is enqueued for `log`, and `log` receives
packet 1 first. -/
theorem not_perEdgeOrder_loop : ¬ loopGraph.PerEdgeOrder := by
  intro h
  have horder := h startState loopState startState_idle (Machine.reachable_exec (by decide))
    "loop" "out" ⟨"out", "log", .alwaysQueue⟩ (by decide)
  have hpush₀ : IsPush loopState.calls 0 "loop" "out" 0 :=
    ⟨loopState.calls.get ⟨0, by decide⟩, ⟨rfl, rfl⟩, rfl⟩
  have hpush₁ : IsPush loopState.calls 0 "loop" "out" 1 :=
    ⟨loopState.calls.get ⟨1, by decide⟩, ⟨rfl, rfl⟩, rfl⟩
  obtain ⟨p, d, hp, hd, hid, hvia⟩ := horder 0 0 1 (by decide) hpush₀ hpush₁ 2
    (loopState.log.get ⟨2, by decide⟩) rfl (by decide) (by decide)
  have hearlier : ∀ p < 2, ((loopState.log[p]?).map fun d => (d.callId, d.via)) ≠
      some (0, .edge ⟨"out", "log", .alwaysQueue⟩) := by decide
  exact hearlier p hp (by rw [hd, Option.map_some, hid, hvia])

/-! ### Backlogs -/

/-- What `packetReady` of a group will look at, in this order. -/
def ThreadGroup.backlog (group : ThreadGroup) : List PushedPacketInfo :=
  group.sending.map Prod.fst ++ group.batch ++ group.mPacketQueue

/-- A packet that thread `t` pushed from channel `c` of node `f`. -/
def PushedPacketInfo.isFrom (t : ThreadId) (f c : String) (info : PushedPacketInfo) : Bool :=
  info.fromNode == some f && info.channel == c && info.queuedFromThreadId == t

/-- The pushes by thread `t` from channel `c` of node `f` that a group will look at. -/
def ThreadGroup.pushes (group : ThreadGroup) (t : ThreadId) (f c : String) : List ℕ :=
  (group.backlog.filter (PushedPacketInfo.isFrom t f c)).map PushedPacketInfo.callId

variable {G : DataGraphImpl} {s s' : GraphState} {t : ThreadId} {f c : String} {e : GraphEdge}

open DataGraphImpl

theorem entryOk_of_mem_backlog (htraced : G.Traced s) {g : String} {info : PushedPacketInfo}
    (hi : info ∈ (s.groups g).backlog) : G.EntryOk s.calls g info := by
  have hok := htraced.groups g
  simp only [ThreadGroup.backlog, ThreadGroup.sending, ThreadGroup.batch, List.mem_append] at hi
  cases hr : (s.groups g).ready with
  | none =>
    simp only [hr, List.map_nil, List.not_mem_nil, or_false, false_or] at hi
    exact hok.queue info hi
  | some r =>
    simp only [hr] at hi
    rcases hi with (hi | hi) | hi
    · obtain ⟨x, hx, rfl⟩ := List.mem_map.1 hi
      exact (hok.sending r hr x hx).1
    · exact hok.batch r hr info hi
    · exact hok.queue info hi

theorem isFrom_info (call : Call) (i : ℕ) :
    (call.info i).isFrom t f c = true ↔ call.thread = t ∧ call.kind = .pushPacket f c := by
  unfold Call.info PushedPacketInfo.isFrom
  cases call.kind <;> simp
  tauto

theorem isPush_iff_isFrom {g : String} {info : PushedPacketInfo} (h : G.EntryOk s.calls g info) :
    IsPush s.calls t f c info.callId ↔ info.isFrom t f c = true := by
  obtain ⟨call, hcall, hinfo, -⟩ := h
  rw [hinfo, isFrom_info, ← hinfo]
  constructor
  · rintro ⟨call', hcall', hkind⟩
    obtain rfl := Option.some.inj (hcall.symm.trans hcall'.1)
    exact ⟨hcall'.2, hkind⟩
  · rintro ⟨hthread, hkind⟩
    exact ⟨call, ⟨hcall, hthread⟩, hkind⟩

/-- A group that sends a push along `e` serves `e`. -/
theorem serves_of_mem_sends {call : Call} (hkind : call.kind = .pushPacket f c) {i : ℕ} {g : String}
    (h : .edge e ∈ G.sends g (call.info i)) :
    G.serves call.thread (G.mUvLoopThreadId g) e = true := by
  rw [sends_pushPacket hkind] at h
  simpa using (List.mem_filter.1 ((List.mem_map_of_injective fun _ _ => Via.edge.inj).1 h)).2

/-! ### What frames owe -/

theorem owes_suffix_update {i : ℕ} {stack : ThreadId → List Frame} {u : ThreadId}
    {frames : List Frame} (h : frames.flatMap (G.owes i) <:+ (stack u).flatMap (G.owes i))
    (v : ThreadId) :
    (Function.update stack u frames v).flatMap (G.owes i) <:+ (stack v).flatMap (G.owes i) := by
  by_cases hv : v = u
  · subst hv
    rwa [Function.update_self]
  · rw [Function.update_of_ne hv]

/-- What the frames of a thread owe for a call only shrinks, from the front. -/
theorem owes_suffix_step (htraced : G.Traced s) {a : Act} (hquiet : a.quiet = true)
    (hstep : GraphStep G s a s') {i : ℕ} (hi : i ≠ s.calls.length) (u : ThreadId) :
    (s'.stack u).flatMap (G.owes i) <:+ (s.stack u).flatMap (G.owes i) := by
  cases hstep with
  | drop => exact owes_suffix_update (by simp [owes_notePush]) u
  | push => exact owes_suffix_update (by simp [owes_notePush, hi.symm]) u
  | send => exact owes_suffix_update (by simp [owes_notePush, hi.symm]) u
  | edgeThrows hs => exact owes_suffix_update (by simp [hs]) u
  | @edgeDirect t id call e edges queuedTo groups rest hs hdirect =>
    obtain ⟨⟨-, rfl⟩, -, -⟩ := htraced.frames t (.pushEdges id call (e :: edges) queuedTo groups)
      (by simp [hs])
    have hkeeps : G.keeps call.thread e = true := by simp [keeps, hdirect]
    refine owes_suffix_update ?_ u
    by_cases hid : id = i
    · simp [hs, hid, plan_direct hdirect, hkeeps]
    · simp [hs, hid]
  | edgeKnown hs hg hdirect hknown =>
    exact owes_suffix_update (owes_edgeKnown htraced hs hg hdirect hknown i ▸ List.suffix_refl _) u
  | edgeNew hs hg hdirect hnew =>
    exact owes_suffix_update (owes_edgeNew htraced hs hg hdirect hnew i ▸ List.suffix_refl _) u
  | edgesDone hs => exact owes_suffix_update (by simp [hs, plan]) u
  | @enqueue t id call g groups rest hs =>
    refine owes_suffix_update ?_ u
    by_cases hid : id = i <;> simp [hs, hid]
  | enqueueDone hs => exact owes_suffix_update (by simp [hs]) u
  | signal hs => exact owes_suffix_update (by simp [hs]) u
  | readyThrows hs => exact owes_suffix_update (by simp [hs]) u
  | readySends hs => exact owes_suffix_update (by simp [hs]) u
  | readyDone hs => exact owes_suffix_update (by simp [hs]) u
  | wake hidle => exact owes_suffix_update (by simp [hidle]) u
  | ret hs => exact owes_suffix_update (by simp [hs]) u
  | throw => cases hquiet
  | unwind => cases hquiet
  | _ => exact List.suffix_refl _

/-- Only the latest push of a thread on a channel still has to serve the edge `e` itself. -/
def GraphState.Latest (s : GraphState) (G : DataGraphImpl) (t : ThreadId) (f c : String)
    (e : GraphEdge) : Prop :=
  ∀ id, IsPush s.calls t f c id → .edge e ∈ (s.stack t).flatMap (G.owes id) →
    ∀ j, IsPush s.calls t f c j → j ≤ id

theorem isPush_append {calls : List Call} {call : Call} {id : ℕ}
    (h : IsPush (calls ++ [call]) t f c id) :
    IsPush calls t f c id ∨ id = calls.length ∧ call.thread = t ∧ call.kind = .pushPacket f c := by
  obtain ⟨call', ⟨hid, hthread⟩, hkind⟩ := h
  rcases getElem?_concat_cases hid with ⟨hold, -⟩ | ⟨hlast, rfl⟩
  · exact .inl ⟨call', ⟨hold, hthread⟩, hkind⟩
  · exact .inr ⟨hlast, hthread, hkind⟩

theorem lt_length_of_isPush {calls : List Call} {id : ℕ} (h : IsPush calls t f c id) :
    id < calls.length := by
  obtain ⟨call, hcall, -⟩ := h
  exact (List.getElem?_eq_some_iff.1 hcall.1).1

/-- A new call is the latest one, provided no earlier push still has to serve the edge. -/
theorem latest_beginCall (h : s.Latest G t f c e) {u : ThreadId} {call : Call}
    {frames : List Frame} (hframes : ∀ id ≠ s.calls.length, frames.flatMap (G.owes id) = [])
    (hnew : call.thread = t → call.kind = .pushPacket f c →
      ∀ id, IsPush s.calls t f c id → .edge e ∉ (s.stack t).flatMap (G.owes id)) :
    (s.beginCall u call frames).Latest G t f c e := by
  intro id hid howes j hj
  rcases isPush_append hid with hid | ⟨rfl, -, -⟩
  · have hne : id ≠ s.calls.length := (lt_length_of_isPush hid).ne
    have hold :
        (Function.update s.stack u (frames ++ notePush call.kind (s.stack u)) t).flatMap
          (G.owes id) =
        (s.stack t).flatMap (G.owes id) :=
      owes_update (by simp [hframes id hne, owes_notePush]) t
    rw [GraphState.beginCall_stack, hold] at howes
    rcases isPush_append hj with hj | ⟨-, hthread, hkind⟩
    · exact h id hid howes j hj
    · exact absurd howes (hnew hthread hkind id hid)
  · have := lt_length_of_isPush hj
    simp at this
    omega

/-- An unnested push starts when no earlier one has to serve the edge. -/
theorem not_owes_of_unnested (htraced : G.Traced s) {packet : Packet}
    (h : unnested G f c e s (.pushPacket t f c packet) = true) {id : ℕ}
    (hid : IsPush s.calls t f c id) : .edge e ∉ (s.stack t).flatMap (G.owes id) := by
  intro hmem
  obtain ⟨frame, hframe, howes⟩ := List.mem_flatMap.1 hmem
  simp only [unnested, bne_self_eq_false, Bool.false_or, List.all_eq_true] at h
  obtain ⟨call, hcall, hkind⟩ := hid
  have hok := htraced.frames t frame hframe
  have hfree := h frame hframe
  have hcall? : frame.call? = some (id, call) := by
    have hsome : frame.callId? = some id := by
      by_contra hne
      simp [owes_of_callId?_ne hne] at howes
    cases frame with
    | pushEdges id' call' =>
      obtain rfl : id' = id := by simpa [Frame.callId?, Frame.call?] using hsome
      rw [Frame.call?, Option.some.inj (hok.1.1.symm.trans hcall.1)]
    | enqueue id' call' =>
      obtain rfl : id' = id := by simpa [Frame.callId?, Frame.call?] using hsome
      rw [Frame.call?, Option.some.inj (hok.1.1.symm.trans hcall.1)]
    | signal id' call' =>
      obtain rfl : id' = id := by simpa [Frame.callId?, Frame.call?] using hsome
      rw [Frame.call?, Option.some.inj (hok.1.1.symm.trans hcall.1)]
    | _ => cases hsome
  simp [hcall?, hkind, howes] at hfree

theorem latest_step (htraced : G.Traced s) {a : Act} (hquiet : a.quiet = true)
    (hun : unnested G f c e s a = true) (hstep : GraphStep G s a s') (h : s.Latest G t f c e) :
    s'.Latest G t f c e := by
  have hother : s'.calls = s.calls → s'.Latest G t f c e := by
    intro hcalls id hid howes j hj
    rw [hcalls] at hid hj
    exact h id hid ((owes_suffix_step htraced hquiet hstep (lt_length_of_isPush hid).ne t).subset
      howes) j hj
  cases hstep with
  | @drop u node channel packet parameters =>
    refine latest_beginCall h (by simp) fun hthread hkind id hid => ?_
    obtain rfl : u = t := hthread
    obtain ⟨rfl, rfl⟩ : node = f ∧ channel = c := by simpa [GraphState.pushCall] using hkind
    exact not_owes_of_unnested htraced hun hid
  | @push u node channel packet parameters edges =>
    refine latest_beginCall h (fun id hid => by simp [hid.symm]) fun hthread hkind id hid => ?_
    obtain rfl : u = t := hthread
    obtain ⟨rfl, rfl⟩ : node = f ∧ channel = c := by simpa [GraphState.pushCall] using hkind
    exact not_owes_of_unnested htraced hun hid
  | send =>
    refine latest_beginCall h (fun id hid => by simp [hid.symm]) fun _ hkind => ?_
    cases hkind
  | _ => exact hother rfl

/-! ### Queues keep pushes in order -/

/-- Every group that serves the edge has the pushes of the channel in order. -/
def GraphState.Sorted (s : GraphState) (G : DataGraphImpl) (t : ThreadId) (f c : String)
    (e : GraphEdge) : Prop :=
  ∀ g, G.serves t (G.mUvLoopThreadId g) e = true → ((s.groups g).pushes t f c).Pairwise (· ≤ ·)

theorem mem_pushes {g : String} {i : ℕ} : i ∈ (s.groups g).pushes t f c ↔
    ∃ info ∈ (s.groups g).backlog, info.isFrom t f c = true ∧ info.callId = i := by
  simp [ThreadGroup.pushes, and_assoc]

theorem isPush_of_mem_pushes (htraced : G.Traced s) {g : String} {i : ℕ}
    (h : i ∈ (s.groups g).pushes t f c) : IsPush s.calls t f c i := by
  obtain ⟨info, hinfo, hfrom, rfl⟩ := mem_pushes.1 h
  exact (isPush_iff_isFrom (entryOk_of_mem_backlog htraced hinfo)).2 hfrom

/-- The frame that enqueues to a group that serves `e` owes the delivery along `e`. -/
theorem mem_owes_enqueue (he : e ∈ (G.channelEdges f c).getD []) {call : Call}
    (hkind : call.kind = .pushPacket f c) {g : String}
    (hserves : G.serves call.thread (G.mUvLoopThreadId g) e = true)
    (id : ℕ) (groups : List String) :
    .edge e ∈ G.owes id (.enqueue id call (g :: groups)) := by
  have hsends : .edge e ∈ G.sends g (call.info id) := by
    rw [sends_pushPacket hkind]
    exact List.mem_map_of_mem (List.mem_filter.2 ⟨by simpa [edgesOf, hkind] using he, hserves⟩)
  simp [hsends]

/-- Repeating the first element keeps the order. -/
theorem pairwise_replicate_append {α : Type*} {p : α → Bool} (key : α → ℕ) {x : α} {xs : List α}
    (h : (((x :: xs).filter p).map key).Pairwise (· ≤ ·)) (n : ℕ) :
    (((List.replicate n x ++ xs).filter p).map key).Pairwise (· ≤ ·) := by
  induction n with
  | zero => exact h.sublist (((List.sublist_cons_self _ _).filter _).map _)
  | succ n ih =>
    rw [List.replicate_succ, List.cons_append]
    by_cases hx : p x
    · rw [List.filter_cons_of_pos hx, List.map_cons] at h ⊢
      refine List.pairwise_cons.2 ⟨fun k hk => ?_, ih⟩
      obtain ⟨y, hy, rfl⟩ := List.mem_map.1 hk
      rcases List.mem_append.1 (List.mem_filter.1 hy).1 with hrep | hrest
      · rw [List.eq_of_mem_replicate hrep]
      · exact (List.pairwise_cons.1 h).1 _
          (List.mem_map_of_mem (List.mem_filter.2 ⟨hrest, (List.mem_filter.1 hy).2⟩))
    · rwa [List.filter_cons_of_neg hx]

/-- What a frame enqueues comes after the pushes that the group has. -/
theorem sorted_enqueue (htraced : G.Traced s) (he : e ∈ (G.channelEdges f c).getD [])
    (hlatest : s.Latest G t f c e) {g : String}
    (hserves : G.serves t (G.mUvLoopThreadId g) e = true) {u : ThreadId} {id : ℕ} {call : Call}
    {groups : List String} {rest : List Frame}
    (hs : s.stack u = .enqueue id call (g :: groups) :: rest)
    (hsorted : ((s.groups g).pushes t f c).Pairwise (· ≤ ·)) :
    (((s.groups g).enqueue (call.info id)).pushes t f c).Pairwise (· ≤ ·) := by
  have hbacklog : ((s.groups g).enqueue (call.info id)).backlog =
      (s.groups g).backlog ++ [call.info id] := by
    rw [ThreadGroup.backlog, ThreadGroup.enqueue_mPacketQueue, ← List.append_assoc]
    rfl
  rw [ThreadGroup.pushes, hbacklog, List.filter_append, List.map_append, List.pairwise_append]
  refine ⟨hsorted, ?_, fun i hi j hj => ?_⟩
  · by_cases hfrom : (call.info id).isFrom t f c <;> simp [hfrom]
  · by_cases hfrom : (call.info id).isFrom t f c
    · -- the frame still owes the delivery along `e`, so its push is the latest one
      obtain rfl : j = id := by simpa [hfrom, callId_info] using hj
      obtain ⟨⟨hcall, hthread⟩, -⟩ := htraced.frames u (.enqueue j call (g :: groups))
        (by simp [hs])
      obtain ⟨rfl, hkind⟩ := (isFrom_info call j).1 hfrom
      subst hthread
      refine hlatest j ⟨call, ⟨hcall, rfl⟩, hkind⟩ ?_ i (isPush_of_mem_pushes htraced hi)
      rw [hs, List.flatMap_cons]
      exact List.mem_append_left _ (mem_owes_enqueue he hkind hserves j groups)
    · simp [hfrom] at hj

/-- A dequeue that overtakes no packet of the same thread keeps the pushes in order. -/
theorem filter_isFrom_takeMany {q infos queue : List PushedPacketInfo} {picks : List ℕ}
    (htake : Bag.takeMany q picks = some (infos, queue))
    (hfifo : Bag.fifoPicks PushedPacketInfo.queuedFromThreadId q picks = true) :
    (infos ++ queue).filter (PushedPacketInfo.isFrom t f c) =
      q.filter (PushedPacketInfo.isFrom t f c) := by
  have hfrom : PushedPacketInfo.isFrom t f c = fun info =>
      PushedPacketInfo.isFrom t f c info && decide (info.queuedFromThreadId = t) := by
    funext info
    simp only [PushedPacketInfo.isFrom]
    grind
  rw [hfrom, ← List.filter_filter, ← List.filter_filter, Bag.takeMany_filter htake hfifo t]

theorem sorted_step (htraced : G.Traced s) (he : e ∈ (G.channelEdges f c).getD []) {a : Act}
    (hfifo : fifoRuns s a = true) (hstep : GraphStep G s a s') (hlatest : s.Latest G t f c e)
    (h : s.Sorted G t f c e) : s'.Sorted G t f c e := by
  intro g hserves
  have hsorted := h g hserves
  have hgroup := group_step hstep g
  generalize s'.groups g = group at hgroup ⊢
  cases hgroup with
  | same => exact hsorted
  | signal => exact hsorted
  | wakeDead => exact hsorted
  | enqueue hs => exact sorted_enqueue htraced he hlatest hserves hs hsorted
  | sends _ hr hsending =>
    simp only [ThreadGroup.pushes, ThreadGroup.backlog, ThreadGroup.sending, ThreadGroup.batch, hr,
      hsending, List.map_cons, List.cons_append] at hsorted
    exact hsorted.sublist (((List.sublist_cons_self _ _).filter _).map _)
  | @next u rest r info batch sending _ hr hsending hbatch hinfo =>
    -- the packet at the head of the batch now stands once for each edge to look at
    have hrepeat : sending.map Prod.fst = List.replicate sending.length info := by
      rw [List.eq_replicate_iff]
      refine ⟨by simp, fun x hx => ?_⟩
      obtain ⟨y, hy, rfl⟩ := List.mem_map.1 hx
      exact hinfo y hy
    simp only [ThreadGroup.pushes, ThreadGroup.backlog, ThreadGroup.sending, ThreadGroup.batch, hr,
      hsending, hbatch, List.map_nil, List.nil_append, List.cons_append] at hsorted
    simp only [ThreadGroup.pushes, ThreadGroup.backlog, ThreadGroup.sending, ThreadGroup.batch,
      hrepeat, List.append_assoc]
    exact pairwise_replicate_append _ hsorted sending.length
  | done _ hr hsending hbatch =>
    simpa [ThreadGroup.pushes, ThreadGroup.backlog, ThreadGroup.sending, ThreadGroup.batch,
      ThreadGroup.setReady, hr, hsending, hbatch] using hsorted
  | dequeueNone _ hr =>
    simpa [ThreadGroup.pushes, ThreadGroup.backlog, ThreadGroup.sending, ThreadGroup.batch,
      ThreadGroup.setReady, hr] using hsorted
  | wake hr =>
    simpa [ThreadGroup.pushes, ThreadGroup.backlog, ThreadGroup.sending, ThreadGroup.batch, hr]
      using hsorted
  | @dequeueSome u picks rest infos queue hs hr htake =>
    simp only [fifoRuns, hs] at hfifo
    have hsame := filter_isFrom_takeMany (t := t) (f := f) (c := c) htake hfifo
    simp only [ThreadGroup.pushes, ThreadGroup.backlog, ThreadGroup.sending, ThreadGroup.batch, hr,
      List.map_nil, List.nil_append] at hsorted
    simpa [ThreadGroup.pushes, ThreadGroup.backlog, ThreadGroup.sending, ThreadGroup.batch, hsame]
      using hsorted

/-! ### Deliveries are in order -/

/-- What nobody owes any more has been delivered. -/
theorem delivered_of_not_owed (htraced : G.Traced s) (haccounted : G.Accounted s)
    (he : e ∈ (G.channelEdges f c).getD []) {i : ℕ} (hi : IsPush s.calls t f c i)
    (hframes : .edge e ∉ (s.stack t).flatMap (G.owes i))
    (hgroups : ∀ g, G.serves t (G.mUvLoopThreadId g) e = true → i ∉ (s.groups g).pushes t f c) :
    .edge e ∈ delivered i s.log := by
  obtain ⟨call, ⟨hcall, rfl⟩, hkind⟩ := id hi
  have hnone : ∀ g, ∀ info ∈ (s.groups g).backlog, info.callId = i →
      .edge e ∉ G.sends g info := by
    rintro g info hinfo rfl hsends
    obtain ⟨call', hcall', heq, -⟩ := entryOk_of_mem_backlog htraced hinfo
    obtain rfl := Option.some.inj (hcall.symm.trans hcall')
    rw [heq] at hsends
    refine hgroups g (serves_of_mem_sends hkind hsends) (mem_pushes.2 ⟨info, hinfo, ?_, rfl⟩)
    exact (isPush_iff_isFrom (entryOk_of_mem_backlog htraced hinfo)).1 hi
  have howed : ∀ g, (G.groupOwes i g (s.groups g)).count (.edge e) = 0 := by
    intro g
    refine List.count_eq_zero.2 fun hmem => ?_
    rcases List.mem_append.1 hmem with hmem | hmem
    · obtain ⟨info, hinfo, hsends⟩ := List.mem_flatMap.1 hmem
      rw [List.mem_filter, decide_eq_true_eq] at hinfo
      refine hnone g info ?_ hinfo.2 hsends
      rw [ThreadGroup.backlog, List.append_assoc]
      exact List.mem_append_right _ hinfo.1
    · obtain ⟨x, hx, hvia⟩ := List.mem_map.1 hmem
      rw [List.mem_filter, Bool.and_eq_true, decide_eq_true_eq] at hx
      have hcandidate : x.2 ∈ G.candidates x.1 := by
        have hsending := hx.1
        unfold ThreadGroup.sending at hsending
        cases hr : (s.groups g).ready with
        | none => simp [hr] at hsending
        | some r => exact ((htraced.groups g).sending r hr x (by simpa [hr] using hsending)).2
      refine hnone g x.1 ?_ hx.2.1 ?_
      · rw [ThreadGroup.backlog, List.append_assoc]
        exact List.mem_append_left _ (List.mem_map_of_mem hx.1)
      · exact List.mem_map.2 ⟨x.2, List.mem_filter.2 ⟨hcandidate, hx.2.2⟩, hvia⟩
  have haccount := haccounted i call hcall (.edge e)
  have hvia : .edge e ∈ G.vias call := by
    simpa [vias, edgesOf, hkind] using he
  simp only [account, List.count_eq_zero.2 hframes, howed, Finset.sum_const_zero,
    add_zero] at haccount
  exact List.count_pos_iff.1 (haccount ▸ List.count_pos_iff.2 hvia)

theorem inOrder_append (h : s.InOrder f c e) {d : Delivery} (hcalls : s'.calls = s.calls)
    (hlog : s'.log = s.log ++ [d])
    (hd : d.via = .edge e → ∀ t i, i < d.callId → IsPush s.calls t f c i →
      IsPush s.calls t f c d.callId → .edge e ∈ delivered i s.log) : s'.InOrder f c e := by
  intro t i j hij hi hj q d' hq hid hvia
  rw [hcalls] at hi hj
  rw [hlog] at hq ⊢
  have hbefore : ∀ {p : ℕ} {x : Delivery}, s.log[p]? = some x → (s.log ++ [d])[p]? = some x :=
    fun hp => getElem?_mono (List.prefix_append _ _) hp
  rcases getElem?_concat_cases hq with ⟨hold, -⟩ | ⟨rfl, rfl⟩
  · obtain ⟨p, x, hp, hx, hrest⟩ := h t i j hij hi hj q d' hold hid hvia
    exact ⟨p, x, hp, hbefore hx, hrest⟩
  · -- the new delivery comes after everything delivered before
    subst hid
    obtain ⟨x, hx, hxvia⟩ := List.mem_map.1 (hd hvia t i hij hi hj)
    rw [List.mem_filter, decide_eq_true_eq] at hx
    obtain ⟨p, hp, hpx⟩ := List.mem_iff_getElem.1 hx.1
    refine ⟨p, x, hp, hbefore ?_, hx.2, hxvia⟩
    rw [List.getElem?_eq_getElem hp, hpx]

theorem inOrder_calls (htraced : G.Traced s) (h : s.InOrder f c e) {call : Call}
    (hcalls : s'.calls = s.calls ++ [call]) (hlog : s'.log = s.log) : s'.InOrder f c e := by
  intro t i j hij hi hj q d hq hid hvia
  rw [hlog] at hq ⊢
  rw [hcalls] at hi hj
  obtain ⟨c', hc', -⟩ := htraced.log d (List.mem_of_getElem? hq)
  have hlt : j < s.calls.length := hid ▸ (List.getElem?_eq_some_iff.1 hc').1
  have hold : ∀ {k : ℕ}, k ≤ j → IsPush (s.calls ++ [call]) t f c k → IsPush s.calls t f c k := by
    intro k hk hpush
    rcases isPush_append hpush with hpush | ⟨rfl, -⟩
    · exact hpush
    · omega
  exact h t i j hij (hold hij.le hi) (hold le_rfl hj) q d hq hid hvia

/-- The pushes of a thread on a channel are all queued to the same group for the edge `e`. -/
theorem group_unique {g g' : String} {i j : ℕ} (htraced : G.Traced s)
    (hi : i ∈ (s.groups g).pushes t f c) (hj : j ∈ (s.groups g').pushes t f c)
    (hg : G.serves t (G.mUvLoopThreadId g) e = true)
    (hg' : G.serves t (G.mUvLoopThreadId g') e = true) : g = g' := by
  have hplan : ∀ {k : ℕ} {g : String}, k ∈ (s.groups g).pushes t f c →
      g ∈ G.plan t ((G.channelEdges f c).getD []) [] := by
    intro k g hk
    obtain ⟨info, hinfo, hfrom, -⟩ := mem_pushes.1 hk
    obtain ⟨call, hcall, heq, hqueued⟩ := entryOk_of_mem_backlog htraced hinfo
    rw [heq, isFrom_info] at hfrom
    obtain ⟨rfl, hkind⟩ := hfrom
    simpa [queuedGroups, edgesOf, hkind] using hqueued
  have hthread : G.mUvLoopThreadId g = G.mUvLoopThreadId g' := by
    simp only [serves, Bool.and_eq_true, beq_iff_eq] at hg hg'
    exact Option.some.inj (hg.1.symm.trans hg'.1)
  exact List.inj_on_of_nodup_map (plan_threads t _ []).1 (hplan hi) (hplan hj) hthread

theorem inOrder_edgeDirect (htraced : G.Traced s) (haccounted : G.Accounted s)
    (hlatest : ∀ t, s.Latest G t f c e) (he : e ∈ (G.channelEdges f c).getD [])
    (h : s.InOrder f c e) {u : ThreadId} {id : ℕ} {call : Call} {e' : GraphEdge}
    {edges : List GraphEdge} {queuedTo : List ThreadId} {groups : List String} {rest : List Frame}
    (hs : s.stack u = .pushEdges id call (e' :: edges) queuedTo groups :: rest)
    (hdirect : G.pushesDirectly u e' = true) :
    (G.sendPacketToNode s u id call.packet (.edge e')
      (.pushEdges id call edges queuedTo groups :: rest)).InOrder f c e := by
  refine inOrder_append h (sendPacketToNode_calls ..) (sendPacketToNode_log ..) ?_
  intro hvia t i hij hi hj
  obtain rfl : e' = e := Via.edge.inj hvia
  obtain ⟨⟨hid, rfl⟩, -, -⟩ := htraced.frames u (.pushEdges id call (e' :: edges) queuedTo groups)
    (by simp [hs])
  obtain rfl : t = call.thread := by
    obtain ⟨call', ⟨hcall', rfl⟩, -⟩ := hj
    rw [Option.some.inj (hcall'.symm.trans hid)]
  refine delivered_of_not_owed htraced haccounted he hi ?_ ?_
  · intro howes
    exact absurd (hlatest _ i hi howes id hj) (not_le.2 hij)
  · intro g hserves
    simp only [serves, pushesDirectly, Bool.and_eq_true, beq_iff_eq] at hserves hdirect
    grind

theorem inOrder_readySends (htraced : G.Traced s) (haccounted : G.Accounted s)
    (hlatest : ∀ t, s.Latest G t f c e) (hsorted : ∀ t, s.Sorted G t f c e)
    (he : e ∈ (G.channelEdges f c).getD []) (h : s.InOrder f c e) {u : ThreadId} {g : String}
    {rest : List Frame} {r : Ready} {info : PushedPacketInfo} {x : String × Via}
    {sending : List (PushedPacketInfo × String × Via)} (hs : s.stack u = .packetReady g :: rest)
    (hr : (s.groups g).ready = some r) (hsending : r.sending = (info, x) :: sending)
    (hsel : G.selects u info x = true) :
    (G.sendPacketToNode (s.onGroup g fun group => group.setReady (some { r with sending }))
      u info.callId info.packet x.2 (.packetReady g :: rest)).InOrder f c e := by
  refine inOrder_append h (sendPacketToNode_calls ..) (sendPacketToNode_log ..) ?_
  intro hvia t i hij hi hj
  obtain rfl : u = G.mUvLoopThreadId g := htraced.frames u (.packetReady g) (by simp [hs])
  obtain ⟨hentry, hcandidate⟩ := (htraced.groups g).sending r hr (info, x) (by simp [hsending])
  dsimp only at hentry hcandidate hij hj
  have hfrom := (isPush_iff_isFrom hentry).1 hj
  have hserves : G.serves t (G.mUvLoopThreadId g) e = true := by
    obtain ⟨call, -, heq, -⟩ := hentry
    have hsends : .edge e ∈ G.sends g info :=
      List.mem_map.2 ⟨x, List.mem_filter.2 ⟨hcandidate, hsel⟩, hvia⟩
    rw [heq] at hfrom hsends
    obtain ⟨rfl, hkind⟩ := (isFrom_info call info.callId).1 hfrom
    exact serves_of_mem_sends hkind hsends
  have hpushes : ∃ later, (s.groups g).pushes t f c = info.callId :: later := by
    simp [ThreadGroup.pushes, ThreadGroup.backlog, ThreadGroup.sending, ThreadGroup.batch, hr,
      hsending, hfrom]
  obtain ⟨later, hlater⟩ := hpushes
  refine delivered_of_not_owed htraced haccounted he hi ?_ ?_
  · intro howes
    exact absurd (hlatest t i hi howes info.callId hj) (not_le.2 hij)
  · intro g' hserves' hmem
    have hhead : info.callId ∈ (s.groups g).pushes t f c := by simp [hlater]
    obtain rfl := group_unique htraced hhead hmem hserves hserves'
    have hle := hsorted t g hserves
    rw [hlater] at hle hmem
    rcases List.mem_cons.1 hmem with rfl | hmem
    · exact lt_irrefl _ hij
    · exact absurd ((List.pairwise_cons.1 hle).1 i hmem) (not_le.2 hij)

/-- What holds in every state of a run of unnested pushes. -/
structure OrderInv (G : DataGraphImpl) (f c : String) (e : GraphEdge) (s : GraphState) : Prop where
  traced : G.Traced s
  accounted : G.Accounted s
  latest : ∀ t, s.Latest G t f c e
  sorted : ∀ t, s.Sorted G t f c e
  inOrder : s.InOrder f c e

theorem OrderInv.step (he : e ∈ (G.channelEdges f c).getD []) {a : Act}
    (hfifo : fifoRuns s a = true) (hun : unnested G f c e s a = true) (hstep : GraphStep G s a s')
    (h : OrderInv G f c e s) : OrderInv G f c e s' := by
  have hquiet : a.quiet = true := by cases a <;> first | rfl | exact hfifo
  refine ⟨h.traced.step hstep, accounted_step h.traced hquiet hstep h.accounted,
    fun t => latest_step h.traced hquiet hun hstep (h.latest t),
    fun t => sorted_step h.traced he hfifo hstep (h.latest t) (h.sorted t), ?_⟩
  cases hstep with
  | drop => exact inOrder_calls h.traced h.inOrder rfl rfl
  | push => exact inOrder_calls h.traced h.inOrder rfl rfl
  | send => exact inOrder_calls h.traced h.inOrder rfl rfl
  | edgeDirect hs hdirect =>
    exact inOrder_edgeDirect h.traced h.accounted h.latest he h.inOrder hs hdirect
  | readySends hs hr hsending hsel =>
    exact inOrder_readySends h.traced h.accounted h.latest h.sorted he h.inOrder hs hr hsending hsel
  | _ => exact h.inOrder

theorem orderInv_of_idle (h : s.Idle) : OrderInv G f c e s where
  traced := traced_of_idle h
  accounted i call hcall := by simp [h.calls] at hcall
  latest t id hid := by simp [h.stack t]
  sorted t g _ := by
    simp [ThreadGroup.pushes, ThreadGroup.backlog, ThreadGroup.sending, ThreadGroup.batch,
      h.groups g]
  inOrder t i j _ _ _ q d hq := by simp [h.log] at hq

/-- **Per-edge order of unnested pushes.**  In every run in which nothing throws, queues are
first-in-first-out for each producer, and no push on the channel starts on a thread while an earlier
one of that thread still has to serve the edge, the target of the edge starts to handle the packets
of each thread in the order they were pushed. -/
theorem inOrder_of_unnested {s₀ : GraphState} (h₀ : s₀.Idle)
    (he : e ∈ (G.channelEdges f c).getD [])
    (h : G.machine.Reachable (fun u a => (fifoRuns u a && unnested G f c e u a) = true) s₀ s) :
    s.InOrder f c e := by
  have hinv : OrderInv G f c e s := by
    refine h.invariant (orderInv_of_idle h₀) fun u a u' hu hok hs => ?_
    rw [Bool.and_eq_true] at hok
    exact hu.step he hok.1 hok.2 (step_cases hs)
  exact hinv.inOrder

/-- A thread outside the graph pushes two packets through `middle`. -/
def twiceSchedule : List Act :=
  [.pushPacket 7 "middle" "out" {}, .run 7, .run 7, .run 7, .run 7, .run 7,
    .pushPacket 7 "middle" "out" {}, .run 7, .run 7, .run 7, .run 7, .run 7,
    .wake "worker", .dequeue 1 [0, 0], .run 1, .run 1, .ret 1, .run 1, .run 1]

/-- The state the schedule leads to. -/
def twiceState : GraphState :=
  (relayGraph.machine.exec
    (fun u a => fifoRuns u a && unnested relayGraph "middle" "out"
      ⟨"out", "sink", .pushDirectlyToTarget⟩ u a)
    startState twiceSchedule).getD startState

theorem inOrder_of_unnested_relay :
    twiceState.log.map (fun d => (d.callId, d.via.node)) = [(0, "sink"), (1, "sink")] ∧
    twiceState.InOrder "middle" "out" ⟨"out", "sink", .pushDirectlyToTarget⟩ :=
  ⟨by decide, inOrder_of_unnested startState_idle (by decide) (Machine.reachable_exec (by decide))⟩

end Maplang
