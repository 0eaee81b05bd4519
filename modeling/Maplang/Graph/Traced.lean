import Maplang.Graph.Steps

/-!
# Where packets in flight come from

`Traced G s` says that everything in flight in `s` can be traced back to a call: the packet of a
call is what its caller passed with the parameters merged, a frame of `pushPacket` is at a place its
call can be at, a packet in the queue of a group was put there by a call that queues to this group,
and a delivery is one of those its call has to make, on the thread of the target.  It holds in every
reachable state of every run, exceptions included.

## Main definitions

* `DataGraphImpl.vias` : what a call has to deliver to.
* `DataGraphImpl.queuedGroups` : the groups a call enqueues to.
* `Call.Merged`, `FrameOk`, `EntryOk`, `DeliveryOk`, `Traced` : the invariant.

## Main results

* `Traced.step`, `traced_of_reachable`.
-/

namespace Maplang

namespace DataGraphImpl

variable (G : DataGraphImpl)

/-- The edges a call pushes along. -/
def edgesOf (call : Call) : List GraphEdge :=
  match call.kind with
  | .pushPacket fromNode fromChannel => (G.channelEdges fromNode fromChannel).getD []
  | .sendPacket _ => []

/-- What a call has to deliver its packet to. -/
def vias (call : Call) : List Via :=
  match call.kind with
  | .pushPacket _ _ => (G.edgesOf call).map .edge
  | .sendPacket toNode => [.manual toNode]

/-- The groups the first loop of `pushPacket` on thread `t` still adds for these edges. -/
def plan (t : ThreadId) : List GraphEdge → List ThreadId → List String
  | [], _ => []
  | e :: edges, queuedTo =>
    match G.groupOf e.next with
    | none => plan t edges queuedTo
    | some g =>
      if G.pushesDirectly t e || G.mUvLoopThreadId g ∈ queuedTo then plan t edges queuedTo
      else g :: plan t edges (G.mUvLoopThreadId g :: queuedTo)

/-- The groups a call enqueues its packet to. -/
def queuedGroups (call : Call) : List String :=
  match call.kind with
  | .pushPacket _ _ => G.plan call.thread (G.edgesOf call) []
  | .sendPacket toNode => (G.groupOf toNode).toList

variable {G}

theorem plan_direct {t : ThreadId} {e : GraphEdge} (h : G.pushesDirectly t e = true)
    (edges : List GraphEdge) (queuedTo : List ThreadId) :
    G.plan t (e :: edges) queuedTo = G.plan t edges queuedTo := by
  rw [plan]
  split <;> simp [h]

theorem plan_known {t : ThreadId} {e : GraphEdge} {g : String} (hg : G.groupOf e.next = some g)
    {queuedTo : List ThreadId} (h : G.mUvLoopThreadId g ∈ queuedTo) (edges : List GraphEdge) :
    G.plan t (e :: edges) queuedTo = G.plan t edges queuedTo := by
  simp [plan, hg, h]

theorem plan_new {t : ThreadId} {e : GraphEdge} {g : String} (hg : G.groupOf e.next = some g)
    (hdirect : G.pushesDirectly t e = false) {queuedTo : List ThreadId}
    (h : G.mUvLoopThreadId g ∉ queuedTo) (edges : List GraphEdge) :
    G.plan t (e :: edges) queuedTo = g :: G.plan t edges (G.mUvLoopThreadId g :: queuedTo) := by
  simp [plan, hg, hdirect, h]

theorem threadOf_of_pushesDirectly {t : ThreadId} {e : GraphEdge}
    (h : G.pushesDirectly t e = true) : G.threadOf e.next = some t := by
  simp only [pushesDirectly, Bool.and_eq_true, beq_iff_eq] at h
  exact h.1

end DataGraphImpl

/-- The packet of the call is the one the caller passed, with its parameters merged. -/
def Call.Merged (call : Call) : Prop :=
  match call.kind with
  | .pushPacket _ _ =>
    accumulate call.received call.pushed.parameters = .ok call.packet.parameters ∧
      call.packet.buffers = call.pushed.buffers
  | .sendPacket _ => call.packet = call.pushed

/-- Call number `id` is `call`, and it was made on thread `t`. -/
def CallOn (calls : List Call) (id : ℕ) (call : Call) (t : ThreadId) : Prop :=
  calls[id]? = some call ∧ call.thread = t

theorem CallOn.mono {calls calls' : List Call} (h : calls <+: calls') {id : ℕ} {call : Call}
    {t : ThreadId} (hc : CallOn calls id call t) : CallOn calls' id call t :=
  ⟨getElem?_mono h hc.1, hc.2⟩

namespace DataGraphImpl

variable (G : DataGraphImpl)

/-- A frame that can be on the stack of thread `t`. -/
def FrameOk (calls : List Call) (log : List Delivery) (t : ThreadId) : Frame → Prop
  | .handlePacket delivery node _ =>
    ∃ d, log[delivery]? = some d ∧ d.via.node = node ∧ d.thread = t
  | .pushEdges id call edges queuedTo groups =>
    CallOn calls id call t ∧ edges <:+ G.edgesOf call ∧
      groups ++ G.plan t edges queuedTo = G.queuedGroups call
  | .enqueue id call groups => CallOn calls id call t ∧ groups <:+ G.queuedGroups call
  | .signal id call g groups => CallOn calls id call t ∧ g :: groups <:+ G.queuedGroups call
  | .packetReady g => t = G.mUvLoopThreadId g
  | .thrown => True
  | .crashed => True

/-- A packet that can be in the queue of group `g`. -/
def EntryOk (calls : List Call) (g : String) (info : PushedPacketInfo) : Prop :=
  ∃ call, calls[info.callId]? = some call ∧ info = call.info info.callId ∧
    g ∈ G.queuedGroups call

/-- A delivery that some call has to make, on the thread of the target. -/
def DeliveryOk (calls : List Call) (d : Delivery) : Prop :=
  ∃ call, calls[d.callId]? = some call ∧ d.packet = call.packet ∧ d.via ∈ G.vias call ∧
    G.threadOf d.via.node = some d.thread

/-- Everything in a group can be there. -/
structure GroupOk (calls : List Call) (g : String) (group : ThreadGroup) : Prop where
  queue : ∀ info ∈ group.mPacketQueue, G.EntryOk calls g info
  batch : ∀ r, group.ready = some r → ∀ info ∈ r.batch, G.EntryOk calls g info
  sending : ∀ r, group.ready = some r → ∀ x ∈ r.sending,
    G.EntryOk calls g x.1 ∧ x.2 ∈ G.candidates x.1

/-- Everything in flight can be traced back to a call. -/
structure Traced (s : GraphState) : Prop where
  calls : ∀ call ∈ s.calls, call.Merged
  frames : ∀ t, ∀ f ∈ s.stack t, G.FrameOk s.calls s.log t f
  groups : ∀ g, G.GroupOk s.calls g (s.groups g)
  log : ∀ d ∈ s.log, G.DeliveryOk s.calls d

variable {G} {s s' : GraphState}

/-! ### Calls and deliveries are only added -/

theorem FrameOk.mono {calls calls' : List Call} {log log' : List Delivery}
    (hcalls : calls <+: calls') (hlog : log <+: log') {t : ThreadId} {f : Frame}
    (h : G.FrameOk calls log t f) : G.FrameOk calls' log' t f := by
  cases f with
  | handlePacket delivery node _ =>
    obtain ⟨d, hd, hrest⟩ := h
    exact ⟨d, getElem?_mono hlog hd, hrest⟩
  | pushEdges => exact ⟨h.1.mono hcalls, h.2⟩
  | enqueue => exact ⟨h.1.mono hcalls, h.2⟩
  | signal => exact ⟨h.1.mono hcalls, h.2⟩
  | packetReady => exact h
  | thrown => trivial
  | crashed => trivial

theorem EntryOk.mono {calls calls' : List Call} (h : calls <+: calls') {g : String}
    {info : PushedPacketInfo} (hi : G.EntryOk calls g info) : G.EntryOk calls' g info := by
  obtain ⟨call, hcall, hrest⟩ := hi
  exact ⟨call, getElem?_mono h hcall, hrest⟩

theorem DeliveryOk.mono {calls calls' : List Call} (h : calls <+: calls') {d : Delivery}
    (hd : G.DeliveryOk calls d) : G.DeliveryOk calls' d := by
  obtain ⟨call, hcall, hrest⟩ := hd
  exact ⟨call, getElem?_mono h hcall, hrest⟩

theorem GroupOk.mono {calls calls' : List Call} (h : calls <+: calls') {g : String}
    {group : ThreadGroup} (hg : G.GroupOk calls g group) : G.GroupOk calls' g group where
  queue info hi := EntryOk.mono h (hg.queue info hi)
  batch r hr info hi := EntryOk.mono h (hg.batch r hr info hi)
  sending r hr x hx := ⟨EntryOk.mono h (hg.sending r hr x hx).1, (hg.sending r hr x hx).2⟩

/-! ### The state changes steps are made of -/

theorem frameOk_of_mem_update {stack : ThreadId → List Frame} {t : ThreadId} {frames : List Frame}
    {calls : List Call} {log : List Delivery} (h : ∀ u, ∀ f ∈ stack u, G.FrameOk calls log u f)
    (hf : ∀ f ∈ frames, G.FrameOk calls log t f) :
    ∀ u, ∀ f ∈ Function.update stack t frames u, G.FrameOk calls log u f := by
  intro u f hmem
  by_cases hu : u = t
  · subst hu
    rw [Function.update_self] at hmem
    exact hf f hmem
  · rw [Function.update_of_ne hu] at hmem
    exact h u f hmem

theorem Traced.setStack (h : G.Traced s) {t : ThreadId} {frames : List Frame}
    (hf : ∀ f ∈ frames, G.FrameOk s.calls s.log t f) : G.Traced (s.setStack t frames) where
  calls := h.calls
  frames := frameOk_of_mem_update h.frames hf
  groups := h.groups
  log := h.log

theorem Traced.onGroup (h : G.Traced s) {g : String} {f : ThreadGroup → ThreadGroup}
    (hg : G.GroupOk s.calls g (f (s.groups g))) : G.Traced (s.onGroup g f) where
  calls := h.calls
  frames := h.frames
  groups g' := by
    by_cases hg' : g' = g
    · subst hg'
      simpa [GraphState.onGroup] using hg
    · simpa [GraphState.onGroup, hg'] using h.groups g'
  log := h.log

theorem Traced.beginCall (h : G.Traced s) {t : ThreadId} {call : Call} {frames : List Frame}
    (hcall : call.Merged) (hf : ∀ f ∈ frames, G.FrameOk (s.calls ++ [call]) s.log t f) :
    G.Traced (s.beginCall t call frames) where
  calls c hc := by
    rcases List.mem_append.1 hc with hold | hnew
    · exact h.calls c hold
    · rw [List.mem_singleton.1 hnew]
      exact hcall
  frames := by
    refine frameOk_of_mem_update
      (fun u f hu => FrameOk.mono (List.prefix_append _ _) (List.prefix_refl _)
        (h.frames u f hu)) ?_
    intro f hmem
    rcases List.mem_append.1 hmem with hnew | hold
    · exact hf f hnew
    · have hok := fun f hf => FrameOk.mono (List.prefix_append s.calls [call])
        (List.prefix_refl s.log) (h.frames t f hf)
      unfold notePush at hold
      split at hold
      · rename_i delivery node pushes rest _ hs
        rcases List.mem_cons.1 hold with rfl | hrest
        · exact hok (.handlePacket delivery node pushes) (by simp [hs])
        · exact hok f (by simp [hs, hrest])
      · exact hok f hold
  groups g := GroupOk.mono (List.prefix_append _ _) (h.groups g)
  log d hd := DeliveryOk.mono (List.prefix_append _ _) (h.log d hd)

theorem Traced.sendPacketToNode (h : G.Traced s) {t : ThreadId} {callId : ℕ} {packet : Packet}
    {via : Via} {frames : List Frame} (hd : G.DeliveryOk s.calls ⟨callId, via, packet, t⟩)
    (hf : ∀ f ∈ frames, G.FrameOk s.calls s.log t f) :
    G.Traced (G.sendPacketToNode s t callId packet via frames) where
  calls := h.calls
  frames := by
    have hlog := List.prefix_append s.log [⟨callId, via, packet, t⟩]
    refine frameOk_of_mem_update
      (fun u f hu => FrameOk.mono (List.prefix_refl _) hlog (h.frames u f hu)) ?_
    intro f hmem
    rcases List.mem_cons.1 hmem with rfl | hrest
    · unfold receive
      split
      · trivial
      · split
        · exact ⟨⟨callId, via, packet, t⟩, List.getElem?_concat_length, rfl, rfl⟩
        · trivial
    · exact FrameOk.mono (List.prefix_refl _) hlog (hf f hrest)
  groups := h.groups
  log d hmem := by
    rcases List.mem_append.1 hmem with hold | hnew
    · exact h.log d hold
    · rw [List.mem_singleton.1 hnew]
      exact hd

/-! ### Steps -/

theorem frameOk_tail {calls : List Call} {log : List Delivery} {t : ThreadId} {f : Frame}
    {rest frames : List Frame} (h : ∀ f ∈ frames, G.FrameOk calls log t f)
    (hs : frames = f :: rest) : ∀ f ∈ rest, G.FrameOk calls log t f :=
  fun _ hf => h _ (hs ▸ List.mem_cons_of_mem _ hf)

/-- The top frame goes on. -/
theorem frameOk_top {calls : List Call} {log : List Delivery} {t : ThreadId} {f f' : Frame}
    {rest frames : List Frame} (h : ∀ f ∈ frames, G.FrameOk calls log t f) (hs : frames = f :: rest)
    (hf : G.FrameOk calls log t f') : ∀ f ∈ f' :: rest, G.FrameOk calls log t f :=
  List.forall_mem_cons.2 ⟨hf, frameOk_tail h hs⟩

/-- An exception is on its way. -/
theorem Traced.thrown (h : G.Traced s) {t : ThreadId} {frames : List Frame}
    (hs : s.stack t = frames) : G.Traced (s.setStack t (.thrown :: frames)) :=
  h.setStack (List.forall_mem_cons.2 ⟨trivial, hs ▸ h.frames t⟩)

/-- An edge that `packetReady` selects is an edge of the channel the packet was pushed on. -/
theorem mem_channelEdges_of_selects {t : ThreadId} {info : PushedPacketInfo} {node channel : String}
    {e : GraphEdge} (hnode : info.fromNode = some node)
    (hmem : (channel, Via.edge e) ∈ G.candidates info)
    (hsel : G.selects t info (channel, .edge e) = true) :
    e ∈ (G.channelEdges node info.channel).getD [] := by
  simp only [candidates, hnode, List.mem_map, Prod.mk.injEq, Via.edge.injEq] at hmem
  obtain ⟨x, hx, rfl, rfl⟩ := hmem
  simp only [selects, Bool.and_eq_true, beq_iff_eq] at hsel
  have := (filter_allEdges (G := G) node info.channel fun _ => true)
  rw [List.filter_true] at this
  rw [← this]
  exact List.mem_map.2 ⟨x, List.mem_filter.2 ⟨hx, by simpa using hsel.2⟩, rfl⟩

/-- What `packetReady` selects is a delivery to make. -/
theorem deliveryOk_of_selects {calls : List Call} {g : String} {info : PushedPacketInfo}
    {x : String × Via} (hinfo : G.EntryOk calls g info) (hmem : x ∈ G.candidates info)
    (hsel : G.selects (G.mUvLoopThreadId g) info x = true) :
    G.DeliveryOk calls ⟨info.callId, x.2, info.packet, G.mUvLoopThreadId g⟩ := by
  obtain ⟨call, hcall, heq, hg⟩ := hinfo
  refine ⟨call, hcall, ?_⟩
  unfold Call.info at heq
  obtain ⟨channel, e | toNode⟩ := x
  · cases hkind : call.kind with
    | pushPacket node fromChannel =>
      rw [hkind] at heq
      have hnode : info.fromNode = some node := by rw [heq]
      have hedge := mem_channelEdges_of_selects hnode hmem hsel
      simp only [selects, Bool.and_eq_true, beq_iff_eq] at hsel
      refine ⟨by rw [heq], ?_, hsel.1.1⟩
      rw [heq] at hedge
      simpa [vias, edgesOf, hkind] using hedge
    | sendPacket toNode =>
      rw [hkind] at heq
      rw [heq] at hmem
      simp [candidates] at hmem
  · cases hkind : call.kind with
    | pushPacket node fromChannel =>
      rw [hkind] at heq
      rw [heq] at hmem
      simp [candidates] at hmem
    | sendPacket toNode' =>
      rw [hkind] at heq
      have hto : toNode = toNode' := by
        rw [heq] at hmem
        simp only [candidates, Option.map_some, Option.toList_some, List.mem_singleton,
          Prod.mk.injEq, Via.manual.injEq] at hmem
        exact hmem.2
      subst hto
      have hgroup : G.groupOf toNode = some g := by simpa [queuedGroups, hkind] using hg
      exact ⟨by rw [heq], by simp [vias, hkind], by simp [Via.node, threadOf, hgroup]⟩

theorem groupOk_take {calls : List Call} {g : String} {group : ThreadGroup} {picks : List ℕ}
    {infos queue : List PushedPacketInfo} (h : G.GroupOk calls g group)
    (htake : Bag.takeMany group.mPacketQueue picks = some (infos, queue)) :
    G.GroupOk calls g { group with mPacketQueue := queue, ready := some { batch := infos } } where
  queue info hi := h.queue info ((Bag.takeMany_perm htake).mem_iff.1 (List.mem_append_right _ hi))
  batch r hr info hi := by
    cases hr
    exact h.queue info ((Bag.takeMany_perm htake).mem_iff.1 (List.mem_append_left _ hi))
  sending r hr x hx := by
    cases hr
    cases hx

/-- `packetReady` is at the next edge, ... -/
theorem groupOk_sending {calls : List Call} {g : String} {group : ThreadGroup} {r : Ready}
    {x : PushedPacketInfo × String × Via} {sending : List (PushedPacketInfo × String × Via)}
    (h : G.GroupOk calls g group) (hr : group.ready = some r)
    (hsending : r.sending = x :: sending) :
    G.GroupOk calls g (group.setReady (some { r with sending })) where
  queue := h.queue
  batch := by
    rintro _ ⟨⟩
    exact h.batch r hr
  sending := by
    rintro _ ⟨⟩ y hy
    exact h.sending r hr y (hsending ▸ List.mem_cons_of_mem _ hy)

/-- ... at the next packet, ... -/
theorem groupOk_next {calls : List Call} {g : String} {group : ThreadGroup} {r : Ready}
    {info : PushedPacketInfo} {batch processed : List PushedPacketInfo}
    (h : G.GroupOk calls g group) (hr : group.ready = some r) (hbatch : r.batch = info :: batch) :
    G.GroupOk calls g { group with
      ready := some { r with sending := (G.candidates info).map fun x => (info, x), batch }
      processed } where
  queue := h.queue
  batch := by
    rintro _ ⟨⟩ info' hi
    exact h.batch r hr info' (hbatch ▸ List.mem_cons_of_mem _ hi)
  sending := by
    rintro _ ⟨⟩ y hy
    obtain ⟨x, hx, rfl⟩ := List.mem_map.1 hy
    exact ⟨h.batch r hr info (hbatch ▸ List.mem_cons_self), hx⟩

/-- ... or has none to look at. -/
theorem groupOk_none {calls : List Call} {g : String} {group : ThreadGroup}
    (hqueue : ∀ info ∈ group.mPacketQueue, G.EntryOk calls g info)
    (hready : ∀ r, group.ready = some r → r.batch = [] ∧ r.sending = []) :
    G.GroupOk calls g group where
  queue := hqueue
  batch r hr info hi := by
    rw [(hready r hr).1] at hi
    cases hi
  sending r hr x hx := by
    rw [(hready r hr).2] at hx
    cases hx

/-- The packet of a frame goes into the queue of a group it was pushed to. -/
theorem groupOk_enqueue {calls : List Call} {t : ThreadId} {id : ℕ} {call : Call} {g : String}
    {group : ThreadGroup} (h : G.GroupOk calls g group) (hcall : CallOn calls id call t)
    (hg : g ∈ G.queuedGroups call) : G.GroupOk calls g (group.enqueue (call.info id)) where
  queue info hi := by
    rcases List.mem_append.1 hi with hold | hnew
    · exact h.queue info hold
    · rw [List.mem_singleton.1 hnew]
      refine ⟨call, ?_, ?_, hg⟩ <;> cases hkind : call.kind <;> simp [Call.info, hkind, hcall.1]
  batch := h.batch
  sending := h.sending

/-- **A step keeps everything traceable.** -/
theorem Traced.step {a : Act} (h : G.Traced s) (hstep : GraphStep G s a s') : G.Traced s' := by
  cases hstep with
  | drop hcan hacc => exact h.beginCall ⟨hacc, rfl⟩ (by simp)
  | push hcan hacc hedges =>
    refine h.beginCall ⟨hacc, rfl⟩ (List.forall_mem_singleton.2 ⟨⟨by simp, rfl⟩, ?_, ?_⟩)
    · simp [edgesOf, GraphState.pushCall, hedges]
    · simp [queuedGroups, edgesOf, GraphState.pushCall, hedges]
  | send hcan hg =>
    refine h.beginCall rfl (List.forall_mem_singleton.2 ⟨⟨by simp, rfl⟩, ?_⟩)
    simp [queuedGroups, GraphState.sendCall, hg]
  | edgeThrows hs => exact h.thrown hs
  | @edgeDirect t id call e edges queuedTo groups rest hs hdirect =>
    obtain ⟨hcall, hsuffix, hplan⟩ := h.frames t (.pushEdges id call (e :: edges) queuedTo groups)
      (by simp [hs])
    refine h.sendPacketToNode ⟨call, hcall.1, rfl, ?_, threadOf_of_pushesDirectly hdirect⟩
      (frameOk_top (h.frames t) hs ⟨hcall, (List.suffix_cons _ _).trans hsuffix, ?_⟩)
    · have he : e ∈ G.edgesOf call := hsuffix.subset List.mem_cons_self
      unfold vias
      cases hkind : call.kind with
      | pushPacket => exact List.mem_map_of_mem he
      | sendPacket => simp [edgesOf, hkind] at he
    · rwa [plan_direct hdirect] at hplan
  | @edgeKnown t id call e edges queuedTo groups rest g hs hg hdirect hknown =>
    obtain ⟨hcall, hsuffix, hplan⟩ := h.frames t (.pushEdges id call (e :: edges) queuedTo groups)
      (by simp [hs])
    rw [plan_known hg hknown] at hplan
    exact h.setStack
      (frameOk_top (h.frames t) hs ⟨hcall, (List.suffix_cons _ _).trans hsuffix, hplan⟩)
  | @edgeNew t id call e edges queuedTo groups rest g hs hg hdirect hnew =>
    obtain ⟨hcall, hsuffix, hplan⟩ := h.frames t (.pushEdges id call (e :: edges) queuedTo groups)
      (by simp [hs])
    rw [plan_new hg hdirect hnew, List.append_cons] at hplan
    exact h.setStack
      (frameOk_top (h.frames t) hs ⟨hcall, (List.suffix_cons _ _).trans hsuffix, hplan⟩)
  | @edgesDone t id call queuedTo groups rest hs =>
    obtain ⟨hcall, -, hplan⟩ := h.frames t (.pushEdges id call [] queuedTo groups) (by simp [hs])
    rw [plan, List.append_nil] at hplan
    exact h.setStack (frameOk_top (h.frames t) hs ⟨hcall, hplan ▸ List.suffix_refl _⟩)
  | @enqueue t id call g groups rest hs =>
    obtain ⟨hcall, hsuffix⟩ := h.frames t (.enqueue id call (g :: groups)) (by simp [hs])
    have hg : g ∈ G.queuedGroups call := hsuffix.subset List.mem_cons_self
    exact (h.onGroup (groupOk_enqueue (h.groups g) hcall hg)).setStack
      (frameOk_top (h.frames t) hs ⟨hcall, hsuffix⟩)
  | enqueueDone hs => exact h.setStack (frameOk_tail (h.frames _) hs)
  | @signal t id call g groups rest hs =>
    obtain ⟨hcall, hsuffix⟩ := h.frames t (.signal id call g groups) (by simp [hs])
    have hgroup := h.groups g
    exact (h.onGroup ⟨hgroup.queue, hgroup.batch, hgroup.sending⟩).setStack
      (frameOk_top (h.frames t) hs ⟨hcall, (List.suffix_cons _ _).trans hsuffix⟩)
  | readyThrows hs => exact h.thrown hs
  | @readySends t g rest r info x sending hs hr hsending hsel =>
    obtain rfl : t = G.mUvLoopThreadId g := h.frames t (.packetReady g) (by simp [hs])
    obtain ⟨hinfo, hx⟩ := (h.groups g).sending r hr (info, x) (by simp [hsending])
    exact (h.onGroup (groupOk_sending (h.groups g) hr hsending)).sendPacketToNode
      (deliveryOk_of_selects hinfo hx hsel) (hs ▸ h.frames _)
  | readySkips hs hr hsending => exact h.onGroup (groupOk_sending (h.groups _) hr hsending)
  | readyNext hs hr hsending hbatch => exact h.onGroup (groupOk_next (h.groups _) hr hbatch)
  | readyDone hs =>
    exact (h.onGroup (groupOk_none (h.groups _).queue (by rintro _ ⟨⟩))).setStack
      (frameOk_tail (h.frames _) hs)
  | dequeueNone =>
    exact h.onGroup (groupOk_none (h.groups _).queue (by rintro _ ⟨⟩; exact ⟨rfl, rfl⟩))
  | dequeueSome hs hr htake hmax => exact h.onGroup (groupOk_take (h.groups _) htake)
  | wake =>
    exact (h.onGroup (groupOk_none (h.groups _).queue (by rintro _ ⟨⟩; exact ⟨rfl, rfl⟩))).setStack
      (List.forall_mem_singleton.2 rfl)
  | @wakeDead g =>
    have hgroup := h.groups g
    exact h.onGroup ⟨hgroup.queue, hgroup.batch, hgroup.sending⟩
  | ret hs => exact h.setStack (frameOk_tail (h.frames _) hs)
  | throw hs => exact h.thrown hs
  | unwind hs =>
    exact h.setStack fun f hf => frameOk_tail (h.frames _) hs f (List.mem_of_mem_drop hf)
  | destroy => exact ⟨h.calls, h.frames, h.groups, h.log⟩

theorem traced_of_idle (h : s.Idle) : G.Traced s where
  calls call hcall := by simp [h.calls] at hcall
  frames t f hf := by simp [h.stack t] at hf
  groups g := by
    rw [h.groups g]
    exact ⟨by simp, by simp, by simp⟩
  log d hd := by simp [h.log] at hd

/-- **Everything in flight can be traced back to a call**, in every reachable state. -/
theorem traced_of_reachable {ok : GraphState → Act → Prop} {s₀ : GraphState} (h₀ : s₀.Idle)
    (h : G.machine.Reachable ok s₀ s) : G.Traced s :=
  h.invariant (traced_of_idle h₀) fun _ _ _ hu _ hs => hu.step (step_cases hs)

end DataGraphImpl

end Maplang
