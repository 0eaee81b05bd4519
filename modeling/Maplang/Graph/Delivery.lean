import Maplang.Graph.Traced
import Mathlib.Algebra.BigOperators.Group.Finset.Basic

/-!
# Exactly-once delivery

`pushPacket` decides for each edge whether to deliver directly or to queue, and enqueues once per
thread; `packetReady` finds out on its own which edges of a packet are its to serve.  The two
decisions share out the edges of the channel: each edge is served once, by one of them.

## Main definitions

* `DataGraphImpl.sends` : the deliveries `packetReady` of a group makes for a packet.
* `DataGraphImpl.owes`, `DataGraphImpl.groupOwes` : the deliveries of a call that a frame, or a
  group, still has to make.
* `GraphState.Settled` : a call has returned, and the groups it queued to are done with its packet.

## Main results

* `vias_perm` : what `pushPacket` keeps and what the groups it queues to send is what it has to
  deliver.
* `accounted_of_reachable` : deliveries made and deliveries owed add up.
* `exactly_once_delivery`.
-/

namespace Maplang

namespace DataGraphImpl

variable (G : DataGraphImpl)

/-- The first loop of `pushPacket` on thread `t` does not queue this edge. -/
def keeps (t : ThreadId) (e : GraphEdge) : Bool :=
  G.pushesDirectly t e || (G.groupOf e.next).isNone

/-- The deliveries `packetReady` of group `g` makes for a packet. -/
def sends (g : String) (info : PushedPacketInfo) : List Via :=
  ((G.candidates info).filter (G.selects (G.mUvLoopThreadId g) info)).map Prod.snd

/-- A packet queued on thread `t` is delivered along this edge on thread `u`. -/
def serves (t u : ThreadId) (e : GraphEdge) : Bool :=
  G.threadOf e.next == some u && (u != t || e.sameThreadQueueToTargetType == .alwaysQueue)

variable {G}

/-! ### Sharing out the edges -/

theorem plan_threads (t : ThreadId) (edges : List GraphEdge) (queuedTo : List ThreadId) :
    ((G.plan t edges queuedTo).map G.mUvLoopThreadId).Nodup ∧
      ∀ u ∈ queuedTo, u ∉ (G.plan t edges queuedTo).map G.mUvLoopThreadId := by
  induction edges generalizing queuedTo with
  | nil => simp [plan]
  | cons e edges ih =>
    cases hg : G.groupOf e.next with
    | none => simpa [plan, hg] using ih queuedTo
    | some g =>
      by_cases hdirect : G.pushesDirectly t e
      · simpa only [plan_direct hdirect] using ih queuedTo
      · rw [Bool.not_eq_true] at hdirect
        by_cases hknown : G.mUvLoopThreadId g ∈ queuedTo
        · simpa only [plan_known hg hknown] using ih queuedTo
        · rw [plan_new hg hdirect hknown, List.map_cons]
          obtain ⟨hnodup, hfresh⟩ := ih (G.mUvLoopThreadId g :: queuedTo)
          refine ⟨List.nodup_cons.2 ⟨hfresh _ List.mem_cons_self, hnodup⟩, ?_⟩
          intro u hu hmem
          rcases List.mem_cons.1 hmem with rfl | hmem
          · exact hknown hu
          · exact hfresh u (List.mem_cons_of_mem _ hu) hmem

/-- The thread of every edge that is queued is that of a planned group. -/
theorem mem_plan {t : ThreadId} {e : GraphEdge} {g : String} (hg : G.groupOf e.next = some g)
    (hdirect : G.pushesDirectly t e = false) {edges : List GraphEdge} (he : e ∈ edges)
    (queuedTo : List ThreadId) : G.mUvLoopThreadId g ∈ queuedTo ∨
      G.mUvLoopThreadId g ∈ (G.plan t edges queuedTo).map G.mUvLoopThreadId := by
  induction edges generalizing queuedTo with
  | nil => cases he
  | cons e' edges ih =>
    by_cases hee : e = e'
    · subst hee
      by_cases hknown : G.mUvLoopThreadId g ∈ queuedTo
      · exact .inl hknown
      · simp [plan_new hg hdirect hknown]
    · have he := (List.mem_cons.1 he).resolve_left hee
      rw [plan]
      split
      · exact ih he queuedTo
      · split
        · exact ih he queuedTo
        · rename_i g' _ _
          rcases ih he (G.mUvLoopThreadId g' :: queuedTo) with hmem | hmem
          · rcases List.mem_cons.1 hmem with heq | hmem
            · simp [heq]
            · exact .inl hmem
          · exact .inr (List.mem_cons_of_mem _ hmem)

/-- The loop keeps an edge, or exactly one of the planned groups serves it. -/
theorem serves_once (t : ThreadId) {edges : List GraphEdge} {e : GraphEdge} (he : e ∈ edges) :
    (if G.keeps t e then 1 else 0) +
      (G.plan t edges []).countP (fun g => G.serves t (G.mUvLoopThreadId g) e) = 1 := by
  cases hg : G.groupOf e.next with
  | none => simp [keeps, serves, threadOf, hg]
  | some g =>
    by_cases hdirect : G.pushesDirectly t e
    · have hserves : ∀ u, G.serves t u e = false := by
        intro u
        simp only [pushesDirectly, Bool.and_eq_true, beq_iff_eq] at hdirect
        by_cases hu : t = u <;> simp [serves, hdirect.1, hdirect.2, hu]
      simp [keeps, hdirect, hserves]
    · rw [Bool.not_eq_true] at hdirect
      have hserves : ∀ u, G.serves t u e = (G.mUvLoopThreadId g == u) := by
        intro u
        have hthread : G.threadOf e.next = some (G.mUvLoopThreadId g) := by simp [threadOf, hg]
        by_cases hu : G.mUvLoopThreadId g = u
        · subst hu
          simp only [pushesDirectly, hthread] at hdirect
          cases htype : e.sameThreadQueueToTargetType <;> grind [serves]
        · simp [serves, hthread, hu]
      have hcount : (G.plan t edges []).countP
          (fun g' => G.mUvLoopThreadId g == G.mUvLoopThreadId g')
          = ((G.plan t edges []).map G.mUvLoopThreadId).count (G.mUvLoopThreadId g) := by
        rw [List.count, List.countP_map]
        congr 1
        funext g'
        simp [Bool.beq_comm]
      have hmem := (mem_plan hg hdirect he []).resolve_left (by simp)
      simp only [hserves, hcount, List.count_eq_one_of_mem (plan_threads t edges []).1 hmem]
      simp [keeps, hdirect, hg]

/-- What `packetReady` of a group sends for a pushed packet: the edges of the channel it serves. -/
theorem sends_pushPacket {call : Call} {node channel : String}
    (hkind : call.kind = .pushPacket node channel) (i : ℕ) (g : String) :
    G.sends g (call.info i) =
      ((G.edgesOf call).filter (G.serves call.thread (G.mUvLoopThreadId g))).map .edge := by
  have hedges := filter_allEdges (G := G) node channel (G.serves call.thread (G.mUvLoopThreadId g))
  simp only [edgesOf, hkind, ← hedges, sends, Call.info, candidates, List.filter_map, List.map_map]
  congr 1
  refine List.filter_congr fun x _ => ?_
  simp [selects, serves, Bool.and_comm]

theorem sends_sendPacket {call : Call} {node : String} (hkind : call.kind = .sendPacket node)
    (i : ℕ) (g : String) : G.sends g (call.info i) = [.manual node] := by
  simp [sends, Call.info, hkind, candidates, List.filter_cons, selects]

/-- **The direct and the queued deliveries of a push share out the edges of its channel.** -/
theorem vias_perm {call : Call} {node channel : String}
    (hkind : call.kind = .pushPacket node channel) (i : ℕ) :
    (((G.edgesOf call).filter (G.keeps call.thread)).map Via.edge ++
      (G.queuedGroups call).flatMap fun g => G.sends g (call.info i)).Perm (G.vias call) := by
  have hshare := Bag.share_perm (G.edgesOf call) (G.keeps call.thread)
    (G.plan call.thread (G.edgesOf call) [])
    (fun g => G.serves call.thread (G.mUvLoopThreadId g)) fun e he => serves_once call.thread he
  have hmap := hshare.map Via.edge
  rw [List.map_append, List.map_flatMap] at hmap
  simpa only [vias, queuedGroups, hkind, sends_pushPacket hkind] using hmap

/-! ### What is owed -/

variable (G)

/-- The deliveries of call `i` that a frame still has to make or to queue. -/
def owes (i : ℕ) : Frame → List Via
  | .pushEdges id call edges queuedTo groups =>
    if id = i then
      (edges.filter (G.keeps call.thread)).map .edge ++
        (groups ++ G.plan call.thread edges queuedTo).flatMap fun g => G.sends g (call.info i)
    else []
  | .enqueue id call groups =>
    if id = i then groups.flatMap fun g => G.sends g (call.info i) else []
  | .signal id call _ groups =>
    if id = i then groups.flatMap fun g => G.sends g (call.info i) else []
  | _ => []

@[simp] theorem owes_handlePacket (i delivery calls : ℕ) (node : String) :
    G.owes i (.handlePacket delivery node calls) = [] := rfl

@[simp] theorem owes_pushEdges (i id : ℕ) (call : Call) (edges : List GraphEdge)
    (queuedTo : List ThreadId) (groups : List String) :
    G.owes i (.pushEdges id call edges queuedTo groups) =
      if id = i then
        (edges.filter (G.keeps call.thread)).map .edge ++
          (groups ++ G.plan call.thread edges queuedTo).flatMap fun g => G.sends g (call.info i)
      else [] := rfl

@[simp] theorem owes_enqueue (i id : ℕ) (call : Call) (groups : List String) :
    G.owes i (.enqueue id call groups) =
      if id = i then groups.flatMap fun g => G.sends g (call.info i) else [] := rfl

@[simp] theorem owes_signal (i id : ℕ) (call : Call) (g : String) (groups : List String) :
    G.owes i (.signal id call g groups) =
      if id = i then groups.flatMap fun g => G.sends g (call.info i) else [] := rfl

@[simp] theorem owes_packetReady (i : ℕ) (g : String) : G.owes i (.packetReady g) = [] := rfl

@[simp] theorem owes_thrown (i : ℕ) : G.owes i .thrown = [] := rfl

@[simp] theorem owes_crashed (i : ℕ) : G.owes i .crashed = [] := rfl

/-- The deliveries of call `i` that a group still has to make. -/
def groupOwes (i : ℕ) (g : String) (group : ThreadGroup) : List Via :=
  ((group.batch ++ group.mPacketQueue).filter fun info => info.callId = i).flatMap (G.sends g) ++
    (group.sending.filter fun x =>
      x.1.callId = i && G.selects (G.mUvLoopThreadId g) x.1 x.2).map fun x => x.2.2

end DataGraphImpl

/-- The deliveries made for call `i`. -/
def delivered (i : ℕ) (log : List Delivery) : List Via :=
  (log.filter fun d => d.callId = i).map Delivery.via

namespace DataGraphImpl

variable {G : DataGraphImpl} {s s' : GraphState}

theorem delivered_append_self (i : ℕ) (log : List Delivery) (via : Via) (packet : Packet)
    (t : ThreadId) : delivered i (log ++ [⟨i, via, packet, t⟩]) = delivered i log ++ [via] := by
  simp [delivered]

theorem delivered_append_of_ne {i j : ℕ} (h : j ≠ i) (log : List Delivery) (via : Via)
    (packet : Packet) (t : ThreadId) :
    delivered i (log ++ [⟨j, via, packet, t⟩]) = delivered i log := by
  simp [delivered, h]

variable (G) in
/-- How often `v` is among the deliveries of call `i`, those made and those owed by somebody. -/
def account (s : GraphState) (i : ℕ) (call : Call) (v : Via) : ℕ :=
  (delivered i s.log).count v + ((s.stack call.thread).flatMap (G.owes i)).count v +
    ∑ g ∈ (G.queuedGroups call).toFinset, (G.groupOwes i g (s.groups g)).count v

theorem owes_notePush (i : ℕ) (kind : CallKind) (frames : List Frame) :
    (notePush kind frames).flatMap (G.owes i) = frames.flatMap (G.owes i) := by
  unfold notePush
  split <;> simp [owes]

theorem owes_update {i : ℕ} {stack : ThreadId → List Frame} {t : ThreadId} {frames : List Frame}
    (h : frames.flatMap (G.owes i) = (stack t).flatMap (G.owes i)) (u : ThreadId) :
    (Function.update stack t frames u).flatMap (G.owes i) = (stack u).flatMap (G.owes i) := by
  by_cases hu : u = t
  · subst hu
    rw [Function.update_self, h]
  · rw [Function.update_of_ne hu]

@[simp] theorem owes_receive (i delivery : ℕ) (node : String) :
    G.owes i (G.receive delivery node) = [] := by
  unfold receive
  split
  · rfl
  · split <;> rfl

theorem groupOwes_update {i : ℕ} {v : Via} {groups : String → ThreadGroup} {g : String}
    {group : ThreadGroup}
    (h : (G.groupOwes i g group).count v = (G.groupOwes i g (groups g)).count v) (g' : String) :
    (G.groupOwes i g' (Function.update groups g group g')).count v =
      (G.groupOwes i g' (groups g')).count v := by
  by_cases hg : g' = g
  · subst hg
    rw [Function.update_self, h]
  · rw [Function.update_of_ne hg]

/-- What one group gains is gained by all groups together. -/
theorem sum_groupOwes_update (i : ℕ) (v : Via) (groups : String → ThreadGroup) {g : String}
    (group : ThreadGroup) {gs : Finset String} (hg : g ∈ gs) :
    ∑ g' ∈ gs, (G.groupOwes i g' (Function.update groups g group g')).count v +
        (G.groupOwes i g (groups g)).count v =
      ∑ g' ∈ gs, (G.groupOwes i g' (groups g')).count v + (G.groupOwes i g group).count v := by
  rw [← Finset.add_sum_erase gs _ hg, ← Finset.add_sum_erase gs
    (fun g' => (G.groupOwes i g' (groups g')).count v) hg, Function.update_self]
  have hrest : ∑ g' ∈ gs.erase g, (G.groupOwes i g' (Function.update groups g group g')).count v =
      ∑ g' ∈ gs.erase g, (G.groupOwes i g' (groups g')).count v :=
    Finset.sum_congr rfl fun g' hg' => by rw [Function.update_of_ne (Finset.ne_of_mem_erase hg')]
  omega

/-- A step that delivers nothing and moves nothing keeps the account. -/
theorem account_eq {i : ℕ} {call : Call} {v : Via} (hlog : delivered i s'.log = delivered i s.log)
    (hstack : ∀ u, (s'.stack u).flatMap (G.owes i) = (s.stack u).flatMap (G.owes i))
    (hgroups : ∀ g, (G.groupOwes i g (s'.groups g)).count v =
      (G.groupOwes i g (s.groups g)).count v) :
    G.account s' i call v = G.account s i call v := by
  simp only [account, hlog, hstack, hgroups]

theorem account_setStack {i : ℕ} {call : Call} {v : Via} {t : ThreadId} {frames : List Frame}
    (h : frames.flatMap (G.owes i) = (s.stack t).flatMap (G.owes i)) :
    G.account (s.setStack t frames) i call v = G.account s i call v :=
  account_eq rfl (owes_update h) fun _ => rfl

theorem account_onGroup {i : ℕ} {call : Call} {v : Via} {g : String} {f : ThreadGroup → ThreadGroup}
    (h : (G.groupOwes i g (f (s.groups g))).count v = (G.groupOwes i g (s.groups g)).count v) :
    G.account (s.onGroup g f) i call v = G.account s i call v :=
  account_eq rfl (fun _ => rfl) (groupOwes_update h)

/-! ### Steps keep the account -/

/-- A direct delivery was owed by the frame that makes it. -/
theorem account_edgeDirect (htraced : G.Traced s) {i : ℕ} {c : Call} (hc : s.calls[i]? = some c)
    (v : Via) {t : ThreadId} {id : ℕ} {call : Call} {e : GraphEdge} {edges : List GraphEdge}
    {queuedTo : List ThreadId} {groups : List String} {rest : List Frame}
    (hs : s.stack t = .pushEdges id call (e :: edges) queuedTo groups :: rest)
    (hdirect : G.pushesDirectly t e = true) :
    G.account (G.sendPacketToNode s t id call.packet (.edge e)
      (.pushEdges id call edges queuedTo groups :: rest)) i c v = G.account s i c v := by
  obtain ⟨⟨hid, rfl⟩, -, -⟩ := htraced.frames t (.pushEdges id call (e :: edges) queuedTo groups)
    (by simp [hs])
  by_cases hi : id = i
  · subst hi
    obtain rfl : c = call := Option.some.inj (hc.symm.trans hid)
    -- the delivery leaves the frame and enters the log
    have hkeeps : G.keeps c.thread e = true := by simp [keeps, hdirect]
    simp only [account, sendPacketToNode_log, sendPacketToNode_stack, sendPacketToNode_groups,
      delivered_append_self, Function.update_self, hs, List.flatMap_cons, owes_receive,
      owes_pushEdges, plan_direct hdirect, List.filter_cons, hkeeps, if_true, List.map_cons,
      List.count_append, List.count_cons, List.count_nil, List.cons_append]
    omega
  · refine account_eq (delivered_append_of_ne hi ..) (owes_update ?_) fun _ => rfl
    simp [hs, hi]

theorem callId_info (call : Call) (i : ℕ) : (call.info i).callId = i := by
  unfold Call.info
  split <;> rfl

/-- What a frame enqueues the group owes from then on. -/
theorem account_enqueue (htraced : G.Traced s) {i : ℕ} {c : Call} (hc : s.calls[i]? = some c)
    (v : Via) {t : ThreadId} {id : ℕ} {call : Call} {g : String} {groups : List String}
    {rest : List Frame} (hs : s.stack t = .enqueue id call (g :: groups) :: rest) :
    G.account ((s.onGroup g fun group => group.enqueue (call.info id)).setStack t
      (.signal id call g groups :: rest)) i c v = G.account s i c v := by
  obtain ⟨⟨hid, rfl⟩, hsuffix⟩ := htraced.frames t (.enqueue id call (g :: groups)) (by simp [hs])
  by_cases hi : id = i
  · subst hi
    obtain rfl : c = call := Option.some.inj (hc.symm.trans hid)
    -- the deliveries of this group leave the frame and enter the group
    have hg : g ∈ (G.queuedGroups c).toFinset :=
      List.mem_toFinset.2 (hsuffix.subset List.mem_cons_self)
    have hsum := sum_groupOwes_update (G := G) id v s.groups
      ((s.groups g).enqueue (c.info id)) hg
    have hgroup : (G.groupOwes id g ((s.groups g).enqueue (c.info id))).count v =
        (G.groupOwes id g (s.groups g)).count v + (G.sends g (c.info id)).count v := by
      simp only [groupOwes, ThreadGroup.enqueue, ThreadGroup.batch, ThreadGroup.sending,
        List.filter_append, List.flatMap_append, List.filter_singleton, callId_info, decide_true,
        cond_true, List.flatMap_singleton, List.count_append]
      omega
    simp only [account, GraphState.setStack_log, GraphState.onGroup_log, GraphState.setStack_stack,
      GraphState.onGroup_stack, GraphState.setStack_groups, GraphState.onGroup_groups,
      Function.update_self, hs, List.flatMap_cons, owes_enqueue, owes_signal, if_true,
      List.count_append]
    omega
  · refine account_eq rfl (owes_update ?_) (groupOwes_update ?_)
    · simp [hs, hi]
    · simp [groupOwes, ThreadGroup.enqueue, ThreadGroup.batch, ThreadGroup.sending,
        List.filter_append, callId_info, hi]

/-- A delivery that `packetReady` makes was owed by its group. -/
theorem account_readySends (htraced : G.Traced s) {i : ℕ} {c : Call} (hc : s.calls[i]? = some c)
    (v : Via) {t : ThreadId} {g : String} {rest : List Frame} {r : Ready} {info : PushedPacketInfo}
    {x : String × Via} {sending : List (PushedPacketInfo × String × Via)}
    (hs : s.stack t = .packetReady g :: rest) (hr : (s.groups g).ready = some r)
    (hsending : r.sending = (info, x) :: sending) (hsel : G.selects t info x = true) :
    G.account (G.sendPacketToNode
      (s.onGroup g fun group => group.setReady (some { r with sending }))
      t info.callId info.packet x.2 (.packetReady g :: rest)) i c v = G.account s i c v := by
  obtain rfl : t = G.mUvLoopThreadId g := htraced.frames t (.packetReady g) (by simp [hs])
  have hstack : ∀ u, (Function.update s.stack (G.mUvLoopThreadId g)
      (G.receive s.log.length x.2.node :: .packetReady g :: rest) u).flatMap (G.owes i) =
      (s.stack u).flatMap (G.owes i) := owes_update (by simp [hs])
  by_cases hi : info.callId = i
  · subst hi
    obtain ⟨⟨call, hcall, -, hg⟩, -⟩ :=
      (htraced.groups g).sending r hr (info, x) (by simp [hsending])
    obtain rfl : c = call := Option.some.inj (hc.symm.trans hcall)
    -- the delivery leaves the group and enters the log
    have hsum := sum_groupOwes_update (G := G) info.callId v s.groups
      ((s.groups g).setReady (some { r with sending })) (List.mem_toFinset.2 hg)
    have hgroup : (G.groupOwes info.callId g (s.groups g)).count v =
        (G.groupOwes info.callId g ((s.groups g).setReady (some { r with sending }))).count v +
          [x.2].count v := by
      simp only [groupOwes, ThreadGroup.setReady, ThreadGroup.batch, ThreadGroup.sending, hr,
        hsending, List.filter_cons, hsel, decide_true, Bool.and_self, if_true, List.map_cons,
        List.count_append, List.count_cons, List.count_nil]
      omega
    simp only [account, sendPacketToNode_log, GraphState.onGroup_log, delivered_append_self,
      sendPacketToNode_stack, GraphState.onGroup_stack, hstack, sendPacketToNode_groups,
      GraphState.onGroup_groups, List.count_append]
    omega
  · refine account_eq (delivered_append_of_ne hi ..) hstack (groupOwes_update ?_)
    simp [groupOwes, ThreadGroup.setReady, ThreadGroup.batch, ThreadGroup.sending, hr, hsending, hi]

/-- A group starts to look at the edges of a packet it owes. -/
theorem groupOwes_next (i : ℕ) (v : Via) {g : String} {group : ThreadGroup} {r : Ready}
    {info : PushedPacketInfo} {batch processed : List PushedPacketInfo}
    (hr : group.ready = some r) (hsending : r.sending = []) (hbatch : r.batch = info :: batch) :
    (G.groupOwes i g { group with
      ready := some { r with sending := (G.candidates info).map fun x => (info, x), batch }
      processed }).count v = (G.groupOwes i g group).count v := by
  have hsends : (((G.candidates info).map fun x => (info, x)).filter fun x =>
      x.1.callId = i && G.selects (G.mUvLoopThreadId g) x.1 x.2).map (fun x => x.2.2) =
      if info.callId = i then G.sends g info else [] := by
    rw [List.filter_map, List.map_map]
    split_ifs with hi
    · simp [sends, Function.comp_def, hi]
    · simp [Function.comp_def, hi]
  simp only [groupOwes, ThreadGroup.batch, ThreadGroup.sending, hr, hsending, hbatch, hsends,
    List.cons_append, List.filter_cons]
  by_cases hi : info.callId = i
  · simp [hi]
    omega
  · simp [hi]

theorem groupOwes_take (i : ℕ) (v : Via) {g : String} {group : ThreadGroup} {picks : List ℕ}
    {infos queue : List PushedPacketInfo} (hr : group.ready = some {})
    (htake : Bag.takeMany group.mPacketQueue picks = some (infos, queue)) :
    (G.groupOwes i g
      { group with mPacketQueue := queue, ready := some { batch := infos } }).count v =
      (G.groupOwes i g group).count v := by
  have hperm : (((infos ++ queue).filter fun info => info.callId = i).flatMap (G.sends g)).Perm
      ((group.mPacketQueue.filter fun info => info.callId = i).flatMap (G.sends g)) :=
    ((Bag.takeMany_perm htake).filter _).flatMap_right _
  simpa [groupOwes, ThreadGroup.batch, ThreadGroup.sending, hr] using hperm.count_eq v

/-- An edge to a group that will be woken up anyway was owed through that group, ... -/
theorem owes_edgeKnown (htraced : G.Traced s) {t : ThreadId} {id : ℕ} {call : Call} {e : GraphEdge}
    {edges : List GraphEdge} {queuedTo : List ThreadId} {groups : List String} {rest : List Frame}
    {g : String} (hs : s.stack t = .pushEdges id call (e :: edges) queuedTo groups :: rest)
    (hg : G.groupOf e.next = some g) (hdirect : G.pushesDirectly t e = false)
    (hknown : G.mUvLoopThreadId g ∈ queuedTo) (i : ℕ) :
    (Frame.pushEdges id call edges queuedTo groups :: rest).flatMap (G.owes i) =
      (s.stack t).flatMap (G.owes i) := by
  obtain ⟨⟨-, rfl⟩, -, -⟩ := htraced.frames t (.pushEdges id call (e :: edges) queuedTo groups)
    (by simp [hs])
  have hkeeps : G.keeps call.thread e = false := by simp [keeps, hdirect, hg]
  simp [hs, plan_known hg hknown, hkeeps]

/-- ... and so was an edge to a group that is added to those. -/
theorem owes_edgeNew (htraced : G.Traced s) {t : ThreadId} {id : ℕ} {call : Call} {e : GraphEdge}
    {edges : List GraphEdge} {queuedTo : List ThreadId} {groups : List String} {rest : List Frame}
    {g : String} (hs : s.stack t = .pushEdges id call (e :: edges) queuedTo groups :: rest)
    (hg : G.groupOf e.next = some g) (hdirect : G.pushesDirectly t e = false)
    (hnew : G.mUvLoopThreadId g ∉ queuedTo) (i : ℕ) :
    (Frame.pushEdges id call edges (G.mUvLoopThreadId g :: queuedTo) (groups ++ [g]) ::
      rest).flatMap (G.owes i) = (s.stack t).flatMap (G.owes i) := by
  obtain ⟨⟨-, rfl⟩, -, -⟩ := htraced.frames t (.pushEdges id call (e :: edges) queuedTo groups)
    (by simp [hs])
  have hkeeps : G.keeps call.thread e = false := by simp [keeps, hdirect, hg]
  simp [hs, plan_new hg hdirect hnew, hkeeps]

/-- **A step keeps the account of every call made before it.** -/
theorem account_step (htraced : G.Traced s) {a : Act} (hquiet : a.quiet = true)
    (hstep : GraphStep G s a s') {i : ℕ} {c : Call} (hc : s.calls[i]? = some c) (v : Via) :
    G.account s' i c v = G.account s i c v := by
  have hi : s.calls.length ≠ i := (List.getElem?_eq_some_iff.1 hc).1.ne'
  cases hstep with
  | drop => exact account_eq rfl (owes_update (owes_notePush ..)) fun _ => rfl
  | push => exact account_eq rfl (owes_update (by simp [hi, owes_notePush])) fun _ => rfl
  | send => exact account_eq rfl (owes_update (by simp [hi, owes_notePush])) fun _ => rfl
  | edgeThrows hs => exact account_setStack (by simp [hs])
  | edgeDirect hs hdirect => exact account_edgeDirect htraced hc v hs hdirect
  | edgeKnown hs hg hdirect hknown =>
    exact account_setStack (owes_edgeKnown htraced hs hg hdirect hknown i)
  | edgeNew hs hg hdirect hnew =>
    exact account_setStack (owes_edgeNew htraced hs hg hdirect hnew i)
  | edgesDone hs => exact account_setStack (by simp [hs, plan])
  | enqueue hs => exact account_enqueue htraced hc v hs
  | enqueueDone hs => exact account_setStack (by simp [hs])
  | @signal t id call g groups rest hs =>
    refine account_eq rfl (owes_update (by simp [hs])) (groupOwes_update ?_)
    simp [groupOwes, ThreadGroup.batch, ThreadGroup.sending]
  | readyThrows hs => exact account_setStack (by simp [hs])
  | readySends hs hr hsending hsel => exact account_readySends htraced hc v hs hr hsending hsel
  | @readySkips t g rest r info x sending hs hr hsending hsel =>
    obtain rfl : t = G.mUvLoopThreadId g := htraced.frames t (.packetReady g) (by simp [hs])
    refine account_onGroup ?_
    simp [groupOwes, ThreadGroup.setReady, ThreadGroup.batch, ThreadGroup.sending, hr, hsending,
      hsel]
  | readyNext hs hr hsending hbatch => exact account_onGroup (groupOwes_next i v hr hsending hbatch)
  | readyDone hs hr hsending hbatch =>
    refine account_eq rfl (owes_update (by simp [hs])) (groupOwes_update ?_)
    simp [groupOwes, ThreadGroup.setReady, ThreadGroup.batch, ThreadGroup.sending, hr, hsending,
      hbatch]
  | dequeueNone hs hr =>
    refine account_onGroup ?_
    simp [groupOwes, ThreadGroup.setReady, ThreadGroup.batch, ThreadGroup.sending, hr]
  | dequeueSome hs hr htake => exact account_onGroup (groupOwes_take i v hr htake)
  | wake hidle hpending hr =>
    refine account_eq rfl (owes_update (by simp [hidle])) (groupOwes_update ?_)
    simp [groupOwes, ThreadGroup.batch, ThreadGroup.sending, hr]
  | wakeDead =>
    refine account_onGroup ?_
    simp [groupOwes, ThreadGroup.batch, ThreadGroup.sending]
  | ret hs => exact account_setStack (by simp [hs])
  | throw => cases hquiet
  | unwind => cases hquiet
  | destroy => rfl

/-! ### New calls -/

theorem owes_of_callId_lt (htraced : G.Traced s) {t : ThreadId} {f : Frame} (hf : f ∈ s.stack t) :
    G.owes s.calls.length f = [] := by
  have hlt : ∀ {id call}, CallOn s.calls id call t → id ≠ s.calls.length :=
    fun h => (List.getElem?_eq_some_iff.1 h.1).1.ne
  have hok := htraced.frames t f hf
  cases f with
  | pushEdges => simp [hlt hok.1]
  | enqueue => simp [hlt hok.1]
  | signal => simp [hlt hok.1]
  | _ => rfl

theorem callId_ne_of_entryOk {g : String} {info : PushedPacketInfo}
    (h : G.EntryOk s.calls g info) : info.callId ≠ s.calls.length := by
  obtain ⟨call, hcall, -⟩ := h
  exact (List.getElem?_eq_some_iff.1 hcall).1.ne

theorem groupOwes_fresh (htraced : G.Traced s) (g : String) :
    G.groupOwes s.calls.length g (s.groups g) = [] := by
  have hok := htraced.groups g
  have hqueued : ((s.groups g).batch ++ (s.groups g).mPacketQueue).filter
      (fun info => info.callId = s.calls.length) = [] := by
    rw [List.filter_eq_nil_iff]
    intro info hi
    rcases List.mem_append.1 hi with hi | hi
    · unfold ThreadGroup.batch at hi
      cases hr : (s.groups g).ready with
      | none => simp [hr] at hi
      | some r => simpa using callId_ne_of_entryOk (hok.batch r hr info (by simpa [hr] using hi))
    · simpa using callId_ne_of_entryOk (hok.queue info hi)
  have hsending : (s.groups g).sending.filter (fun x =>
      x.1.callId = s.calls.length && G.selects (G.mUvLoopThreadId g) x.1 x.2) = [] := by
    rw [List.filter_eq_nil_iff]
    intro x hx
    unfold ThreadGroup.sending at hx
    cases hr : (s.groups g).ready with
    | none => simp [hr] at hx
    | some r =>
      simp [callId_ne_of_entryOk (hok.sending r hr x (by simpa [hr] using hx)).1]
  simp [groupOwes, hqueued, hsending]

/-- Nothing has been done for a call that is still to come. -/
theorem account_fresh (htraced : G.Traced s) (call : Call) (v : Via) :
    G.account s s.calls.length call v = 0 := by
  have hlog : delivered s.calls.length s.log = [] := by
    rw [delivered, List.map_eq_nil_iff, List.filter_eq_nil_iff]
    intro d hd
    obtain ⟨c, hc, -⟩ := htraced.log d hd
    simpa using (List.getElem?_eq_some_iff.1 hc).1.ne
  have hstack : (s.stack call.thread).flatMap (G.owes s.calls.length) = [] :=
    List.flatMap_eq_nil_iff.2 fun f hf => owes_of_callId_lt htraced hf
  simp [account, hlog, hstack, groupOwes_fresh htraced]

theorem account_beginCall {call : Call} {t : ThreadId} (ht : call.thread = t)
    (frames : List Frame) (i : ℕ) (v : Via) :
    G.account (s.beginCall t call frames) i call v =
      (frames.flatMap (G.owes i)).count v + G.account s i call v := by
  subst ht
  simp only [account, GraphState.beginCall_log, GraphState.beginCall_stack, Function.update_self,
    List.flatMap_append, owes_notePush, GraphState.beginCall_groups, List.count_append]
  omega

theorem getElem?_beginCall {call c : Call}
    (hc : (s.calls ++ [call])[s.calls.length]? = some c) : c = call := by
  simpa using hc.symm

/-- **A call starts by owing exactly what it has to deliver.** -/
theorem account_new (htraced : G.Traced s) {a : Act} (hstep : GraphStep G s a s') {c : Call}
    (hc : s'.calls[s.calls.length]? = some c) (v : Via) :
    G.account s' s.calls.length c v = (G.vias c).count v := by
  cases hstep with
  | @drop t node channel packet parameters hcan hacc hedges =>
    obtain rfl := getElem?_beginCall hc
    rw [account_beginCall (GraphState.pushCall_thread ..), account_fresh htraced]
    simp [vias, edgesOf, GraphState.pushCall, hedges]
  | @push t node channel packet parameters edges hcan hacc hedges =>
    obtain rfl := getElem?_beginCall hc
    rw [account_beginCall (GraphState.pushCall_thread ..), account_fresh htraced]
    have hkind : (s.pushCall t node channel packet parameters).kind =
      .pushPacket node channel := rfl
    have hedgesOf : G.edgesOf (s.pushCall t node channel packet parameters) = edges := by
      simp [edgesOf, hkind, hedges]
    rw [← (vias_perm hkind s.calls.length).count_eq v]
    simp [queuedGroups, hedgesOf, hkind]
  | @send t packet toNode g hcan hg =>
    obtain rfl := getElem?_beginCall hc
    rw [account_beginCall (GraphState.sendCall_thread ..), account_fresh htraced]
    have hkind : (s.sendCall t packet toNode).kind = .sendPacket toNode := rfl
    simp [sends_sendPacket hkind, vias, hkind]
  | _ => exact absurd (List.getElem?_eq_some_iff.1 hc).1 (lt_irrefl _)

variable (G) in
/-- The deliveries of every call, made and owed, are those it has to make. -/
def Accounted (s : GraphState) : Prop :=
  ∀ i call, s.calls[i]? = some call → ∀ v, G.account s i call v = (G.vias call).count v

theorem accounted_step (htraced : G.Traced s) {a : Act} (hquiet : a.quiet = true)
    (hstep : GraphStep G s a s') (h : G.Accounted s) : G.Accounted s' := by
  intro i call hcall v
  have hstarts := calls_isPrefix hstep
  rcases lt_trichotomy i s.calls.length with hlt | rfl | hgt
  · have hold : s.calls[i]? = some call := by
      obtain ⟨new, hnew⟩ := hstarts
      rwa [← hnew, List.getElem?_append_left hlt] at hcall
    rw [account_step htraced hquiet hstep hold, h i call hold]
  · exact account_new htraced hstep hcall v
  · have hlength : s'.calls.length ≤ s.calls.length + 1 := by cases hstep <;> simp
    have := (List.getElem?_eq_some_iff.1 hcall).1
    omega

theorem accounted_of_reachable {s₀ : GraphState} (h₀ : s₀.Idle)
    (h : G.machine.Reachable quietRuns s₀ s) : G.Accounted s := by
  refine (h.invariant (I := fun s => G.Traced s ∧ G.Accounted s) ⟨traced_of_idle h₀, ?_⟩ ?_).2
  · intro i call hcall
    simp [h₀.calls] at hcall
  · intro u a u' ⟨htraced, haccounted⟩ hquiet hs
    have hstep := step_cases hs
    exact ⟨htraced.step hstep, accounted_step htraced hquiet hstep haccounted⟩

end DataGraphImpl

/-! ### Exactly once -/

/-- The call a frame works for. -/
def Frame.call? : Frame → Option (ℕ × Call)
  | .pushEdges id call .. => some (id, call)
  | .enqueue id call .. => some (id, call)
  | .signal id call .. => some (id, call)
  | _ => none

/-- The number of the call a frame works for. -/
def Frame.callId? (f : Frame) : Option ℕ := f.call?.map Prod.fst

/-- Call `i` has returned, and every queue it enqueued to has been drained of its packet. -/
structure GraphState.Settled (s : GraphState) (G : DataGraphImpl) (i : ℕ) (call : Call) : Prop where
  returned : ∀ f ∈ s.stack call.thread, f.callId? ≠ some i
  queue : ∀ g ∈ G.queuedGroups call, ∀ info ∈ (s.groups g).mPacketQueue, info.callId ≠ i
  batch : ∀ g ∈ G.queuedGroups call, ∀ info ∈ (s.groups g).batch, info.callId ≠ i
  sending : ∀ g ∈ G.queuedGroups call, ∀ x ∈ (s.groups g).sending, x.1.callId ≠ i

open DataGraphImpl

variable {G : DataGraphImpl} {s₀ s : GraphState}

theorem owes_of_callId?_ne {i : ℕ} {f : Frame} (h : f.callId? ≠ some i) : G.owes i f = [] := by
  cases f <;> simp_all [Frame.callId?, Frame.call?]

/-- Nobody owes a delivery of a settled call. -/
theorem account_of_settled {i : ℕ} {call : Call} (h : s.Settled G i call) (v : Via) :
    G.account s i call v = (delivered i s.log).count v := by
  have hstack : (s.stack call.thread).flatMap (G.owes i) = [] :=
    List.flatMap_eq_nil_iff.2 fun f hf => owes_of_callId?_ne (h.returned f hf)
  have hgroups : ∀ g ∈ (G.queuedGroups call).toFinset,
      (G.groupOwes i g (s.groups g)).count v = 0 := by
    intro g hg
    rw [List.mem_toFinset] at hg
    have hqueued : ((s.groups g).batch ++ (s.groups g).mPacketQueue).filter
        (fun info => info.callId = i) = [] := by
      rw [List.filter_eq_nil_iff]
      intro info hi
      rcases List.mem_append.1 hi with hi | hi
      · simpa using h.batch g hg info hi
      · simpa using h.queue g hg info hi
    have hsending : (s.groups g).sending.filter (fun x =>
        x.1.callId = i && G.selects (G.mUvLoopThreadId g) x.1 x.2) = [] := by
      rw [List.filter_eq_nil_iff]
      intro x hx
      simp [h.sending g hg x hx]
    simp [groupOwes, hqueued, hsending]
  simp [account, hstack, Finset.sum_eq_zero hgroups]

/-- **Exactly-once delivery.**  In every run in which nothing throws, for every call of `pushPacket`
or `sendPacket`: all its deliveries carry the packet the caller passed, with its parameters merged
with the last ones the pushing node had received; at any time the deliveries made are some of those
it has to make, each at most once; and when the call has returned and the queues it enqueued to
have been drained, they are exactly one for each edge of the channel (for `sendPacket`, one to the
named node) and none for any other. -/
theorem exactly_once_delivery (h₀ : s₀.Idle) (h : G.machine.Reachable quietRuns s₀ s) {i : ℕ}
    {call : Call} (hcall : s.calls[i]? = some call) :
    call.Merged ∧ (∀ d ∈ s.log, d.callId = i → d.packet = call.packet) ∧
    (delivered i s.log).Subperm (G.vias call) ∧
    (s.Settled G i call → (delivered i s.log).Perm (G.vias call)) := by
  have htraced : G.Traced s := traced_of_reachable h₀ h
  have haccounted := accounted_of_reachable h₀ h i call hcall
  refine ⟨htraced.calls call (List.mem_of_getElem? hcall), ?_, ?_, ?_⟩
  · rintro d hd rfl
    obtain ⟨c, hc, hpacket, -⟩ := htraced.log d hd
    rw [hpacket, Option.some.inj (hc.symm.trans hcall)]
  · refine List.subperm_iff_count.2 fun v => ?_
    rw [← haccounted v, account, add_assoc]
    exact Nat.le_add_right _ _
  · intro hsettled
    refine List.perm_iff_count.2 fun v => ?_
    rw [← haccounted v, account_of_settled hsettled]

/-- The last push of the relay is settled: its packet has reached `sink`. -/
theorem exactly_once_delivery_relay :
    (relayState.calls.get ⟨2, by decide⟩).kind = .pushPacket "middle" "out" ∧
    (delivered 2 relayState.log).Perm
      (relayGraph.vias (relayState.calls.get ⟨2, by decide⟩)) :=
  ⟨by decide, (exactly_once_delivery startState_idle relayState_reachable
    (List.getElem?_eq_getElem (by decide))).2.2.2 ⟨by decide, by decide, by decide, by decide⟩⟩

end Maplang
