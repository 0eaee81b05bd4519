import Maplang.Graph.Delivery
import Maplang.Graph.Wakeup
import Maplang.Machine.Measure
import Mathlib.Algebra.Order.BigOperators.Group.List

/-!
# What is pushed is delivered

Exactly-once delivery says what has been delivered when a call is settled.  This file says that
calls are settled: if the edges make no cycle, handlers push a bounded number of packets each, and
nothing more is sent from outside, a data graph comes to rest, whatever the schedule, and it has
made every delivery by then.  No fairness is needed, since no run goes on for ever.

## Main definitions

* `DataGraphImpl.Acyclic`, `DataGraphImpl.Implemented` : what is asked of the graph.
* `soundRuns`, `settlingRuns` : nothing throws; moreover, only handlers push.
* `DataGraphImpl.cost` : how many steps are left at most.
* `GraphState.AtRest` : nothing is in flight.

## Main results

* `DataGraphImpl.cost_lt` : each step makes the cost smaller.
* `atRest_of_stuck` : when no step is possible, nothing is in flight.
* `delivered_at_rest` : every run comes to rest, with all deliveries made.
-/

namespace Maplang

namespace DataGraphImpl

variable (G : DataGraphImpl)

/-- An edge leads from node `a` to node `b`. -/
def LeadsTo (a b : String) : Prop := ∃ x ∈ G.allEdges a, x.2.next = b

/-- No node can be reached from itself. -/
def Acyclic : Prop := ∀ a, ¬ Relation.TransGen G.LeadsTo a a

/-- A packet that is sent to this node has a handler. -/
def Receives (node : String) : Prop :=
  ∃ inst, G.instanceOf node = some inst ∧ inst.mImplementation = some ⟨true⟩

/-- Packets that are pushed have handlers. -/
def Implemented : Prop := ∀ a b, G.LeadsTo a b → G.Receives b

end DataGraphImpl

/-- The step condition of runs in which nothing throws, the graph is not destroyed, and packets are
only sent to nodes that can receive them. -/
def soundRuns (G : DataGraphImpl) : GraphState → Act → Prop
  | _, .sendPacket _ _ toNode => G.Receives toNode
  | _, .throw _ => False
  | _, .unwind _ _ => False
  | _, .destroy => False
  | _, _ => True

/-- The step condition of runs in which, besides, only handlers push, each of them at most `k`
packets, and through the pusher it is called with. -/
def settlingRuns (k : ℕ) : GraphState → Act → Prop
  | s, .pushPacket t node _ _ =>
    ∃ delivery pushes rest, s.stack t = .handlePacket delivery node pushes :: rest ∧ pushes < k
  | _, .sendPacket _ _ _ => False
  | _, .throw _ => False
  | _, .unwind _ _ => False
  | _, .destroy => False
  | _, _ => True

/-- Nothing is in flight. -/
structure GraphState.AtRest (s : GraphState) : Prop where
  stack : ∀ t, s.stack t = []
  queue : ∀ g, (s.groups g).mPacketQueue = []
  ready : ∀ g, (s.groups g).ready = none
  asyncPending : ∀ g, (s.groups g).asyncPending = false

/-! ### The steps that are left -/

/-- What the steps that are left are counted by: the heights of the nodes, how many packets a
handler pushes, and how many edges leave a node. -/
structure Costs where
  rank : String → ℕ
  pushes : ℕ
  edges : ℕ

/-- The steps for a dequeued packet with `n` edges to look at, and handlers that take `below`. -/
def batchCost (n below : ℕ) : ℕ := 1 + n * (1 + below)

/-- The steps for a group that a packet is to be enqueued to: `enqueue`, `uv_async_send`, the
callback with its last look at the queue, and the packet. -/
def groupCost (n below : ℕ) : ℕ := 6 + batchCost n below

/-- The steps for a signal: the callback, which finds the queue empty, and returns. -/
def pendingCost : Bool → ℕ
  | true => 3
  | false => 0

namespace Costs

variable (c : Costs)

/-- The heights and the number of edges are those of a graph. -/
structure Bound (G : DataGraphImpl) : Prop where
  rank : ∀ a b, G.LeadsTo a b → c.rank b < c.rank a
  edges : ∀ a, (G.allEdges a).length ≤ c.edges

/-- The steps for a push. -/
def pushCost (below : ℕ) : ℕ := 3 + c.edges * (1 + below + groupCost c.edges below)

/-- The steps for a packet that a node receives, by the height of the node. -/
def handlerCost : ℕ → ℕ
  | 0 => 1 + c.pushes * c.pushCost 0
  | h + 1 => 1 + c.pushes * c.pushCost (handlerCost h)

/-- The steps for a packet that a successor of a node receives. -/
def belowCost : ℕ → ℕ
  | 0 => 0
  | h + 1 => c.handlerCost h

/-- The steps for a handler that is called for a packet in a queue. -/
def targetCost (info : PushedPacketInfo) : ℕ :=
  match info.fromNode, info.manualSendToNode with
  | some node, _ => c.belowCost (c.rank node)
  | none, some node => c.handlerCost (c.rank node)
  | none, none => 0

theorem handlerCost_eq (h : ℕ) : c.handlerCost h = 1 + c.pushes * c.pushCost (c.belowCost h) := by
  cases h <;> rfl

theorem pushCost_mono {a b : ℕ} (h : a ≤ b) : c.pushCost a ≤ c.pushCost b := by
  unfold pushCost groupCost batchCost
  gcongr

theorem belowCost_le_succ (h : ℕ) : c.belowCost h ≤ c.belowCost (h + 1) := by
  induction h with
  | zero => exact Nat.zero_le _
  | succ h ih =>
    rw [belowCost, belowCost, handlerCost_eq, handlerCost_eq]
    exact Nat.add_le_add_left (Nat.mul_le_mul_left _ (c.pushCost_mono ih)) 1

/-- A successor of a node takes no more steps than were counted for it. -/
theorem handlerCost_le_belowCost {h h' : ℕ} (hlt : h < h') : c.handlerCost h ≤ c.belowCost h' :=
  monotone_nat_of_le_succ c.belowCost_le_succ (Nat.succ_le_of_lt hlt)

end Costs

namespace DataGraphImpl

variable (G : DataGraphImpl) (c : Costs)

/-- The steps for a dequeued packet. -/
def infoCost (info : PushedPacketInfo) : ℕ :=
  batchCost (G.candidates info).length (c.targetCost info)

/-- The steps for a group that a call has to enqueue to. -/
def callCost (id : ℕ) (call : Call) : ℕ :=
  groupCost (G.candidates (call.info id)).length (c.targetCost (call.info id))

/-- The steps a frame has to make, and those for what it pushes. -/
def frameCost : Frame → ℕ
  | .handlePacket _ node pushes =>
    1 + (c.pushes - pushes) * c.pushCost (c.belowCost (c.rank node))
  | .pushEdges id call edges _ groups =>
    2 + edges.length * (1 + c.targetCost (call.info id) + G.callCost c id call) +
      groups.length * G.callCost c id call
  | .enqueue id call groups => 1 + groups.length * G.callCost c id call
  | .signal id call _ groups => 5 + groups.length * G.callCost c id call
  | .packetReady _ => 0
  | .thrown => 0
  | .crashed => 0

/-- The steps of a running `packetReady`. -/
def readyCost : Option Ready → ℕ
  | none => 0
  | some r => (r.sending.map fun x => 1 + c.targetCost x.1).sum +
      (r.batch.map (G.infoCost c)).sum + if r.finished then 1 else 2

/-- The steps for the packets in a queue. -/
def queueCost (queue : List PushedPacketInfo) : ℕ :=
  (queue.map fun info => 1 + G.infoCost c info).sum

/-- The steps for what is in a thread group. -/
def threadGroupCost (group : ThreadGroup) : ℕ :=
  G.queueCost c group.mPacketQueue + pendingCost group.asyncPending + G.readyCost c group.ready

/-- The steps for a stack. -/
def stackCost (frames : List Frame) : ℕ := (frames.map (G.frameCost c)).sum

/-- How many steps are left at most, for some threads and groups. -/
def cost (T : Finset ThreadId) (gs : Finset String) (s : GraphState) : ℕ :=
  ∑ t ∈ T, G.stackCost c (s.stack t) + ∑ g ∈ gs, G.threadGroupCost c (s.groups g)

variable {G c}

theorem stackCost_cons (f : Frame) (frames : List Frame) :
    G.stackCost c (f :: frames) = G.frameCost c f + G.stackCost c frames := by
  rw [stackCost, List.map_cons, List.sum_cons, stackCost]

/-- Calling a handler takes no more steps than the node is counted for. -/
theorem frameCost_receive (delivery : ℕ) (node : String) :
    G.frameCost c (G.receive delivery node) ≤ c.handlerCost (c.rank node) := by
  unfold receive
  split
  · exact Nat.zero_le _
  · split
    · rw [Costs.handlerCost_eq]
      exact le_rfl
    · exact Nat.zero_le _

/-! ### A push -/

/-- An edge of a channel is one of the edges of the node. -/
theorem mem_allEdges {node channel : String} {e : GraphEdge}
    (he : e ∈ (G.channelEdges node channel).getD []) : (channel, e) ∈ G.allEdges node := by
  have hedges := filter_allEdges (G := G) node channel fun _ => true
  rw [List.filter_true] at hedges
  rw [← hedges] at he
  obtain ⟨x, hx, rfl⟩ := List.mem_map.1 he
  obtain ⟨hx, hchannel⟩ := List.mem_filter.1 hx
  rw [Bool.and_true, beq_iff_eq] at hchannel
  rwa [← hchannel]

/-- What `packetReady` sends a packet to was counted for. -/
theorem handlerCost_le_of_candidate (hc : c.Bound G) {info : PushedPacketInfo} {x : String × Via}
    (hx : x ∈ G.candidates info) : c.handlerCost (c.rank x.2.node) ≤ c.targetCost info := by
  unfold candidates at hx
  unfold Costs.targetCost
  cases hnode : info.fromNode with
  | some node =>
    rw [hnode] at hx
    obtain ⟨y, hy, rfl⟩ := List.mem_map.1 hx
    exact c.handlerCost_le_belowCost (hc.rank node y.2.next ⟨y, hy, rfl⟩)
  | none =>
    cases hmanual : info.manualSendToNode with
    | some node =>
      rw [hnode, hmanual] at hx
      rw [List.mem_singleton.1 hx]
      exact le_rfl
    | none =>
      rw [hnode, hmanual] at hx
      cases hx

/-- What `pushPacket` calls was counted for. -/
theorem handlerCost_le_of_edge (hc : c.Bound G) {call : Call} {e : GraphEdge}
    (he : e ∈ G.edgesOf call) (id : ℕ) :
    c.handlerCost (c.rank e.next) ≤ c.targetCost (call.info id) := by
  unfold edgesOf at he
  cases hkind : call.kind with
  | pushPacket node channel =>
    rw [hkind] at he
    rw [Call.info, hkind]
    exact c.handlerCost_le_belowCost (hc.rank node e.next ⟨_, mem_allEdges he, rfl⟩)
  | sendPacket node =>
    rw [hkind] at he
    cases he

theorem length_channelEdges_le (hc : c.Bound G) (node channel : String) :
    ((G.channelEdges node channel).getD []).length ≤ c.edges := by
  have hedges := filter_allEdges (G := G) node channel fun _ => true
  rw [List.filter_true] at hedges
  rw [← hedges, List.length_map]
  exact (List.length_filter_le _ _).trans (hc.edges node)

/-- **A push takes no more steps than are counted for it.** -/
theorem frameCost_push_lt (hc : c.Bound G) {node channel : String} {edges : List GraphEdge}
    (hedges : G.channelEdges node channel = some edges) (call : Call)
    (hkind : call.kind = .pushPacket node channel) (id : ℕ) :
    G.frameCost c (.pushEdges id call edges [] []) < c.pushCost (c.belowCost (c.rank node)) := by
  have hlength := length_channelEdges_le hc node channel
  rw [hedges, Option.getD_some] at hlength
  have htarget : c.targetCost (call.info id) = c.belowCost (c.rank node) := by
    rw [Call.info, hkind]
    rfl
  have hcandidates : (G.candidates (call.info id)).length ≤ c.edges := by
    rw [Call.info, hkind]
    exact (List.length_map _).trans_le (hc.edges node)
  have hgroup : G.callCost c id call ≤ groupCost c.edges (c.belowCost (c.rank node)) := by
    rw [callCost, htarget]
    unfold groupCost batchCost
    gcongr
  have hmul := Nat.mul_le_mul hlength (Nat.add_le_add_left hgroup (1 + c.belowCost (c.rank node)))
  rw [frameCost, htarget, List.length_nil, Nat.zero_mul, Costs.pushCost]
  omega

/-- A handler that pushes had the steps of the push left. -/
theorem stackCost_notePush (node channel : String) (delivery : ℕ) (rest : List Frame)
    {pushes : ℕ} (hpushes : pushes < c.pushes) :
    G.stackCost c (notePush (.pushPacket node channel)
      (.handlePacket delivery node pushes :: rest)) + c.pushCost (c.belowCost (c.rank node)) =
      G.stackCost c (.handlePacket delivery node pushes :: rest) := by
  have hleft : c.pushes - pushes = c.pushes - (pushes + 1) + 1 := by omega
  rw [notePush, stackCost_cons, stackCost_cons, frameCost, frameCost, hleft, Nat.add_mul]
  omega

/-! ### Lookups -/

theorem groupOf_ne_none {node : String} (h : G.Receives node) : G.groupOf node ≠ none := by
  obtain ⟨inst, hinst, -⟩ := h
  rw [groupOf, hinst]
  exact Option.some_ne_none _

/-- In an implemented graph the loop of `pushPacket` finds the instance of each target. -/
theorem groupOf_ne_none_of_edge (h : G.Implemented) {call : Call} {e : GraphEdge}
    (he : e ∈ G.edgesOf call) : G.groupOf e.next ≠ none := by
  unfold edgesOf at he
  split at he
  · exact groupOf_ne_none (h _ _ ⟨_, mem_allEdges he, rfl⟩)
  · cases he

/-- And so does `packetReady`. -/
theorem lookupThrows_eq_false (h : G.Implemented) {info : PushedPacketInfo} {x : String × Via}
    (hx : x ∈ G.candidates info) : G.lookupThrows x.2 = false := by
  unfold candidates at hx
  split at hx
  · rename_i node _
    obtain ⟨y, hy, rfl⟩ := List.mem_map.1 hx
    have hsome := groupOf_ne_none (h node y.2.next ⟨y, hy, rfl⟩)
    exact Option.isNone_eq_false_iff.2 (Option.isSome_iff_ne_none.2 hsome)
  · obtain ⟨y, hy, rfl⟩ := Option.map_eq_some_iff.1 (Option.mem_toList.1 hx)
    rfl

/-! ### Where something can be -/

variable (G) in
/-- Only these threads run anything, and only these groups are used. -/
structure Within (T : Finset ThreadId) (gs : Finset String) (s : GraphState) : Prop where
  stack : ∀ t, t ∉ T → s.stack t = []
  groups : ∀ g, g ∉ gs → s.groups g = {}
  threads : ∀ g ∈ gs, G.mUvLoopThreadId g ∈ T
  all : ∀ node g, G.groupOf node = some g → g ∈ gs

variable {T : Finset ThreadId} {gs : Finset String} {s s' : GraphState} {t : ThreadId} {g : String}
  {frames rest : List Frame} {f : Frame}

theorem Within.mem_of_stack (h : G.Within T gs s) (hs : s.stack t = f :: rest) : t ∈ T := by
  by_contra ht
  rw [h.stack t ht] at hs
  cases hs

theorem Within.mem_of_ready {r : Ready} (h : G.Within T gs s) (hr : (s.groups g).ready = some r) :
    g ∈ gs := by
  by_contra hg
  rw [h.groups g hg] at hr
  cases hr

theorem Within.mem_of_pending (h : G.Within T gs s) (hp : (s.groups g).asyncPending = true) :
    g ∈ gs := by
  by_contra hg
  rw [h.groups g hg] at hp
  cases hp

theorem exists_groupOf_of_mem_plan {edges : List GraphEdge} {queuedTo : List ThreadId}
    (hg : g ∈ G.plan t edges queuedTo) : ∃ node, G.groupOf node = some g := by
  induction edges generalizing queuedTo with
  | nil => cases hg
  | cons e edges ih =>
    rw [plan] at hg
    split at hg
    · exact ih hg
    · rename_i g' hg'
      split at hg
      · exact ih hg
      · rcases List.mem_cons.1 hg with rfl | hg
        · exact ⟨e.next, hg'⟩
        · exact ih hg

theorem Within.mem_of_queued {call : Call} (h : G.Within T gs s) (hg : g ∈ G.queuedGroups call) :
    g ∈ gs := by
  unfold queuedGroups at hg
  split at hg
  · obtain ⟨node, hnode⟩ := exists_groupOf_of_mem_plan hg
    exact h.all node g hnode
  · exact h.all _ g (Option.mem_toList.1 hg)

theorem Within.update (h : G.Within T gs s) (hstack : s'.stack = Function.update s.stack t frames)
    (ht : t ∈ T) (hgroups : ∀ g, g ∉ gs → s'.groups g = s.groups g) : G.Within T gs s' := by
  refine ⟨fun u hu => ?_, fun g hg => ?_, h.threads, h.all⟩
  · rw [hstack, Function.update_of_ne (ne_of_mem_of_not_mem ht hu).symm]
    exact h.stack u hu
  · rw [hgroups g hg, h.groups g hg]

theorem Within.onGroup {m : ThreadGroup → ThreadGroup} (h : G.Within T gs s) (hg : g ∈ gs) :
    G.Within T gs (s.onGroup g m) := by
  refine ⟨h.stack, fun g' hg' => ?_, h.threads, h.all⟩
  rw [GraphState.onGroup_groups, Function.update_of_ne (ne_of_mem_of_not_mem hg hg').symm]
  exact h.groups g' hg'

end DataGraphImpl

/-- The thread that moves, other than the loop of a group that finds a signal. -/
def Act.thread? : Act → Option ThreadId
  | .pushPacket t .. => some t
  | .sendPacket t .. => some t
  | .run t => some t
  | .dequeue t _ => some t
  | .wake _ => none
  | .ret t => some t
  | .throw t => some t
  | .unwind t _ => some t
  | .destroy => none

namespace DataGraphImpl

variable {G : DataGraphImpl} {T : Finset ThreadId} {gs : Finset String} {s s' : GraphState}
  {a : Act}

theorem Within.step (h : G.Within T gs s) (htraced : G.Traced s)
    (ht : ∀ t, a.thread? = some t → t ∈ T) (hstep : GraphStep G s a s') : G.Within T gs s' := by
  cases hstep with
  | drop => exact h.update rfl (ht _ rfl) fun _ _ => rfl
  | push => exact h.update rfl (ht _ rfl) fun _ _ => rfl
  | send => exact h.update rfl (ht _ rfl) fun _ _ => rfl
  | edgeThrows => exact h.update rfl (ht _ rfl) fun _ _ => rfl
  | edgeDirect => exact h.update rfl (ht _ rfl) fun _ _ => rfl
  | edgeKnown => exact h.update rfl (ht _ rfl) fun _ _ => rfl
  | edgeNew => exact h.update rfl (ht _ rfl) fun _ _ => rfl
  | edgesDone => exact h.update rfl (ht _ rfl) fun _ _ => rfl
  | @enqueue t id call g groups rest hs =>
    obtain ⟨-, hsuffix⟩ := htraced.frames t (.enqueue id call (g :: groups)) (by simp [hs])
    exact (h.onGroup (h.mem_of_queued (hsuffix.subset List.mem_cons_self))).update rfl (ht _ rfl)
      fun _ _ => rfl
  | enqueueDone => exact h.update rfl (ht _ rfl) fun _ _ => rfl
  | @signal t id call g groups rest hs =>
    obtain ⟨-, hsuffix⟩ := htraced.frames t (.signal id call g groups) (by simp [hs])
    exact (h.onGroup (h.mem_of_queued (hsuffix.subset List.mem_cons_self))).update rfl (ht _ rfl)
      fun _ _ => rfl
  | readyThrows => exact h.update rfl (ht _ rfl) fun _ _ => rfl
  | readySends _ hr => exact (h.onGroup (h.mem_of_ready hr)).update rfl (ht _ rfl) fun _ _ => rfl
  | readySkips _ hr => exact h.onGroup (h.mem_of_ready hr)
  | readyNext _ hr => exact h.onGroup (h.mem_of_ready hr)
  | readyDone _ hr => exact (h.onGroup (h.mem_of_ready hr)).update rfl (ht _ rfl) fun _ _ => rfl
  | dequeueNone _ hr => exact h.onGroup (h.mem_of_ready hr)
  | dequeueSome _ hr => exact h.onGroup (h.mem_of_ready hr)
  | wake _ hpending =>
    have hg := h.mem_of_pending hpending
    exact (h.onGroup hg).update rfl (h.threads _ hg) fun _ _ => rfl
  | @wakeDead g =>
    by_cases hg : g ∈ gs
    · exact h.onGroup hg
    · refine ⟨h.stack, fun g' hg' => ?_, h.threads, h.all⟩
      by_cases heq : g' = g
      · rw [heq, GraphState.onGroup_groups, Function.update_self, h.groups g hg]
      · rw [GraphState.onGroup_groups, Function.update_of_ne heq, h.groups g' hg']
  | ret => exact h.update rfl (ht _ rfl) fun _ _ => rfl
  | throw => exact h.update rfl (ht _ rfl) fun _ _ => rfl
  | unwind => exact h.update rfl (ht _ rfl) fun _ _ => rfl
  | destroy => exact ⟨h.stack, h.groups, h.threads, h.all⟩

/-! ### Each step makes the cost smaller -/

variable {c : Costs} {t : ThreadId} {g : String} {frames : List Frame}

/-- A step that changes one stack. -/
theorem cost_lt_of_stack (hstack : s'.stack = Function.update s.stack t frames)
    (hgroups : s'.groups = s.groups) (ht : t ∈ T)
    (hlt : G.stackCost c frames < G.stackCost c (s.stack t)) :
    G.cost c T gs s' < G.cost c T gs s := by
  have hsum := sum_cost_update ht s.stack frames fun _ => G.stackCost c
  rw [cost, cost, hstack, hgroups]
  omega

/-- A step that changes one group. -/
theorem cost_lt_of_group (group : ThreadGroup) (hstack : s'.stack = s.stack)
    (hgroups : s'.groups = Function.update s.groups g group) (hg : g ∈ gs)
    (hlt : G.threadGroupCost c group < G.threadGroupCost c (s.groups g)) :
    G.cost c T gs s' < G.cost c T gs s := by
  have hsum := sum_cost_update hg s.groups group fun _ => G.threadGroupCost c
  rw [cost, cost, hstack, hgroups]
  omega

/-- A step that changes both. -/
theorem cost_lt_of_both (group : ThreadGroup) (hstack : s'.stack = Function.update s.stack t frames)
    (hgroups : s'.groups = Function.update s.groups g group) (ht : t ∈ T) (hg : g ∈ gs)
    (hlt : G.stackCost c frames + G.threadGroupCost c group <
      G.stackCost c (s.stack t) + G.threadGroupCost c (s.groups g)) :
    G.cost c T gs s' < G.cost c T gs s := by
  have hstacks := sum_cost_update ht s.stack frames fun _ => G.stackCost c
  have hsum := sum_cost_update hg s.groups group fun _ => G.threadGroupCost c
  rw [cost, cost, hstack, hgroups]
  omega

/-- The thread of a step of a settling run is one that runs something. -/
theorem Within.mem_of_settling {k : ℕ} (h : G.Within T gs s) (hok : settlingRuns k s a)
    (hstep : GraphStep G s a s') (ht : a.thread? = some t) : t ∈ T := by
  cases hstep with
  | drop | push =>
    obtain rfl := Option.some.inj ht
    obtain ⟨delivery, pushes, rest, hs, -⟩ := hok
    exact h.mem_of_stack hs
  | send | throw | unwind | destroy => exact hok.elim
  | wake | wakeDead => cases ht
  | edgeThrows hs | edgeDirect hs | edgeKnown hs | edgeNew hs | edgesDone hs | enqueue hs
  | enqueueDone hs | signal hs | readyThrows hs | readySends hs | readySkips hs | readyNext hs
  | readyDone hs | dequeueNone hs | dequeueSome hs | ret hs =>
    obtain rfl := Option.some.inj ht
    exact h.mem_of_stack hs

theorem readyCost_sending (r : Ready) {x : PushedPacketInfo × String × Via}
    {sending : List (PushedPacketInfo × String × Via)} (hsending : r.sending = x :: sending) :
    G.readyCost c (some r) = 1 + c.targetCost x.1 + G.readyCost c (some { r with sending }) := by
  rw [readyCost, readyCost, hsending, List.map_cons, List.sum_cons]
  ring

theorem readyCost_next (r : Ready) {info : PushedPacketInfo} {batch : List PushedPacketInfo}
    (hsending : r.sending = []) (hbatch : r.batch = info :: batch) :
    G.readyCost c (some r) = 1 + G.readyCost c
      (some { r with sending := (G.candidates info).map fun x => (info, x), batch }) := by
  have hsum : (((G.candidates info).map fun x => (info, x)).map
      fun x => 1 + c.targetCost x.1).sum =
        (G.candidates info).length * (1 + c.targetCost info) := by
    simp only [List.map_map, Function.comp_def, List.map_const', List.sum_const_nat]
  rw [readyCost, readyCost, hsending, hbatch, hsum, List.map_nil, List.map_cons, List.sum_cons,
    infoCost, batchCost, List.sum_nil]
  ring

theorem threadGroupCost_enqueue (group : ThreadGroup) (info : PushedPacketInfo) :
    G.threadGroupCost c (group.enqueue info) =
      G.threadGroupCost c group + (1 + G.infoCost c info) := by
  rw [threadGroupCost, threadGroupCost, ThreadGroup.enqueue_mPacketQueue, queueCost,
    List.map_append, List.sum_append, List.map_singleton, List.sum_singleton, queueCost]
  change _ + pendingCost group.asyncPending + G.readyCost c group.ready = _
  omega

/-- A group whose `packetReady` goes on. -/
theorem threadGroupCost_ready (group : ThreadGroup) (ready : Option Ready)
    (processed : List PushedPacketInfo) :
    G.threadGroupCost c { group with ready, processed } + G.readyCost c group.ready =
      G.threadGroupCost c group + G.readyCost c ready := by
  simp only [threadGroupCost]
  omega

/-- What `try_dequeue_bulk` takes is paid for by the packets, if there are any. -/
theorem threadGroupCost_take {group : ThreadGroup} {picks : List ℕ}
    {infos queue : List PushedPacketInfo} (hr : group.ready = some {})
    (htake : Bag.takeMany group.mPacketQueue picks = some (infos, queue)) :
    G.threadGroupCost c { group with mPacketQueue := queue, ready := some { batch := infos } } +
      infos.length = G.threadGroupCost c group := by
  have hperm := ((Bag.takeMany_perm htake).map fun info => 1 + G.infoCost c info).sum_eq
  have hinfos : (infos.map fun info => 1 + G.infoCost c info).sum =
      infos.length + (infos.map (G.infoCost c)).sum := by
    simp [List.sum_map_add]
  rw [List.map_append, List.sum_append, hinfos] at hperm
  rw [threadGroupCost, threadGroupCost, hr]
  simp only [readyCost, queueCost, List.map_nil, List.sum_nil]
  omega

/-- `try_dequeue_bulk` takes something, or the loop of `packetReady` ends. -/
theorem ready_of_dequeue {picks : List ℕ} {rest : List Frame} (h : s.dequeue t picks = some s')
    (hs : s.stack t = .packetReady g :: rest) : (s'.groups g).ready ≠ some {} := by
  unfold GraphState.dequeue at h
  rw [hs] at h
  simp only at h
  split at h
  · split at h
    · cases h
      simp [ThreadGroup.setReady]
    · split at h
      · cases h
        simp
      · cases h
    · cases h
  · cases h

/-- **Each step makes the cost smaller.** -/
theorem cost_lt (hc : c.Bound G) (himplemented : G.Implemented) (hw : G.Within T gs s)
    (htraced : G.Traced s) (halive : s.implAlive = true) (hok : settlingRuns c.pushes s a)
    (h : G.machine.step s a = some s') : G.cost c T gs s' < G.cost c T gs s := by
  have hstep := step_cases h
  have hmem : ∀ {u}, a.thread? = some u → u ∈ T := fun hu => hw.mem_of_settling hok hstep hu
  cases hstep with
  | @drop t node channel packet parameters =>
    obtain ⟨delivery, pushes, rest, hs, hpushes⟩ := hok
    have hnote := stackCost_notePush (G := G) node channel delivery rest hpushes
    have hpositive : 0 < c.pushCost (c.belowCost (c.rank node)) := by
      unfold Costs.pushCost
      omega
    refine cost_lt_of_stack rfl rfl (hmem rfl) ?_
    rw [hs, List.nil_append]
    change G.stackCost c (notePush (.pushPacket node channel) _) < _
    omega
  | @push t node channel packet parameters edges _ _ hedges =>
    obtain ⟨delivery, pushes, rest, hs, hpushes⟩ := hok
    have hnote := stackCost_notePush (G := G) node channel delivery rest hpushes
    have hpush := frameCost_push_lt hc hedges (s.pushCall t node channel packet parameters) rfl
      s.calls.length
    refine cost_lt_of_stack rfl rfl (hmem rfl) ?_
    rw [hs, List.singleton_append, stackCost_cons]
    change _ + G.stackCost c (notePush (.pushPacket node channel) _) < _
    omega
  | edgeThrows hs hg =>
    obtain ⟨-, hsuffix, -⟩ := htraced.frames _ _ (by rw [hs]; exact List.mem_cons_self)
    exact absurd hg (groupOf_ne_none_of_edge himplemented (hsuffix.subset List.mem_cons_self))
  | @edgeDirect t id call e edges queuedTo groups rest hs =>
    obtain ⟨-, hsuffix, -⟩ :=
      htraced.frames t (.pushEdges id call (e :: edges) queuedTo groups) (by simp [hs])
    have hbelow := handlerCost_le_of_edge hc (hsuffix.subset List.mem_cons_self) id
    have hreceive := frameCost_receive (G := G) (c := c) s.log.length e.next
    refine cost_lt_of_stack rfl rfl (hmem rfl) ?_
    rw [hs, stackCost_cons, stackCost_cons, stackCost_cons]
    change G.frameCost c (G.receive s.log.length e.next) + _ < _
    rw [frameCost, frameCost, List.length_cons, Nat.succ_mul]
    omega
  | edgeKnown hs =>
    refine cost_lt_of_stack rfl rfl (hmem rfl) ?_
    rw [hs, stackCost_cons, stackCost_cons, frameCost, frameCost, List.length_cons, Nat.succ_mul]
    omega
  | edgeNew hs =>
    refine cost_lt_of_stack rfl rfl (hmem rfl) ?_
    rw [hs, stackCost_cons, stackCost_cons, frameCost, frameCost, List.length_cons, Nat.succ_mul,
      List.length_append, List.length_singleton, Nat.succ_mul]
    omega
  | edgesDone hs =>
    refine cost_lt_of_stack rfl rfl (hmem rfl) ?_
    rw [hs, stackCost_cons, stackCost_cons, frameCost, frameCost, List.length_nil, Nat.zero_mul]
    omega
  | @enqueue t id call g groups rest hs =>
    obtain ⟨-, hsuffix⟩ := htraced.frames t (.enqueue id call (g :: groups)) (by simp [hs])
    have henqueue := threadGroupCost_enqueue (G := G) (c := c) (s.groups g) (call.info id)
    refine cost_lt_of_both ((s.groups g).enqueue (call.info id)) rfl rfl (hmem rfl)
      (hw.mem_of_queued (hsuffix.subset List.mem_cons_self)) ?_
    rw [hs, stackCost_cons, stackCost_cons, frameCost, frameCost, List.length_cons, Nat.succ_mul,
      henqueue, infoCost, callCost, groupCost]
    omega
  | enqueueDone hs =>
    refine cost_lt_of_stack rfl rfl (hmem rfl) ?_
    rw [hs, stackCost_cons, frameCost, List.length_nil, Nat.zero_mul]
    omega
  | @signal t id call g groups rest hs =>
    obtain ⟨-, hsuffix⟩ := htraced.frames t (.signal id call g groups) (by simp [hs])
    refine cost_lt_of_both { s.groups g with asyncPending := true } rfl rfl (hmem rfl)
      (hw.mem_of_queued (hsuffix.subset List.mem_cons_self)) ?_
    rw [hs, stackCost_cons, stackCost_cons, frameCost, frameCost]
    simp only [threadGroupCost, pendingCost]
    omega
  | @readyThrows t g rest r info x sending hs hr hsending hthrows =>
    have hx := ((htraced.groups g).sending r hr (info, x) (by simp [hsending])).2
    rw [lookupThrows_eq_false himplemented hx] at hthrows
    cases hthrows
  | @readySends t g rest r info x sending hs hr hsending hselects =>
    have hx := ((htraced.groups g).sending r hr (info, x) (by simp [hsending])).2
    have hbelow := handlerCost_le_of_candidate hc hx
    have hreceive := frameCost_receive (G := G) (c := c) s.log.length x.2.node
    have hready := threadGroupCost_ready (G := G) (c := c) (s.groups g)
      (some { r with sending }) (s.groups g).processed
    rw [hr, readyCost_sending r hsending] at hready
    refine cost_lt_of_both ((s.groups g).setReady (some { r with sending })) rfl rfl (hmem rfl)
      (hw.mem_of_ready hr) ?_
    rw [hs, stackCost_cons, stackCost_cons, ThreadGroup.setReady]
    change G.frameCost c (G.receive s.log.length x.2.node) + _ + _ < _
    change c.handlerCost (c.rank x.2.node) ≤ _ at hbelow
    omega
  | @readySkips t g rest r info x sending hs hr hsending =>
    have hready := threadGroupCost_ready (G := G) (c := c) (s.groups g)
      (some { r with sending }) (s.groups g).processed
    rw [hr, readyCost_sending r hsending] at hready
    refine cost_lt_of_group ((s.groups g).setReady (some { r with sending })) rfl rfl
      (hw.mem_of_ready hr) ?_
    rw [ThreadGroup.setReady]
    omega
  | @readyNext t g rest r info batch hs hr hsending hbatch =>
    have hready := threadGroupCost_ready (G := G) (c := c) (s.groups g)
      (some { r with sending := (G.candidates info).map fun x => (info, x), batch })
      ((s.groups g).processed ++ [info])
    rw [hr, readyCost_next r hsending hbatch] at hready
    refine cost_lt_of_group { s.groups g with
      ready := some { r with sending := (G.candidates info).map fun x => (info, x), batch }
      processed := (s.groups g).processed ++ [info] } rfl rfl (hw.mem_of_ready hr) ?_
    dsimp only
    omega
  | @readyDone t g rest r hs hr hsending hbatch hfinished =>
    have hready := threadGroupCost_ready (G := G) (c := c) (s.groups g) none
      (s.groups g).processed
    rw [hr, readyCost, readyCost, hfinished, if_pos rfl] at hready
    refine cost_lt_of_both ((s.groups g).setReady none) rfl rfl (hmem rfl) (hw.mem_of_ready hr) ?_
    rw [hs, stackCost_cons, frameCost, ThreadGroup.setReady]
    omega
  | @dequeueNone t picks g rest hs hr hqueue =>
    have hready := threadGroupCost_ready (G := G) (c := c) (s.groups g)
      (some { finished := true }) (s.groups g).processed
    rw [hr] at hready
    change _ + 2 = _ + 1 at hready
    refine cost_lt_of_group ((s.groups g).setReady (some { finished := true })) rfl rfl
      (hw.mem_of_ready hr) ?_
    rw [ThreadGroup.setReady]
    omega
  | @dequeueSome t picks g rest infos queue hs hr htake =>
    have htaken := threadGroupCost_take (G := G) (c := c) hr htake
    have hinfos : infos ≠ [] := by
      rintro rfl
      exact ready_of_dequeue h hs (by simp)
    have hlength := List.length_pos_iff.2 hinfos
    refine cost_lt_of_group { s.groups g with
      mPacketQueue := queue, ready := some { batch := infos } } rfl rfl (hw.mem_of_ready hr) ?_
    dsimp only
    omega
  | @wake g hidle hpending hr =>
    have hg := hw.mem_of_pending hpending
    refine cost_lt_of_both { s.groups g with asyncPending := false, ready := some {} } rfl rfl
      (hw.threads g hg) hg ?_
    rw [hidle, stackCost_cons, frameCost]
    simp only [threadGroupCost, hr, hpending]
    change 0 + 0 + (_ + 0 + 2) < 0 + (_ + 3 + 0)
    omega
  | wakeDead hdead =>
    rw [halive] at hdead
    cases hdead
  | ret hs =>
    refine cost_lt_of_stack rfl rfl (hmem rfl) ?_
    rw [hs, stackCost_cons, frameCost]
    omega
  | send | throw | unwind | destroy => exact hok.elim

end DataGraphImpl

/-! ### Sound states -/

/-- The groups whose `packetReady` is on a stack. -/
def readyGroups (frames : List Frame) : List String :=
  frames.filterMap fun f => match f with
    | .packetReady g => some g
    | _ => none

/-- The frame of code that goes on. -/
def Frame.GoesOn : Frame → Prop
  | .thrown => False
  | .crashed => False
  | _ => True

/-- Nothing has been thrown, and the loops that are in `packetReady` are those that have it on their
stacks. -/
structure GraphState.Sound (G : DataGraphImpl) (s : GraphState) : Prop where
  implAlive : s.implAlive = true
  goesOn : ∀ t, ∀ f ∈ s.stack t, f.GoesOn
  ready : ∀ g, (readyGroups (s.stack (G.mUvLoopThreadId g))).count g =
    if (s.groups g).ready.isSome then 1 else 0
  sent : ∀ call ∈ s.calls, ∀ node, call.kind = .sendPacket node → G.Receives node

namespace GraphState

variable {G : DataGraphImpl} {s s' : GraphState} {t : ThreadId} {frames : List Frame}

theorem readyGroups_notePush (kind : CallKind) (frames : List Frame) :
    readyGroups (notePush kind frames) = readyGroups frames := by
  unfold notePush
  split <;> rfl

theorem goesOn_notePush {kind : CallKind} {frames : List Frame} (h : ∀ f ∈ frames, f.GoesOn) :
    ∀ f ∈ notePush kind frames, f.GoesOn := by
  unfold notePush
  split
  · exact List.forall_mem_cons.2 ⟨trivial, (List.forall_mem_cons.1 h).2⟩
  · exact h

theorem receive_eq {node : String} (h : G.Receives node) (delivery : ℕ) :
    G.receive delivery node = .handlePacket delivery node 0 := by
  obtain ⟨inst, hinst, himplementation⟩ := h
  rw [DataGraphImpl.receive, hinst, Option.bind_some, himplementation]
  rfl

/-- What a call has to deliver to can receive it. -/
theorem Sound.receives_of_vias (h : s.Sound G) (himplemented : G.Implemented) {call : Call}
    (hcall : call ∈ s.calls) {via : Via} (hvia : via ∈ G.vias call) : G.Receives via.node := by
  unfold DataGraphImpl.vias at hvia
  split at hvia
  · rename_i node channel hkind
    obtain ⟨e, he, rfl⟩ := List.mem_map.1 hvia
    rw [DataGraphImpl.edgesOf, hkind] at he
    exact himplemented node e.next ⟨_, DataGraphImpl.mem_allEdges he, rfl⟩
  · rename_i node hkind
    rw [List.mem_singleton.1 hvia]
    exact h.sent call hcall node hkind

/-- One stack changes, and `packetReady` stays where it is. -/
theorem Sound.update (h : s.Sound G) (hstack : s'.stack = Function.update s.stack t frames)
    (hready : ∀ g, (s'.groups g).ready.isSome = (s.groups g).ready.isSome)
    (hcalls : s'.calls = s.calls) (halive : s'.implAlive = s.implAlive)
    (hgoes : ∀ f ∈ frames, f.GoesOn) (hgroups : readyGroups frames = readyGroups (s.stack t)) :
    s'.Sound G := by
  refine ⟨halive ▸ h.implAlive, fun u f hf => ?_, fun g => ?_, hcalls ▸ h.sent⟩
  · rw [hstack] at hf
    by_cases hu : u = t
    · rw [hu, Function.update_self] at hf
      exact hgoes f hf
    · rw [Function.update_of_ne hu] at hf
      exact h.goesOn u f hf
  · rw [hready, ← h.ready g, hstack]
    by_cases hu : G.mUvLoopThreadId g = t
    · rw [hu, Function.update_self, hgroups]
    · rw [Function.update_of_ne hu]

theorem Sound.onGroup (h : s.Sound G) {g : String} {m : ThreadGroup → ThreadGroup}
    (hready : (m (s.groups g)).ready.isSome = (s.groups g).ready.isSome) :
    (s.onGroup g m).Sound G := by
  refine ⟨h.implAlive, h.goesOn, fun g' => ?_, h.sent⟩
  rw [onGroup_stack, h.ready g', onGroup_groups]
  by_cases hg : g' = g
  · rw [hg, Function.update_self, hready]
  · rw [Function.update_of_ne hg]

/-- A new call. -/
theorem Sound.beginCall (h : s.Sound G) {call : Call} (hgoes : ∀ f ∈ frames, f.GoesOn)
    (hgroups : readyGroups frames = [])
    (hsent : ∀ node, call.kind = .sendPacket node → G.Receives node) :
    (s.beginCall t call frames).Sound G := by
  have hstack : ({ s with calls := s.calls ++ [call] } : GraphState).Sound G := by
    refine ⟨h.implAlive, h.goesOn, h.ready, fun c hc => ?_⟩
    rcases List.mem_append.1 hc with hc | hc
    · exact h.sent c hc
    · rw [List.mem_singleton.1 hc]
      exact hsent
  refine hstack.update (t := t) rfl (fun _ => rfl) rfl rfl ?_ ?_
  · intro f hf
    rcases List.mem_append.1 hf with hf | hf
    · exact hgoes f hf
    · exact goesOn_notePush (h.goesOn t) f hf
  · rw [readyGroups, List.filterMap_append, ← readyGroups, ← readyGroups, hgroups, List.nil_append,
      readyGroups_notePush]

/-- A delivery to a node that can receive it. -/
theorem Sound.deliver (h : s.Sound G) {callId : ℕ} {packet : Packet} {via : Via}
    (hreceives : G.Receives via.node) (hgoes : ∀ f ∈ frames, f.GoesOn)
    (hgroups : readyGroups frames = readyGroups (s.stack t)) :
    (G.sendPacketToNode s t callId packet via frames).Sound G := by
  refine h.update rfl (fun _ => rfl) rfl rfl ?_ ?_
  · rw [receive_eq hreceives]
    exact List.forall_mem_cons.2 ⟨trivial, hgoes⟩
  · rw [receive_eq hreceives]
    exact hgroups

/-- **Steps of sound runs keep a state sound.** -/
theorem Sound.step (h : s.Sound G) (himplemented : G.Implemented) (htraced : G.Traced s) {a : Act}
    (hok : soundRuns G s a) (hstep : GraphStep G s a s') : s'.Sound G := by
  have hrest : ∀ {t f rest}, s.stack t = f :: rest → ∀ f ∈ rest, f.GoesOn := fun hs f hf =>
    h.goesOn _ f (hs ▸ List.mem_cons_of_mem _ hf)
  cases hstep with
  | drop => exact h.beginCall nofun rfl nofun
  | push => exact h.beginCall (List.forall_mem_singleton.2 trivial) rfl nofun
  | @send t packet toNode g hcan hg =>
    refine h.beginCall (List.forall_mem_singleton.2 trivial) rfl fun node hnode => ?_
    cases hnode
    exact hok
  | edgeThrows hs hg =>
    obtain ⟨-, hsuffix, -⟩ := htraced.frames _ _ (by rw [hs]; exact List.mem_cons_self)
    exact absurd hg (DataGraphImpl.groupOf_ne_none_of_edge himplemented
      (hsuffix.subset List.mem_cons_self))
  | @edgeDirect t id call e edges queuedTo groups rest hs hdirect =>
    obtain ⟨⟨hcall, -⟩, hsuffix, -⟩ :=
      htraced.frames t (.pushEdges id call (e :: edges) queuedTo groups) (by simp [hs])
    have he := hsuffix.subset (List.mem_cons_self (a := e))
    have hvia : Via.edge e ∈ G.vias call := by
      unfold DataGraphImpl.vias
      split
      · exact List.mem_map_of_mem he
      · rename_i hkind
        rw [DataGraphImpl.edgesOf, hkind] at he
        cases he
    refine h.deliver (h.receives_of_vias himplemented (List.mem_of_getElem? hcall) hvia)
      (List.forall_mem_cons.2 ⟨trivial, hrest hs⟩) ?_
    rw [hs]
    rfl
  | edgeKnown hs | edgeNew hs | edgesDone hs =>
    exact h.update rfl (fun _ => rfl) rfl rfl (List.forall_mem_cons.2 ⟨trivial, hrest hs⟩)
      (by rw [hs]; rfl)
  | enqueue hs | signal hs =>
    exact (h.onGroup rfl).update rfl (fun _ => rfl) rfl rfl
      (List.forall_mem_cons.2 ⟨trivial, hrest hs⟩) (by rw [onGroup_stack, hs]; rfl)
  | enqueueDone hs | ret hs =>
    exact h.update rfl (fun _ => rfl) rfl rfl (hrest hs) (by rw [hs]; rfl)
  | @readyThrows t g rest r info x sending hs hr hsending hthrows =>
    have hx := ((htraced.groups g).sending r hr (info, x) (by simp [hsending])).2
    rw [DataGraphImpl.lookupThrows_eq_false himplemented hx] at hthrows
    cases hthrows
  | @readySends t g rest r info x sending hs hr hsending hselects =>
    obtain ⟨hentry, hx⟩ := (htraced.groups g).sending r hr (info, x) (by simp [hsending])
    obtain rfl : t = G.mUvLoopThreadId g := htraced.frames t (.packetReady g) (by simp [hs])
    obtain ⟨call, hcall, -, hvia, -⟩ :=
      DataGraphImpl.deliveryOk_of_selects hentry hx hselects
    have hgroup : (s.onGroup g fun group =>
        group.setReady (some { r with sending })).Sound G := h.onGroup (by rw [hr]; rfl)
    refine hgroup.deliver
      (hgroup.receives_of_vias himplemented (List.mem_of_getElem? hcall) hvia)
      (List.forall_mem_cons.2 ⟨trivial, hrest hs⟩) ?_
    rw [onGroup_stack, hs]
  | readySkips hs hr | readyNext hs hr | dequeueNone hs hr | dequeueSome hs hr =>
    exact h.onGroup (by rw [hr]; rfl)
  | @readyDone t g rest r hs hr =>
    obtain rfl : t = G.mUvLoopThreadId g := htraced.frames t (.packetReady g) (by simp [hs])
    refine ⟨h.implAlive, fun u f hf => ?_, fun g' => ?_, h.sent⟩
    · by_cases hu : u = G.mUvLoopThreadId g
      · rw [hu, setStack_stack, Function.update_self] at hf
        exact hrest hs f hf
      · rw [setStack_stack, Function.update_of_ne hu] at hf
        exact h.goesOn u f hf
    · have hready := h.ready g'
      rw [setStack_stack, setStack_groups, onGroup_groups, onGroup_stack]
      by_cases hg : g' = g
      · subst hg
        rw [hs, hr] at hready
        rw [Function.update_self, Function.update_self]
        have hcount : (readyGroups (.packetReady g' :: rest)).count g' =
            (readyGroups rest).count g' + 1 := List.count_cons_self
        rw [hcount] at hready
        simpa [ThreadGroup.setReady] using hready
      · rw [Function.update_of_ne hg, ← hready]
        by_cases hu : G.mUvLoopThreadId g' = G.mUvLoopThreadId g
        · rw [hu, Function.update_self, hs]
          exact (List.count_cons_of_ne (Ne.symm hg)).symm
        · rw [Function.update_of_ne hu]
  | @wake g hidle hpending hr =>
    refine ⟨h.implAlive, fun u f hf => ?_, fun g' => ?_, h.sent⟩
    · by_cases hu : u = G.mUvLoopThreadId g
      · rw [hu, setStack_stack, Function.update_self] at hf
        rw [List.mem_singleton.1 hf]
        trivial
      · rw [setStack_stack, Function.update_of_ne hu] at hf
        exact h.goesOn u f hf
    · have hready := h.ready g'
      rw [setStack_stack, setStack_groups, onGroup_groups, onGroup_stack]
      by_cases hg : g' = g
      · subst hg
        rw [Function.update_self, Function.update_self]
        exact List.count_cons_self
      · rw [Function.update_of_ne hg, ← hready]
        by_cases hu : G.mUvLoopThreadId g' = G.mUvLoopThreadId g
        · rw [hu, Function.update_self, hidle]
          exact List.count_cons_of_ne (Ne.symm hg)
        · rw [Function.update_of_ne hu]
  | wakeDead hdead =>
    rw [h.implAlive] at hdead
    cases hdead
  | throw | unwind | destroy => exact hok.elim

/-- `packetReady` on a stack has its locals. -/
theorem Sound.ready_of_mem (h : s.Sound G) (htraced : G.Traced s) {g : String}
    (hmem : Frame.packetReady g ∈ s.stack t) : ∃ r, (s.groups g).ready = some r := by
  obtain rfl : t = G.mUvLoopThreadId g := htraced.frames t _ hmem
  have hready := h.ready g
  have hpos : 0 < (readyGroups (s.stack (G.mUvLoopThreadId g))).count g :=
    List.count_pos_iff.2 (List.mem_filterMap.2 ⟨_, hmem, rfl⟩)
  rw [hready] at hpos
  split at hpos
  · exact Option.isSome_iff_exists.1 ‹_›
  · cases hpos

end GraphState

/-! ### Coming to rest -/

open DataGraphImpl

variable {G : DataGraphImpl} {s₀ s s' : GraphState} {k : ℕ} {t : ThreadId}

/-- `packetReady` goes on until its loop has ended. -/
theorem runReady_isSome {g : String} {r : Ready} {rest : List Frame}
    (h : r.sending = [] → r.batch = [] → r.finished = true) :
    (G.runReady s t g r rest).isSome = true := by
  unfold DataGraphImpl.runReady
  split
  · split_ifs <;> rfl
  · rfl
  · rename_i hsending hbatch
    rw [if_pos (h hsending hbatch)]
    rfl

/-- `try_dequeue_bulk` can be called on every queue. -/
theorem exists_dequeue {g : String} {rest : List Frame} (hs : s.stack t = .packetReady g :: rest)
    (hr : (s.groups g).ready = some {}) : ∃ picks, (s.dequeue t picks).isSome = true := by
  cases hqueue : (s.groups g).mPacketQueue with
  | nil =>
    refine ⟨[], ?_⟩
    simp [GraphState.dequeue, hs, hr, hqueue, Bag.takeMany]
  | cons info queue =>
    refine ⟨[0], ?_⟩
    simp [GraphState.dequeue, hs, hr, hqueue, Bag.takeMany, kMaxDequeueAtOnce]

/-- The graph's own code may always go on, and handlers can. -/
structure GoesOn (G : DataGraphImpl) (ok : GraphState → Act → Prop) (s : GraphState) : Prop where
  run : ∀ t, ok s (.run t)
  dequeue : ∀ t picks, ok s (.dequeue t picks)
  wake : ∀ g, ok s (.wake g)
  handler : ∀ t delivery node pushes rest, s.stack t = .handlePacket delivery node pushes :: rest →
    ∃ a, ok s a ∧ (G.machine.step s a).isSome = true

/-- **Code that is on a stack can go on.** -/
theorem exists_step_of_stack {ok : GraphState → Act → Prop} (hok : GoesOn G ok s) (h : s.Sound G)
    (htraced : G.Traced s) {f : Frame} {rest : List Frame} (hs : s.stack t = f :: rest) :
    ∃ a, ok s a ∧ (G.machine.step s a).isSome = true := by
  have hgoes := h.goesOn t f (by simp [hs])
  cases f with
  | handlePacket delivery node pushes => exact hok.handler t delivery node pushes rest hs
  | pushEdges id call edges queuedTo groups =>
    refine ⟨.run t, hok.run t, ?_⟩
    cases edges <;> simp [machine, DataGraphImpl.run, hs]
  | enqueue id call groups =>
    refine ⟨.run t, hok.run t, ?_⟩
    cases groups <;> simp [machine, DataGraphImpl.run, hs]
  | signal id call g groups =>
    exact ⟨.run t, hok.run t, by simp [machine, DataGraphImpl.run, hs]⟩
  | packetReady g =>
    obtain ⟨r, hr⟩ := h.ready_of_mem htraced (t := t) (g := g) (by simp [hs])
    by_cases hends : r.sending = [] → r.batch = [] → r.finished = true
    · refine ⟨.run t, hok.run t, ?_⟩
      simp only [machine, DataGraphImpl.run, hs, hr]
      exact runReady_isSome hends
    · obtain ⟨sending, batch, finished⟩ := r
      push Not at hends
      obtain ⟨rfl, rfl, hfinished⟩ := hends
      obtain rfl : finished = false := by simpa using hfinished
      obtain ⟨picks, hpicks⟩ := exists_dequeue hs hr
      exact ⟨.dequeue t picks, hok.dequeue t picks, hpicks⟩
  | thrown => exact hgoes.elim
  | crashed => exact hgoes.elim

/-- A loop that has been signalled can call `packetReady`. -/
theorem exists_step_of_pending {ok : GraphState → Act → Prop} (hok : GoesOn G ok s)
    (h : s.Sound G) {g : String} (hidle : s.stack (G.mUvLoopThreadId g) = [])
    (hpending : (s.groups g).asyncPending = true) :
    ∃ a, ok s a ∧ (G.machine.step s a).isSome = true := by
  have hready := h.ready g
  rw [hidle] at hready
  have hnone : (s.groups g).ready.isSome = false := by
    by_contra hsome
    rw [Bool.not_eq_false] at hsome
    rw [if_pos hsome] at hready
    cases hready
  refine ⟨.wake g, hok.wake g, ?_⟩
  simp only [machine, DataGraphImpl.wake, hidle, hpending, h.implAlive,
    Option.isSome_eq_false_iff.1 hnone]
  rfl

/-- **When nothing can go on, nothing is in flight.** -/
theorem atRest_of_stuck {ok : GraphState → Act → Prop} (hok : GoesOn G ok s) (h : s.Sound G)
    (htraced : G.Traced s) (harmed : ∀ g, (s.groups g).mPacketQueue ≠ [] → s.Armed g)
    (hstuck : G.machine.Stuck ok s) : s.AtRest := by
  have hno : ¬ ∃ a, ok s a ∧ (G.machine.step s a).isSome = true := by
    rintro ⟨a, ha, hsome⟩
    obtain ⟨s', hs'⟩ := Option.isSome_iff_exists.1 hsome
    exact hstuck a s' ha hs'
  have hstack : ∀ t, s.stack t = [] := by
    intro t
    cases hs : s.stack t with
    | nil => rfl
    | cons f rest => exact absurd (exists_step_of_stack hok h htraced hs) hno
  have hready : ∀ g, (s.groups g).ready = none := by
    intro g
    have hcount := h.ready g
    rw [hstack] at hcount
    cases hr : (s.groups g).ready with
    | none => rfl
    | some r =>
      rw [hr] at hcount
      cases hcount
  have hpending : ∀ g, (s.groups g).asyncPending = false := fun g => by
    by_contra hpending
    exact hno (exists_step_of_pending hok h (hstack _) (by simpa using hpending))
  refine ⟨hstack, fun g => ?_, hready, hpending⟩
  by_contra hqueue
  rcases harmed g hqueue with hp | ⟨t, f, hf, -⟩ | ⟨r, hr, -⟩
  · rw [hpending g] at hp
    cases hp
  · rw [hstack t] at hf
    cases hf
  · rw [hready g] at hr
    cases hr

/-- At rest, every call is settled. -/
theorem settled_of_atRest (h : s.AtRest) (i : ℕ) (call : Call) : s.Settled G i call := by
  refine ⟨fun f hf => ?_, fun g _ info hinfo => ?_, fun g _ info hinfo => ?_, fun g _ x hx => ?_⟩
  · rw [h.stack] at hf
    cases hf
  · rw [h.queue] at hinfo
    cases hinfo
  · rw [ThreadGroup.batch, h.ready] at hinfo
    cases hinfo
  · rw [ThreadGroup.sending, h.ready] at hx
    cases hx

/-- And has made its deliveries. -/
theorem delivered_of_atRest (h₀ : s₀.Idle) (h : G.machine.Reachable quietRuns s₀ s)
    (hrest : s.AtRest) {i : ℕ} {call : Call} (hcall : s.calls[i]? = some call) :
    (delivered i s.log).Perm (G.vias call) := by
  refine List.perm_iff_count.2 fun v => ?_
  rw [← accounted_of_reachable h₀ h i call hcall v,
    account_of_settled (settled_of_atRest hrest i call)]

/-! ### Bounds for a graph -/

namespace DataGraphImpl

variable (G) in
/-- The groups that handle packets. -/
def groupNames : Finset String :=
  (G.mInstances.entries.map fun entry => entry.2.mThreadGroupName).toFinset

theorem mem_groupNames {node g : String} (h : G.groupOf node = some g) : g ∈ G.groupNames := by
  obtain ⟨inst, hinst, rfl⟩ := Option.map_eq_some_iff.1 h
  obtain ⟨n, -, hn⟩ := Option.bind_eq_some_iff.1 hinst
  unfold getInstanceForGraphNode at hn
  split at hn
  · cases hn
  · split at hn
    · cases hn
    · rename_i inst' hlookup
      obtain rfl : inst' = inst := Option.some.inj hn
      rw [groupNames, List.mem_toFinset]
      exact List.mem_map.2 ⟨_, AList.mem_lookup_iff.1 hlookup, rfl⟩

/-- Only finitely many threads and groups are ever used. -/
theorem exists_within {ok : GraphState → Act → Prop} (h₀ : s₀.Idle)
    (h : G.machine.Reachable ok s₀ s) : ∃ T, G.Within T G.groupNames s := by
  have hinv : G.Traced s ∧ ∃ T, G.Within T G.groupNames s := by
    refine h.invariant (I := fun s => G.Traced s ∧ ∃ T, G.Within T G.groupNames s)
      ⟨traced_of_idle h₀, G.groupNames.image G.mUvLoopThreadId, fun t _ => h₀.stack t,
        fun g _ => h₀.groups g, fun g hg => Finset.mem_image_of_mem _ hg,
        fun node g hg => mem_groupNames hg⟩ ?_
    rintro u a u' ⟨htraced, T, hT⟩ - hs
    have hstep := step_cases hs
    refine ⟨htraced.step hstep, T ∪ a.thread?.toList.toFinset, ?_⟩
    have hmore : G.Within (T ∪ a.thread?.toList.toFinset) G.groupNames u :=
      ⟨fun t ht => hT.stack t fun hmem => ht (Finset.mem_union_left _ hmem), hT.groups,
        fun g hg => Finset.mem_union_left _ (hT.threads g hg), hT.all⟩
    refine hmore.step htraced (fun t ht => Finset.mem_union_right _ ?_) hstep
    simp [ht]
  exact hinv.2

variable (G) in
/-- The nodes that edges lead to. -/
def targets : Finset String :=
  (G.mGraph.entries.flatMap fun entry => (G.allEdges entry.1).map fun x => x.2.next).toFinset

theorem exists_entry_of_mem_allEdges {node : String} {x : String × GraphEdge}
    (hx : x ∈ G.allEdges node) :
    ∃ n, (⟨node, n⟩ : Sigma fun _ => GraphNode) ∈ G.mGraph.entries := by
  unfold allEdges at hx
  split at hx
  · cases hx
  · exact ⟨_, AList.mem_lookup_iff.1 ‹_›⟩

theorem mem_targets {a b : String} (h : G.LeadsTo a b) : b ∈ G.targets := by
  obtain ⟨x, hx, rfl⟩ := h
  obtain ⟨n, hn⟩ := exists_entry_of_mem_allEdges hx
  rw [targets, List.mem_toFinset]
  exact List.mem_flatMap.2 ⟨_, hn, List.mem_map_of_mem hx⟩

/-- A graph without cycles has heights, and finitely many edges. -/
theorem exists_costs (h : G.Acyclic) (k : ℕ) : ∃ c : Costs, c.pushes = k ∧ c.Bound G := by
  refine ⟨⟨height G.LeadsTo G.targets, k,
    (G.mGraph.entries.map fun entry => (G.allEdges entry.1).length).sum⟩, rfl, ?_, ?_⟩
  · exact fun a b hab => (height_lt h (fun _ _ => mem_targets) hab :
      height G.LeadsTo G.targets b < height G.LeadsTo G.targets a)
  · intro a
    by_cases hnil : G.allEdges a = []
    · rw [hnil]
      exact Nat.zero_le _
    · obtain ⟨x, hx⟩ := List.exists_mem_of_ne_nil _ hnil
      obtain ⟨n, hn⟩ := exists_entry_of_mem_allEdges hx
      exact List.le_sum_of_mem (List.mem_map.2 ⟨_, hn, rfl⟩)

end DataGraphImpl

/-! ### Everything is delivered -/

theorem quiet_of_sound {a : Act} (h : soundRuns G s a) : quietRuns s a := by
  cases a with
  | throw | unwind | destroy => exact h.elim
  | _ => rfl

theorem sound_of_settling {a : Act} (h : settlingRuns k s a) : soundRuns G s a := by
  cases a with
  | sendPacket | throw | unwind | destroy => exact h.elim
  | _ => trivial

/-- In settling runs a handler may return at any time. -/
theorem goesOn_settling : GoesOn G (settlingRuns k) s where
  run _ := trivial
  dequeue _ _ := trivial
  wake _ := trivial
  handler t _ _ _ _ hs := ⟨.ret t, trivial, by simp [machine, hs]⟩

theorem sound_of_reachable (himplemented : G.Implemented) (h₀ : s₀.Idle)
    (h : G.machine.Reachable (soundRuns G) s₀ s) : s.Sound G := by
  have hinv : G.Traced s ∧ s.Sound G := by
    refine h.invariant (I := fun s => G.Traced s ∧ s.Sound G) ⟨traced_of_idle h₀, ?_⟩
      fun u a u' hu hok hs =>
        ⟨hu.1.step (step_cases hs), hu.2.step himplemented hu.1 hok (step_cases hs)⟩
    refine ⟨h₀.implAlive, fun t f hf => ?_, fun g => ?_, fun call hcall => ?_⟩
    · rw [h₀.stack] at hf
      cases hf
    · rw [h₀.stack, h₀.groups]
      rfl
    · rw [h₀.calls] at hcall
      cases hcall
  exact hinv.2

/-- **What is pushed is delivered.**  From any state of a graph without cycles, once nothing more
comes from outside and each handler pushes at most `k` packets: the runs are bounded, and when one
cannot go on, nothing is in flight, and every call that has ever been made has made each of its
deliveries once. -/
theorem delivered_at_rest (hacyclic : G.Acyclic) (himplemented : G.Implemented) (h₀ : s₀.Idle)
    (h : G.machine.Reachable (soundRuns G) s₀ s) (k : ℕ) :
    (∃ n, ∀ acts s', G.machine.Run (settlingRuns k) s acts s' → acts.length ≤ n) ∧
    (∃ s', G.machine.Reachable (settlingRuns k) s s' ∧ G.machine.Stuck (settlingRuns k) s') ∧
    ∀ s', G.machine.Reachable (settlingRuns k) s s' → G.machine.Stuck (settlingRuns k) s' →
      s'.AtRest ∧ ∀ i call, s'.calls[i]? = some call →
        (delivered i s'.log).Perm (G.vias call) := by
  obtain ⟨c, rfl, hc⟩ := exists_costs hacyclic k
  obtain ⟨T, hT⟩ := exists_within h₀ h
  have hdecreases : G.machine.Decreases (settlingRuns c.pushes)
      (fun s => G.Traced s ∧ s.Sound G ∧ G.Within T G.groupNames s) (G.cost c T G.groupNames) := by
    rintro u a u' ⟨htraced, hsound, hw⟩ hok hs
    have hstep := step_cases hs
    exact ⟨⟨htraced.step hstep, hsound.step himplemented htraced (sound_of_settling hok) hstep,
      hw.step htraced (fun t ht => hw.mem_of_settling hok hstep ht) hstep⟩,
      cost_lt hc himplemented hw htraced hsound.implAlive hok hs⟩
  have hs : G.Traced s ∧ s.Sound G ∧ G.Within T G.groupNames s :=
    ⟨traced_of_reachable h₀ h, sound_of_reachable himplemented h₀ h, hT⟩
  refine ⟨⟨G.cost c T G.groupNames s, fun acts s' hrun => ?_⟩, hdecreases.exists_stuck hs, ?_⟩
  · have := (hdecreases.length_add_le hs hrun).2
    omega
  · intro s' hs' hstuck
    have hreachable : G.machine.Reachable (soundRuns G) s₀ s' :=
      h.trans (hs'.mono fun _ _ => sound_of_settling)
    have hquiet := hreachable.mono fun _ _ => quiet_of_sound
    have hsound := sound_of_reachable himplemented h₀ hreachable
    have hrest := atRest_of_stuck goesOn_settling hsound (traced_of_reachable h₀ hreachable)
      (fun g hqueue => armed_of_reachable h₀ hquiet hsound.implAlive hqueue) hstuck
    exact ⟨hrest, fun i call hcall => delivered_of_atRest h₀ hquiet hrest hcall⟩

/-! ### An example -/

/-- Edges that make a rank smaller make no cycle. -/
theorem acyclic_of_rank (rank : String → ℕ) (h : ∀ a b, G.LeadsTo a b → rank b < rank a) :
    G.Acyclic := by
  have hlt : ∀ a b, Relation.TransGen G.LeadsTo a b → rank b < rank a := by
    intro a b hab
    induction hab with
    | single hab => exact h _ _ hab
    | tail _ hbc ih => exact (h _ _ hbc).trans ih
  exact fun a ha => (hlt a a ha).false

/-- What holds of the edges of all nodes. -/
theorem forall_leadsTo {P : String → String → Prop}
    (h : ∀ entry ∈ G.mGraph.entries, ∀ x ∈ G.allEdges entry.1, P entry.1 x.2.next) :
    ∀ a b, G.LeadsTo a b → P a b := by
  rintro a b ⟨x, hx, rfl⟩
  obtain ⟨n, hn⟩ := exists_entry_of_mem_allEdges hx
  exact h _ hn x hx

theorem relayGraph_acyclic : relayGraph.Acyclic :=
  acyclic_of_rank (fun node => if node = "source" then 2 else if node = "middle" then 1 else 0)
    (forall_leadsTo (by decide))

theorem relayGraph_receives {node : String}
    (h : node = "source" ∨ node = "middle" ∨ node = "sink") : relayGraph.Receives node := by
  rcases h with rfl | rfl | rfl
  · exact ⟨_, rfl, rfl⟩
  · exact ⟨_, rfl, rfl⟩
  · exact ⟨_, rfl, rfl⟩

theorem relayGraph_implemented : relayGraph.Implemented := fun a b hab =>
  relayGraph_receives (forall_leadsTo (P := fun _ b => b = "source" ∨ b = "middle" ∨ b = "sink")
    (by decide) a b hab)

/-- The steps of the relay. -/
def relayRuns : Act → Bool
  | .sendPacket _ _ toNode => toNode == "source"
  | a => a.quiet && !(a matches .destroy)

theorem sound_of_relayRuns {a : Act} (h : relayRuns a = true) : soundRuns relayGraph s a := by
  cases a with
  | sendPacket t packet toNode => exact relayGraph_receives (.inl (by simpa [relayRuns] using h))
  | throw | unwind | destroy => cases h
  | _ => trivial

/-- The state in which the handler of `sink` is running. -/
def sinkState : GraphState :=
  (relayGraph.machine.exec (fun _ a => relayRuns a) startState relaySchedule).getD startState

theorem sinkState_reachable :
    relayGraph.machine.Reachable (soundRuns relayGraph) startState sinkState := by
  have h : relayGraph.machine.Reachable (fun _ a => relayRuns a = true) startState sinkState :=
    Machine.reachable_exec (by decide)
  exact h.mono fun _ _ => sound_of_relayRuns

/-- From there the relay comes to rest, even if handlers push once more. -/
theorem delivered_at_rest_relay :
    ∃ s', relayGraph.machine.Reachable (settlingRuns 2) sinkState s' ∧ s'.AtRest := by
  obtain ⟨-, ⟨s', hs', hstuck⟩, hrest⟩ := delivered_at_rest relayGraph_acyclic
    relayGraph_implemented startState_idle sinkState_reachable 2
  exact ⟨s', hs', (hrest s' hs' hstuck).1⟩

end Maplang
