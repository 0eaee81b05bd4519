import Maplang.Graph.Contracts
import Maplang.Graph.Parameters
import Maplang.Machine.Unfolding

/-!
# What a data graph computes

In a graph without cycles whose nodes have implementations without a state, the packets that are
delivered are a function of the packets from outside.  Each delivery leads to some others: the
packets that the handler pushes, with the parameters merged, along the edges of their channels.
What has been delivered when a data graph comes to rest is what grows from the packets from outside
in this way.  Threads, thread groups, queues and delivery types have no influence on it, except on
the order.

## Main definitions

* `DataGraphImpl.successors` : the deliveries that a delivery leads to.
* `DataGraphImpl.deliveriesOf` : the deliveries of a call.
* `GraphState.sentFromOutside` : the calls that no handler has made.

## Main results

* `arrivals_perm` : at rest, all deliveries are deliveries of a call from outside, or successors.
* `delivers_unfolding` : every run comes to rest, and has delivered what grows from the packets
  from outside.
-/

namespace Maplang

open DataGraphImpl GraphState
open scoped List

/-- Where a packet has arrived. -/
def Delivery.arrival (d : Delivery) : Via × Packet := (d.via, d.packet)

namespace DataGraphImpl

variable (G : DataGraphImpl) (H : Handlers)

/-- What a push leads to, while `p` is the packet its node received last. -/
def pushedAlong (node : String) (p : Packet) (push : Push) : List (Via × Packet) :=
  match accumulate (some p.parameters) push.packet.parameters with
  | .error _ => []
  | .ok parameters => ((G.channelEdges node push.channel).getD []).map fun e =>
      (.edge e, { push.packet with parameters })

/-- What a delivery leads to: the packets the handler pushes. -/
def successors (x : Via × Packet) : List (Via × Packet) :=
  (H x.1.node x.2).log.flatMap (G.pushedAlong x.1.node x.2)

/-- The deliveries of a call. -/
def deliveriesOf (call : Call) : List (Via × Packet) :=
  (G.vias call).map fun via => (via, call.packet)

/-- More rounds than it takes. -/
def depth : ℕ := G.targets.card + 1

end DataGraphImpl

/-- The calls that no handler has made. -/
def GraphState.sentFromOutside (s : GraphState) : List Call :=
  s.calls.filter fun call => !call.cause.isSome

variable {G : DataGraphImpl} {H : Handlers} {fine : String → Packet → Prop} {s s' : GraphState}

/-! ### Deliveries and calls -/

/-- What a call has delivered. -/
theorem arrivals_of_call (htraced : G.Traced s) {i : ℕ} {call : Call}
    (hcall : s.calls[i]? = some call) (hdelivered : delivered i s.log ~ G.vias call) :
    (s.log.filter fun d => some d.callId == some i).map Delivery.arrival ~
      G.deliveriesOf call := by
  have hpackets : (s.log.filter fun d => some d.callId == some i).map Delivery.arrival =
      (delivered i s.log).map fun via => (via, call.packet) := by
    have hsame : (s.log.filter fun d => some d.callId == some i) =
        s.log.filter fun d => d.callId = i := by
      refine List.filter_congr fun d _ => ?_
      rw [Bool.eq_iff_iff, beq_iff_eq, decide_eq_true_iff, Option.some.injEq]
    rw [delivered, List.map_map, hsame]
    refine List.map_congr_left fun d hmem => ?_
    obtain ⟨hd, hid⟩ := List.mem_filter.1 hmem
    obtain rfl : d.callId = i := by simpa using hid
    obtain ⟨call', hcall', hpacket, -⟩ := htraced.log d hd
    obtain rfl := Option.some.inj (hcall'.symm.trans hcall)
    rw [Function.comp_apply, Delivery.arrival, hpacket]
  rw [hpackets]
  exact hdelivered.map _

/-- All deliveries are deliveries of calls. -/
theorem arrivals_perm_calls (htraced : G.Traced s)
    (hdelivered : ∀ i call, s.calls[i]? = some call → delivered i s.log ~ G.vias call) :
    s.log.map Delivery.arrival ~ s.calls.flatMap G.deliveriesOf := by
  have hfibers := perm_flatMap_fibers (fun d : Delivery => some d.callId) (n := s.calls.length)
    (l := s.log) fun d hd k hk => by
      obtain ⟨i, hi⟩ := List.getElem?_of_mem hd
      cases hk
      exact lt_length_of_mem_log htraced hi
  have hall : s.log.filter (fun d => (some d.callId).isSome) = s.log :=
    List.filter_eq_self.2 fun _ _ => rfl
  rw [hall] at hfibers
  refine (hfibers.map _).trans ?_
  rw [List.map_flatMap, ← flatMap_range_getElem? s.calls G.deliveriesOf]
  refine List.Perm.flatMap_left _ fun i hi => ?_
  have hcall := List.getElem?_eq_getElem (List.mem_range.1 hi)
  rw [hcall, Option.toList_some, List.flatMap_singleton]
  exact arrivals_of_call htraced hcall (hdelivered i _ hcall)

/-- A call of a handler is one of the pushes its delivery leads to. -/
theorem deliveriesOf_call (h : Driven G H fine s) (htraced : G.Traced s) {delivery : ℕ}
    {d : Delivery} (hd : s.log[delivery]? = some d) {call : Call} (hcall : call ∈ s.calls)
    (hmade : isMadeBy delivery call = true) :
    ∃ push, call.push? = some push ∧
      G.deliveriesOf call = G.pushedAlong d.via.node d.packet push := by
  rw [isMadeBy, beq_iff_eq, Option.map_eq_some_iff] at hmade
  obtain ⟨⟨delivery', pushes⟩, hcause, rfl⟩ := hmade
  obtain ⟨d', channel, hd', hkind⟩ := h.scripted.own call hcall _ _ hcause
  obtain rfl := Option.some.inj (hd'.symm.trans hd)
  have hreceived := h.inherits call hcall _ _ _ hcause hd
  have hmerged := htraced.calls call hcall
  rw [Call.Merged, hkind, hreceived] at hmerged
  obtain ⟨hparameters, hbuffers⟩ := hmerged
  refine ⟨⟨call.pushed, channel⟩, by rw [Call.push?, hkind], ?_⟩
  have hpacket : call.packet = { call.pushed with parameters := call.packet.parameters } := by
    dsimp only
    rw [← hbuffers]
  rw [deliveriesOf, vias, edgesOf, hkind, pushedAlong]
  dsimp only
  rw [hparameters, List.map_map]
  exact List.map_congr_left fun e _ => congrArg (Prod.mk (Via.edge e)) hpacket

/-- What the calls of a handler that has returned deliver. -/
theorem deliveriesOf_made (h : Driven G H fine s) (htraced : G.Traced s) {delivery : ℕ}
    {d : Delivery} (hd : s.log[delivery]? = some d)
    (hfinished : s.pushed delivery = (s.script H delivery).log) :
    (s.calls.filter (isMadeBy delivery)).flatMap G.deliveriesOf = G.successors H d.arrival := by
  rw [script_eq hd, GraphState.pushed] at hfinished
  rw [successors, Delivery.arrival, ← hfinished]
  have hcalls : ∀ call ∈ s.calls.filter (isMadeBy delivery), ∃ push, call.push? = some push ∧
      G.deliveriesOf call = G.pushedAlong d.via.node d.packet push := fun call hcall => by
    obtain ⟨hcall, hmade⟩ := List.mem_filter.1 hcall
    exact deliveriesOf_call h htraced hd hcall hmade
  clear hfinished
  generalize s.calls.filter (isMadeBy delivery) = calls at hcalls ⊢
  induction calls with
  | nil => rfl
  | cons call calls ih =>
    obtain ⟨push, hpush, hdeliveries⟩ := hcalls call List.mem_cons_self
    rw [List.flatMap_cons, List.filterMap_cons_some hpush, List.flatMap_cons, hdeliveries,
      ih fun c hc => hcalls c (List.mem_cons_of_mem _ hc)]

/-- **At rest, all deliveries are deliveries of calls from outside, or what a delivery leads
to.** -/
theorem arrivals_perm (h : Driven G H fine s) (htraced : G.Traced s) (hrest : s.AtRest)
    (hdelivered : ∀ i call, s.calls[i]? = some call → delivered i s.log ~ G.vias call) :
    s.log.map Delivery.arrival ~ s.sentFromOutside.flatMap G.deliveriesOf ++
      (s.log.map Delivery.arrival).flatMap (G.successors H) := by
  have hfibers := perm_flatMap_fibers (fun call : Call => call.cause.map Prod.fst)
    (n := s.log.length) (l := s.calls) fun call hcall delivery hdelivery =>
      h.scripted.lt_length hcall (beq_iff_eq.2 hdelivery)
  have hcaused : (s.calls.filter fun call => call.cause.isSome).flatMap G.deliveriesOf ~
      (s.log.map Delivery.arrival).flatMap (G.successors H) := by
    simp only [Option.isSome_map] at hfibers
    refine (hfibers.flatMap_right _).trans ?_
    rw [List.flatMap_assoc, List.flatMap_map, ← flatMap_range_getElem? s.log]
    refine .of_eq (List.flatMap_congr fun delivery hdelivery => ?_)
    have hlt := List.mem_range.1 hdelivery
    have hd := List.getElem?_eq_getElem hlt
    rw [hd, Option.toList_some, List.flatMap_singleton]
    refine deliveriesOf_made h htraced hd (h.finished delivery hlt fun t => ?_)
    rw [hrest.stack]
    exact List.not_mem_nil
  calc s.log.map Delivery.arrival
    _ ~ s.calls.flatMap G.deliveriesOf := arrivals_perm_calls htraced hdelivered
    _ ~ ((s.calls.filter fun call => call.cause.isSome) ++ s.sentFromOutside).flatMap
          G.deliveriesOf :=
        (List.filter_append_perm (fun call : Call => call.cause.isSome)
          s.calls).symm.flatMap_right _
    _ ~ (s.sentFromOutside ++ s.calls.filter fun call => call.cause.isSome).flatMap
          G.deliveriesOf := List.perm_append_comm.flatMap_right _
    _ = s.sentFromOutside.flatMap G.deliveriesOf ++
          (s.calls.filter fun call => call.cause.isSome).flatMap G.deliveriesOf :=
        List.flatMap_append
    _ ~ s.sentFromOutside.flatMap G.deliveriesOf ++
          (s.log.map Delivery.arrival).flatMap (G.successors H) := hcaused.append_left _

/-- Packets are passed on downwards. -/
theorem height_successors (hacyclic : G.Acyclic) (x : Via × Packet) :
    ∀ y ∈ G.successors H x, height G.LeadsTo G.targets y.1.node <
      height G.LeadsTo G.targets x.1.node := by
  intro y hy
  obtain ⟨push, -, hy⟩ := List.mem_flatMap.1 hy
  unfold pushedAlong at hy
  split at hy
  · cases hy
  · obtain ⟨e, he, rfl⟩ := List.mem_map.1 hy
    exact height_lt hacyclic (fun _ _ => mem_targets) ⟨_, mem_allEdges he, rfl⟩

/-! ### Runs that come to rest -/

/-- Handlers can go on: the next packet can be pushed, or there is none. -/
theorem goesOn_handlerRuns (h : Driven G H fine s) (hcontract : G.Contract H fine)
    (htraced : G.Traced s) : GoesOn G (handlerRuns H) s where
  run _ := trivial
  dequeue _ _ := trivial
  wake _ := trivial
  handler t delivery node pushes rest hs := by
    obtain ⟨d, -, -, hfine, hreceived, hscript⟩ :=
      h.of_handler htraced (t := t) (by rw [hs]; exact List.mem_cons_self)
    cases hnext : (s.script H delivery).log[pushes]? with
    | none =>
      refine ⟨.ret t, ⟨delivery, node, pushes, rest, hs, List.getElem?_eq_none_iff.1 hnext, ?_⟩, ?_⟩
      · rw [hscript]
        exact hcontract.returns node d.packet hfine
      · simp only [machine, hs]
        rfl
    | some push =>
      obtain ⟨parameters, hok, -⟩ := hcontract.pushes node d.packet hfine push
        (List.mem_of_getElem? (hscript ▸ hnext))
      refine ⟨.pushPacket t node push.channel push.packet, ⟨delivery, pushes, rest, hs, hnext⟩, ?_⟩
      simp only [machine, DataGraphImpl.pushPacket, hs, canCall, hreceived, hok, if_true]
      cases G.channelEdges node push.channel <;> rfl

/-- The steps of handlers are steps of a settling run. -/
theorem settling_of_handlerRuns (h : Driven G H fine s) (hcontract : G.Contract H fine)
    (htraced : G.Traced s) (hsound : s.Sound G) {k : ℕ} (hk : ∀ node p, (H node p).log.length ≤ k)
    {a : Act} (hstep : GraphStep G s a s') (hok : handlerRuns H s a) : settlingRuns k s a := by
  have hquiet := sound_of_fine h hcontract htraced hsound hstep (.inl hok)
  cases a with
  | pushPacket t node channel packet =>
    obtain ⟨delivery, pushes, rest, hs, hnext⟩ := hok
    refine ⟨delivery, pushes, rest, hs, ?_⟩
    obtain ⟨d, -, -, -, -, hscript⟩ :=
      h.of_handler htraced (t := t) (by rw [hs]; exact List.mem_cons_self)
    rw [hscript] at hnext
    exact (List.getElem?_eq_some_iff.1 hnext).1.trans_le (hk node d.packet)
  | sendPacket => exact hok.elim
  | throw | unwind | destroy => exact hquiet.elim
  | _ => trivial

/-- What handlers push does not come from outside. -/
theorem sentFromOutside_step {a : Act} (hstep : GraphStep G s a s') (hok : handlerRuns H s a) :
    s'.sentFromOutside = s.sentFromOutside := by
  cases hstep with
  | drop | push =>
    obtain ⟨delivery, pushes, rest, hs, -⟩ := hok
    rw [sentFromOutside, beginCall_calls, List.filter_append, ← sentFromOutside,
      List.filter_cons_of_neg (by simp [pushCall, hs, causeOf]), List.filter_nil, List.append_nil]
  | send => exact hok.elim
  | _ => rfl

theorem sentFromOutside_of_reachable (h : G.machine.Reachable (handlerRuns H) s s') :
    s'.sentFromOutside = s.sentFromOutside :=
  h.invariant (I := fun u => u.sentFromOutside = s.sentFromOutside) rfl
    fun _ _ _ hu hok hs => (sentFromOutside_step (step_cases hs) hok).trans hu

section

variable {s₀ : GraphState}

/-- At rest, what has been delivered has grown from the calls from outside. -/
theorem arrivals_of_atRest (hacyclic : G.Acyclic) (himplemented : G.Implemented)
    (hcontract : G.Contract H fine) (h₀ : s₀.Idle)
    (h : G.machine.Reachable (fineRuns G H fine) s₀ s)
    (hrest : s.AtRest) : s.log.map Delivery.arrival ~
      (s.sentFromOutside.flatMap G.deliveriesOf).flatMap (unfold (G.successors H) G.depth) := by
  obtain ⟨hdriven, hsound⟩ := driven_of_reachable hcontract hacyclic himplemented h₀ h
  have hquiet := hsound.mono fun _ _ => quiet_of_sound
  refine perm_unfold (arrivals_perm hdriven (traced_of_reachable h₀ h) hrest fun i call hcall =>
    delivered_of_atRest h₀ hquiet hrest hcall) (height_successors hacyclic) fun _ _ => ?_
  exact Nat.lt_succ_of_le (height_le _ _ _)

/-- Handlers come to rest. -/
theorem atRest_of_handlerRuns (hacyclic : G.Acyclic) (himplemented : G.Implemented)
    (hcontract : G.Contract H fine) {k : ℕ} (hk : ∀ node p, (H node p).log.length ≤ k)
    (h₀ : s₀.Idle)
    (h : G.machine.Reachable (fineRuns G H fine) s₀ s) :
    (∃ n, ∀ acts s', G.machine.Run (handlerRuns H) s acts s' → acts.length ≤ n) ∧
    (∃ s', G.machine.Reachable (handlerRuns H) s s' ∧ G.machine.Stuck (handlerRuns H) s') ∧
    ∀ s', G.machine.Reachable (handlerRuns H) s s' → G.machine.Stuck (handlerRuns H) s' →
      s'.AtRest := by
  obtain ⟨c, rfl, hc⟩ := exists_costs hacyclic k
  obtain ⟨T, hT⟩ := exists_within h₀ h
  -- what holds of all states from now on
  have hstate : ∀ {u}, G.machine.Reachable (handlerRuns H) s u →
      G.Traced u ∧ u.Sound G ∧ Driven G H fine u ∧ G.machine.Reachable quietRuns s₀ u := by
    intro u hu
    have hfine : G.machine.Reachable (fineRuns G H fine) s u := hu.mono fun _ _ => .inl
    have hreachable := h.trans hfine
    obtain ⟨hdriven, hsound⟩ := driven_of_reachable hcontract hacyclic himplemented h₀ hreachable
    exact ⟨traced_of_reachable h₀ hreachable, sound_of_reachable himplemented h₀ hsound, hdriven,
      hsound.mono fun _ _ => quiet_of_sound⟩
  have hdecreases : G.machine.Decreases (handlerRuns H)
      (fun u => G.machine.Reachable (handlerRuns H) s u ∧ G.Within T G.groupNames u)
      (G.cost c T G.groupNames) := by
    rintro u a u' ⟨hu, hw⟩ hok hs
    obtain ⟨htraced, hsound, hdriven, -⟩ := hstate hu
    have hstep := step_cases hs
    have hsettles := settling_of_handlerRuns hdriven hcontract htraced hsound hk hstep hok
    exact ⟨⟨hu.trans ⟨[a], .snoc (.nil u) hok hs⟩,
      hw.step htraced (fun t ht => hw.mem_of_settling hsettles hstep ht) hstep⟩,
      cost_lt hc himplemented hw htraced hsound.implAlive hsettles hs⟩
  have hs : G.machine.Reachable (handlerRuns H) s s ∧ G.Within T G.groupNames s :=
    ⟨⟨[], .nil s⟩, hT⟩
  refine ⟨⟨G.cost c T G.groupNames s, fun acts s' hrun => ?_⟩, hdecreases.exists_stuck hs, ?_⟩
  · have := (hdecreases.length_add_le hs hrun).2
    omega
  · intro s' hs' hstuck
    obtain ⟨htraced, hsound, hdriven, hquiet⟩ := hstate hs'
    exact atRest_of_stuck (goesOn_handlerRuns hdriven hcontract htraced) hsound htraced
      (fun g hqueue => armed_of_reachable h₀ hquiet hsound.implAlive hqueue) hstuck

/-- **A graph computes what grows from the packets from outside.**  The edges of the graph make no
cycle, the nodes have implementations without a state, which push at most `k` packets each time,
and make fine packets of fine ones.  Then, after any run, the handlers come to rest, whatever the
schedule, and the packets that have been delivered by then are those that grow from the packets
from outside, each of them once. -/
theorem delivers_unfolding (hacyclic : G.Acyclic) (himplemented : G.Implemented)
    (hcontract : G.Contract H fine) {k : ℕ} (hk : ∀ node p, (H node p).log.length ≤ k)
    (h₀ : s₀.Idle)
    (h : G.machine.Reachable (fineRuns G H fine) s₀ s) :
    (∃ n, ∀ acts s', G.machine.Run (handlerRuns H) s acts s' → acts.length ≤ n) ∧
    (∃ s', G.machine.Reachable (handlerRuns H) s s' ∧ G.machine.Stuck (handlerRuns H) s') ∧
    ∀ s', G.machine.Reachable (handlerRuns H) s s' → G.machine.Stuck (handlerRuns H) s' →
      s'.AtRest ∧ s'.log.map Delivery.arrival ~
        (s.sentFromOutside.flatMap G.deliveriesOf).flatMap (unfold (G.successors H) G.depth) := by
  obtain ⟨hbounded, hstuck, hrests⟩ :=
    atRest_of_handlerRuns hacyclic himplemented hcontract hk h₀ h
  refine ⟨hbounded, hstuck, fun s' hs' hstuck' => ?_⟩
  have hrest := hrests s' hs' hstuck'
  rw [← sentFromOutside_of_reachable hs']
  exact ⟨hrest, arrivals_of_atRest hacyclic himplemented hcontract h₀
    (h.trans (hs'.mono fun _ _ => .inl)) hrest⟩

end

/-! ### Other thread groups -/

section

variable {G' : DataGraphImpl}

theorem channelEdges_congr (hgraph : G'.mGraph = G.mGraph) : G'.channelEdges = G.channelEdges := by
  funext node channel
  rw [channelEdges, channelEdges, hgraph]

theorem allEdges_congr (hgraph : G'.mGraph = G.mGraph) : G'.allEdges = G.allEdges := by
  funext node
  rw [allEdges, allEdges, hgraph]

theorem acyclic_congr (hgraph : G'.mGraph = G.mGraph) (h : G.Acyclic) : G'.Acyclic := by
  have hleads : G'.LeadsTo = G.LeadsTo := by
    funext a b
    rw [LeadsTo, LeadsTo, allEdges_congr hgraph]
  rwa [Acyclic, hleads]

theorem contract_congr (hgraph : G'.mGraph = G.mGraph) (h : G.Contract H fine) :
    G'.Contract H fine where
  returns := h.returns
  pushes := channelEdges_congr hgraph ▸ h.pushes

/-- What a delivery leads to depends on the nodes and the edges. -/
theorem successors_congr (hgraph : G'.mGraph = G.mGraph) : G'.successors H = G.successors H := by
  funext x
  have halong : G'.pushedAlong x.1.node x.2 = G.pushedAlong x.1.node x.2 := by
    funext push
    rw [pushedAlong, pushedAlong, channelEdges_congr hgraph]
  rw [successors, successors, halong]

theorem depth_congr (hgraph : G'.mGraph = G.mGraph) : G'.depth = G.depth := by
  rw [depth, depth, targets, targets, hgraph, allEdges_congr hgraph]

/-- **Thread groups do not matter.**  Two data graphs have the same nodes and edges, but their
instances may be in other thread groups, and the groups on other threads.  If the same packets have
come from outside, and both are at rest, they have made the same deliveries. -/
theorem delivers_alike (hgraph : G'.mGraph = G.mGraph) (hacyclic : G.Acyclic)
    (himplemented : G.Implemented) (himplemented' : G'.Implemented)
    (hcontract : G.Contract H fine) {s₀ s₀' : GraphState} (h₀ : s₀.Idle) (h₀' : s₀'.Idle)
    (h : G.machine.Reachable (fineRuns G H fine) s₀ s)
    (h' : G'.machine.Reachable (fineRuns G' H fine) s₀' s')
    (hrest : s.AtRest) (hrest' : s'.AtRest)
    (hsame : s'.sentFromOutside.flatMap G'.deliveriesOf ~
      s.sentFromOutside.flatMap G.deliveriesOf) :
    s'.log.map Delivery.arrival ~ s.log.map Delivery.arrival := by
  have hlog := arrivals_of_atRest hacyclic himplemented hcontract h₀ h hrest
  have hlog' := arrivals_of_atRest (acyclic_congr hgraph hacyclic) himplemented'
    (contract_congr hgraph hcontract) h₀' h' hrest'
  rw [successors_congr hgraph, depth_congr hgraph] at hlog'
  exact hlog'.trans ((hsame.flatMap_right _).trans hlog.symm)

end

/-! ### An example -/

/-- `sender` sends on to `tagger` and then to `log`, and `tagger` to `log`. -/
def taggingGraph (mUvLoopThreadId : String → ThreadId) : DataGraphImpl where
  mGraph := (∅ : UnorderedMap String GraphNode)
    |>.insert "sender" ⟨"sender", "sender", (∅ : UnorderedMap String (List GraphEdge))
      |>.insert "first" [{ channel := "first", next := "tagger" }]
      |>.insert "last" [{ channel := "last", next := "log" }]⟩
    |>.insert "tagger" ⟨"tagger", "tagger", .singleton "Added Parameters"
      [{ channel := "Added Parameters", next := "log" }]⟩
    |>.insert "log" ⟨"log", "log", ∅⟩
  mInstances := (∅ : UnorderedMap String Instance)
    |>.insert "sender" ⟨some ⟨true⟩, ""⟩
    |>.insert "tagger" ⟨some ⟨true⟩, "worker"⟩
    |>.insert "log" ⟨some ⟨true⟩, "worker"⟩
  mUvLoopThreadId

/-- All groups on one thread. -/
def oneThread : String → ThreadId := fun _ => 0

/-- One group on a thread of its own. -/
def twoThreads (g : String) : ThreadId := if g = "worker" then 1 else 0

/-- The nodes of the repository that `taggingGraph` is made of. -/
def taggingHandlers : Handlers := fun node =>
  if node = "sender" then OrderedPacketSender.handlePacket
  else if node = "tagger" then
    AddParametersNode.handlePacket ⟨.object [(bytes "tag", .boolean true)]⟩
  else PassThroughNode.handlePacket ⟨"unused"⟩

/-- A packet with object parameters. -/
def hasObject (_ : String) (p : Packet) : Prop := p.parameters.isObject = true

section

variable {threads : String → ThreadId}

theorem taggingGraph_acyclic : (taggingGraph threads).Acyclic :=
  acyclic_congr (G := taggingGraph oneThread) rfl <| acyclic_of_rank
    (fun node => if node = "sender" then 2 else if node = "tagger" then 1 else 0)
    (forall_leadsTo (by decide))

theorem taggingGraph_receives {node : String}
    (h : node = "sender" ∨ node = "tagger" ∨ node = "log") :
    (taggingGraph threads).Receives node := by
  rcases h with rfl | rfl | rfl
  · exact ⟨_, rfl, rfl⟩
  · exact ⟨_, rfl, rfl⟩
  · exact ⟨_, rfl, rfl⟩

theorem taggingGraph_implemented : (taggingGraph threads).Implemented := fun a b hab =>
  taggingGraph_receives (forall_leadsTo (G := taggingGraph oneThread)
    (P := fun _ b => b = "sender" ∨ b = "tagger" ∨ b = "log") (by decide) a b hab)

/-- Objects can be pushed by every node. -/
theorem pushes_object {node : String} {p : Packet} {push : Push}
    (hp : p.parameters.isObject = true) (hpush : push.packet.parameters.isObject = true) :
    ∃ parameters, accumulate (some p.parameters) push.packet.parameters = .ok parameters ∧
      ∀ e ∈ (G.channelEdges node push.channel).getD [],
        hasObject e.next { push.packet with parameters } := by
  obtain ⟨merged, hmerged, hobject, -⟩ := accumulate_object hp (.inr hpush)
  exact ⟨merged, hmerged, fun _ _ => hobject⟩

theorem taggingGraph_contract : (taggingGraph threads).Contract taggingHandlers hasObject where
  returns node p hp := by
    obtain ⟨members, hmembers⟩ := Json.isObject_iff.1 hp
    unfold taggingHandlers
    split_ifs
    · rfl
    · obtain ⟨buffers⟩ := p
      cases hmembers
      rfl
    · rfl
  pushes node p hp push hpush := by
    refine pushes_object hp ?_
    obtain ⟨members, hmembers⟩ := Json.isObject_iff.1 hp
    unfold taggingHandlers at hpush
    split_ifs at hpush
    · have hsame : push.packet = p := by
        rcases List.mem_cons.1 hpush with rfl | hpush
        · rfl
        · rw [List.mem_singleton.1 hpush]
      rw [hsame]
      exact hp
    · obtain ⟨buffers⟩ := p
      cases hmembers
      rw [List.mem_singleton.1 hpush]
      rfl
    · rw [List.mem_singleton.1 hpush]
      exact hp

theorem taggingHandlers_length (node : String) (p : Packet) :
    (taggingHandlers node p).log.length ≤ 2 := by
  unfold taggingHandlers
  split_ifs
  · exact le_rfl
  · exact (AddParametersNode.length_log_le _ p).trans (Nat.le_succ 1)
  · exact Nat.le_succ _

/-- A packet has been sent to `sender`. -/
def sentState (threads : String → ThreadId) : GraphState :=
  ((taggingGraph threads).sendPacket startState 7 ⟨.object [], []⟩ "sender").getD startState

variable (threads) in
theorem sentState_reachable : (taggingGraph threads).machine.Reachable
    (fineRuns (taggingGraph threads) taggingHandlers hasObject) startState (sentState threads) :=
  ⟨[.sendPacket 7 ⟨.object [], []⟩ "sender"],
    .snoc (.nil _) (.inr ⟨rfl, taggingGraph_receives (.inl rfl), rfl⟩) rfl⟩

variable (threads) in
/-- The packet is handled. -/
theorem exists_tagged : ∃ s', (taggingGraph threads).machine.Reachable
    (handlerRuns taggingHandlers) (sentState threads) s' ∧ s'.AtRest := by
  obtain ⟨-, ⟨s', hs', hstuck⟩, hrests⟩ := atRest_of_handlerRuns taggingGraph_acyclic
    taggingGraph_implemented taggingGraph_contract taggingHandlers_length startState_idle
    (sentState_reachable threads)
  exact ⟨s', hs', hrests s' hs' hstuck⟩

end

/-- In every order, `log` receives the packet twice, once with the tag. -/
theorem delivers_unfolding_tagging : ∃ s', (taggingGraph twoThreads).machine.Reachable
    (handlerRuns taggingHandlers) (sentState twoThreads) s' ∧ s'.AtRest ∧
      s'.log.map (fun d => (d.via.node, d.packet)) ~
        [("sender", ⟨.object [], []⟩), ("tagger", ⟨.object [], []⟩),
          ("log", ⟨.object [(bytes "tag", .boolean true)], []⟩), ("log", ⟨.object [], []⟩)] := by
  obtain ⟨-, ⟨s', hs', hstuck⟩, hrest⟩ := delivers_unfolding taggingGraph_acyclic
    taggingGraph_implemented taggingGraph_contract taggingHandlers_length startState_idle
    (sentState_reachable twoThreads)
  obtain ⟨hrest, hperm⟩ := hrest s' hs' hstuck
  refine ⟨s', hs', hrest, ?_⟩
  have hmap := hperm.map fun x => (x.1.node, x.2)
  rw [List.map_map] at hmap
  exact hmap

/-- And on one thread as on two. -/
theorem delivers_alike_tagging : ∃ s s', s.AtRest ∧ s'.AtRest ∧
    (taggingGraph oneThread).machine.Reachable (handlerRuns taggingHandlers)
      (sentState oneThread) s ∧
    (taggingGraph twoThreads).machine.Reachable (handlerRuns taggingHandlers)
      (sentState twoThreads) s' ∧
    s'.log.map Delivery.arrival ~ s.log.map Delivery.arrival := by
  obtain ⟨s, hs, hrest⟩ := exists_tagged oneThread
  obtain ⟨s', hs', hrest'⟩ := exists_tagged twoThreads
  have hreached := (sentState_reachable oneThread).trans (hs.mono fun _ _ => .inl)
  have hreached' := (sentState_reachable twoThreads).trans (hs'.mono fun _ _ => .inl)
  have hgraph : (taggingGraph twoThreads).mGraph = (taggingGraph oneThread).mGraph := rfl
  refine ⟨s, s', hrest, hrest', hs, hs', delivers_alike hgraph taggingGraph_acyclic
    taggingGraph_implemented taggingGraph_implemented taggingGraph_contract startState_idle
    startState_idle hreached hreached' hrest hrest' ?_⟩
  rw [sentFromOutside_of_reachable hs, sentFromOutside_of_reachable hs']
  exact .of_eq rfl

end Maplang
