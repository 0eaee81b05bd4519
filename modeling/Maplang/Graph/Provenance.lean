import Maplang.Graph.Parameters
import Maplang.Graph.Order

/-!
# Whose parameters a pushed packet inherits

A node keeps the parameters of one packet, the one it received last.  A handler that pushes several
packets expects all of them to inherit from the packet it is handling.  That fails when one of its
pushes comes back to the node: the packet that comes back replaces the parameters, and what the
handler pushes afterwards inherits from it.

## Main definitions

* `InheritsFrom` : every parameter that is not pushed comes from the given packet.
* `GraphState.Provenance` : what a handler pushes through its node inherits from the packet it was
  called with.
* `pushesLatest` : no other packet has been delivered to the node since the handler was called.

## Main results

* `latestReceived_of_reachable` : a node keeps the parameters of its latest delivery.
* `not_provenance_loop` : a direct cycle breaks the provenance.
* `provenance_of_pushesLatest` : in every run of such pushes it holds.
-/

namespace Maplang

/-- The parameters sent are those pushed, and the missing ones are taken from `handled`. -/
def InheritsFrom (handled pushed sent : Json) : Prop :=
  sent.isObject = true ∧ ∀ key, sent.find key = (pushed.find key).or (handled.find key)

/-- Each packet that a handler pushes through the node it was called for inherits from the packet
it was called with. -/
def GraphState.Provenance (s : GraphState) : Prop :=
  ∀ call ∈ s.calls, ∀ f channel delivery pushes d, call.kind = .pushPacket f channel →
    call.cause = some (delivery, pushes) → s.log[delivery]? = some d → d.via.node = f →
    InheritsFrom d.packet.parameters call.pushed.parameters call.packet.parameters

/-- The step condition: packets that are pushed or sent have object parameters. -/
def pushesObjects : Act → Bool
  | .pushPacket _ _ _ packet => packet.parameters.isObject
  | .sendPacket _ packet _ => packet.parameters.isObject
  | _ => true

/-- Every node that has received a packet has received an object. -/
def GraphState.HoldsObjects (s : GraphState) : Prop :=
  ∀ node parameters, s.lastReceivedParameters node = some parameters → parameters.isObject = true

/-- No packet has been delivered to the node after this delivery. -/
def isLatest (log : List Delivery) (delivery : ℕ) (node : String) : Bool :=
  (log.drop (delivery + 1)).all fun d => d.via.node != node

/-- The step condition: when a handler pushes through the node it was called for, no other packet
has been delivered to the node in the meantime. -/
def pushesLatest (s : GraphState) : Act → Bool
  | .pushPacket t node _ _ =>
    match causeOf (s.stack t) with
    | none => true
    | some (delivery, _) =>
      match s.log[delivery]? with
      | none => true
      | some d => d.via.node != node || isLatest s.log delivery node
  | _ => true

/-- Provenance in every run of packets with object parameters. -/
def DataGraphImpl.ParameterProvenance (G : DataGraphImpl) : Prop :=
  ∀ s₀ s : GraphState, s₀.Idle → s₀.HoldsObjects →
    G.machine.Reachable (fun _ a => pushesObjects a = true) s₀ s → s.Provenance

open DataGraphImpl

/-! ### A direct cycle -/

/-- `loop` is sent a packet.  Its handler pushes one with the parameter `id`, which comes back, and
then one without. -/
def mixingSchedule : List Act :=
  [.sendPacket 7 ⟨.object [], []⟩ "loop", .run 7, .run 7, .run 7, .wake "", .dequeue 0 [0], .run 0,
    .run 0, .pushPacket 0 "loop" "out" ⟨.object [(bytes "id", .boolean true)], []⟩, .run 0, .ret 0,
    .run 0, .run 0, .run 0, .run 0, .run 0, .pushPacket 0 "loop" "out" ⟨.object [], []⟩]

/-- The state the schedule leads to. -/
def mixingState : GraphState :=
  (loopGraph.machine.exec (fun _ a => pushesObjects a) startState mixingSchedule).getD startState

/-- **A packet that comes back replaces the parameters.**  The second packet that `loop` pushes
while it handles the packet it was sent carries the `id` of the first one. -/
theorem not_provenance_loop : ¬ loopGraph.ParameterProvenance := by
  intro h
  have hprovenance := h startState mixingState startState_idle (by rintro _ _ ⟨⟩)
    (Machine.reachable_exec (by decide)) (mixingState.calls.get ⟨2, by decide⟩)
    (List.get_mem _ _) "loop" "out" 0 1 (mixingState.log.get ⟨0, by decide⟩) rfl rfl rfl rfl
  cases hprovenance.2 (bytes "id")

/-! ### The packet received last -/

variable {G : DataGraphImpl} {s s' : GraphState}

theorem isLatest_iff {log : List Delivery} {delivery : ℕ} {node : String} :
    isLatest log delivery node = true ↔
      ∀ (j : ℕ) d, log[j]? = some d → delivery < j → d.via.node ≠ node := by
  simp only [isLatest, List.all_eq_true, bne_iff_ne]
  constructor
  · intro h j d hj hlt
    refine h d (List.mem_of_getElem? (i := j - (delivery + 1)) ?_)
    rw [List.getElem?_drop, ← hj]
    congr 1
    omega
  · intro h d hd
    obtain ⟨i, hi⟩ := List.getElem?_of_mem hd
    rw [List.getElem?_drop] at hi
    exact h _ d hi (by omega)

/-- A node keeps the parameters of its latest delivery. -/
def LatestReceived (s : GraphState) : Prop :=
  ∀ (i : ℕ) d, s.log[i]? = some d → isLatest s.log i d.via.node = true →
    s.lastReceivedParameters d.via.node = some d.packet.parameters

theorem latestReceived_sendPacketToNode (h : LatestReceived s) {t : ThreadId} {callId : ℕ}
    {packet : Packet} {via : Via} {frames : List Frame} :
    LatestReceived (G.sendPacketToNode s t callId packet via frames) := by
  intro i d hd hlatest
  rw [isLatest_iff, sendPacketToNode_log] at hlatest
  rw [sendPacketToNode_log] at hd
  rw [sendPacketToNode_lastReceivedParameters]
  rcases getElem?_concat_cases hd with ⟨hold, hlt⟩ | ⟨-, rfl⟩
  · -- an older delivery is the latest one of its node only if the new one is to another node
    have hne : d.via.node ≠ via.node :=
      (hlatest s.log.length _ List.getElem?_concat_length hlt).symm
    rw [Function.update_of_ne hne]
    exact h i d hold (isLatest_iff.2 fun j d' hj hij =>
      hlatest j d' (getElem?_mono (List.prefix_append _ _) hj) hij)
  · rw [Function.update_self]

theorem latestReceived_step {a : Act} (hstep : GraphStep G s a s') (h : LatestReceived s) :
    LatestReceived s' := by
  cases hstep with
  | edgeDirect => exact latestReceived_sendPacketToNode h
  | readySends => exact latestReceived_sendPacketToNode (s := s.onGroup _ _) h
  | _ => exact h

/-- **Any number of steps.** -/
theorem latestReceived_of_reachable {ok : GraphState → Act → Prop} {s₀ : GraphState} (h₀ : s₀.Idle)
    (h : G.machine.Reachable ok s₀ s) : LatestReceived s :=
  h.invariant (fun i d hd => by simp [h₀.log] at hd) fun _ _ _ hu _ hs =>
    latestReceived_step (step_cases hs) hu

/-! ### Provenance -/

/-- What holds in every state of a run of packets with object parameters, each pushed while the
packet being handled is the one its node received last. -/
structure ProvenanceInv (s : GraphState) : Prop where
  latest : LatestReceived s
  received : s.HoldsObjects
  sent : ∀ call ∈ s.calls, call.packet.parameters.isObject = true
  /-- The deliveries that have caused calls have been made. -/
  caused : ∀ call ∈ s.calls, ∀ delivery pushes, call.cause = some (delivery, pushes) →
    delivery < s.log.length
  provenance : s.Provenance

theorem holdsObjects_sendPacketToNode (h : s.HoldsObjects) {t : ThreadId} {callId : ℕ}
    {packet : Packet} {via : Via} {frames : List Frame}
    (hpacket : packet.parameters.isObject = true) :
    (G.sendPacketToNode s t callId packet via frames).HoldsObjects := by
  intro node parameters hnode
  rw [sendPacketToNode_lastReceivedParameters] at hnode
  by_cases heq : node = via.node
  · rw [heq, Function.update_self] at hnode
    rwa [← Option.some.inj hnode]
  · rw [Function.update_of_ne heq] at hnode
    exact h node parameters hnode

/-- A longer log has the same deliveries at the positions calls refer to. -/
theorem provenance_of_prefix (hlog : s.log <+: s'.log) (hcalls : s'.calls = s.calls)
    (hcaused : ∀ call ∈ s.calls, ∀ delivery pushes, call.cause = some (delivery, pushes) →
      delivery < s.log.length) (h : s.Provenance) : s'.Provenance := by
  intro call hcall f channel delivery pushes d hkind hcause hd hnode
  rw [hcalls] at hcall
  obtain ⟨more, hmore⟩ := hlog
  rw [← hmore, List.getElem?_append_left (hcaused call hcall delivery pushes hcause)] at hd
  exact h call hcall f channel delivery pushes d hkind hcause hd hnode

/-- The delivery on top of a stack is in the log. -/
theorem lt_length_of_causeOf (htraced : G.Traced s) {t : ThreadId} {delivery pushes : ℕ}
    (h : causeOf (s.stack t) = some (delivery, pushes)) : delivery < s.log.length := by
  unfold causeOf at h
  split at h
  · rename_i delivery' node pushes' rest hs
    obtain ⟨rfl, rfl⟩ : delivery' = delivery ∧ pushes' = pushes := by simpa using h
    obtain ⟨d, hd, -⟩ := htraced.frames t (.handlePacket delivery' node pushes') (by simp [hs])
    exact (List.getElem?_eq_some_iff.1 hd).1
  · cases h

/-- A packet pushed onto an object, or onto nothing, is an object. -/
theorem isObject_accumulate {received : Option Json} {pushed merged : Json}
    (hreceived : ∀ parameters, received = some parameters → parameters.isObject = true)
    (hpushed : pushed.isObject = true) (h : accumulate received pushed = .ok merged) :
    merged.isObject = true := by
  cases received with
  | none => exact Except.ok.inj h ▸ hpushed
  | some parameters =>
    obtain ⟨merged', hmerged, hobject, -⟩ := accumulate_object (hreceived _ rfl) (.inr hpushed)
    rwa [← Except.ok.inj (hmerged.symm.trans h)]

theorem ProvenanceInv.beginCall (h : ProvenanceInv s) (htraced : G.Traced s) {t : ThreadId}
    {call : Call} {frames : List Frame} (hcause : call.cause = causeOf (s.stack t))
    (hsent : call.packet.parameters.isObject = true)
    (hinherits : ∀ f channel delivery pushes d, call.kind = .pushPacket f channel →
      call.cause = some (delivery, pushes) → s.log[delivery]? = some d → d.via.node = f →
      InheritsFrom d.packet.parameters call.pushed.parameters call.packet.parameters) :
    ProvenanceInv (s.beginCall t call frames) where
  latest := h.latest
  received := h.received
  sent c hc := by
    rcases List.mem_append.1 hc with hold | hnew
    · exact h.sent c hold
    · rwa [List.mem_singleton.1 hnew]
  caused c hc delivery pushes hc' := by
    rcases List.mem_append.1 hc with hold | hnew
    · exact h.caused c hold delivery pushes hc'
    · rw [List.mem_singleton.1 hnew, hcause] at hc'
      exact lt_length_of_causeOf htraced hc'
  provenance c hc := by
    rcases List.mem_append.1 hc with hold | hnew
    · exact h.provenance c hold
    · rw [List.mem_singleton.1 hnew]
      exact hinherits

/-- A push merges with the parameters of the packet that is being handled. -/
theorem ProvenanceInv.push (h : ProvenanceInv s) (htraced : G.Traced s) {t : ThreadId}
    {node channel : String} {packet : Packet} {parameters : Json} {frames : List Frame}
    (hlatest : pushesLatest s (.pushPacket t node channel packet) = true)
    (hpacket : packet.parameters.isObject = true)
    (hmerged : accumulate (s.lastReceivedParameters node) packet.parameters = .ok parameters) :
    ProvenanceInv (s.beginCall t (s.pushCall t node channel packet parameters) frames) := by
  refine h.beginCall htraced rfl (isObject_accumulate (h.received node) hpacket hmerged) ?_
  intro f channel' delivery pushes d hkind hcause hd hnode
  obtain ⟨rfl, -⟩ : node = f ∧ channel = channel' := by simpa [GraphState.pushCall] using hkind
  have hpush : isLatest s.log delivery d.via.node = true := by
    simpa [pushesLatest, show causeOf (s.stack t) = some (delivery, pushes) from hcause, hd, hnode]
      using hlatest
  -- the node still keeps the parameters of the packet that is being handled
  have hreceived := h.latest delivery d hd hpush
  rw [hnode] at hreceived
  obtain ⟨merged, hok, hobject, hfind⟩ :=
    accumulate_object (h.received node _ hreceived) (.inr hpacket)
  rw [hreceived] at hmerged
  obtain rfl := Except.ok.inj (hok.symm.trans hmerged)
  exact ⟨hobject, hfind⟩

/-- A delivery changes what one node has received, and nothing about the calls. -/
theorem ProvenanceInv.deliver (h : ProvenanceInv s) {t : ThreadId} {callId : ℕ}
    {packet : Packet} {via : Via} {frames : List Frame}
    (htraced : G.Traced (G.sendPacketToNode s t callId packet via frames)) :
    ProvenanceInv (G.sendPacketToNode s t callId packet via frames) where
  latest := latestReceived_sendPacketToNode h.latest
  received := by
    obtain ⟨call, hcall, hpacket, -⟩ := htraced.log ⟨callId, via, packet, t⟩
      (List.mem_append_right _ (List.mem_singleton_self _))
    refine holdsObjects_sendPacketToNode h.received ?_
    rw [show packet = call.packet from hpacket]
    exact h.sent call (List.mem_of_getElem? hcall)
  sent := h.sent
  caused call hcall delivery pushes hcause := by
    rw [sendPacketToNode_log, List.length_append]
    exact Nat.lt_add_right _ (h.caused call hcall delivery pushes hcause)
  provenance := provenance_of_prefix (List.prefix_append _ _) rfl h.caused h.provenance

theorem ProvenanceInv.step (h : ProvenanceInv s) (htraced : G.Traced s) {a : Act}
    (hstep : GraphStep G s a s') (hobjects : pushesObjects a = true)
    (hlatest : pushesLatest s a = true) : ProvenanceInv s' := by
  have htraced' := htraced.step hstep
  have hgroup : ∀ g f, ProvenanceInv (s.onGroup g f) := fun _ _ =>
    ⟨h.latest, h.received, h.sent, h.caused, h.provenance⟩
  cases hstep with
  | drop hcan hmerged => exact h.push htraced hlatest hobjects hmerged
  | push hcan hmerged => exact h.push htraced hlatest hobjects hmerged
  | send => exact h.beginCall htraced rfl hobjects (by rintro _ _ _ _ _ ⟨⟩)
  | edgeDirect => exact h.deliver htraced'
  | readySends => exact (hgroup _ _).deliver htraced'
  | _ => exact ⟨h.latest, h.received, h.sent, h.caused, h.provenance⟩

theorem provenanceInv_of_idle (h : s.Idle) (hobjects : s.HoldsObjects) : ProvenanceInv s where
  latest i d hd := by simp [h.log] at hd
  received := hobjects
  sent call hcall := by simp [h.calls] at hcall
  caused call hcall := by simp [h.calls] at hcall
  provenance call hcall := by simp [h.calls] at hcall

/-- **Parameter provenance.**  In every run of packets with object parameters in which no packet is
delivered to a node between the start of its handler and a push of this handler, each packet that a
handler pushes inherits its missing parameters from the packet the handler was called with. -/
theorem provenance_of_pushesLatest (G : DataGraphImpl) {s₀ : GraphState} (h₀ : s₀.Idle)
    (hobjects : s₀.HoldsObjects)
    (h : G.machine.Reachable (fun u a => (pushesObjects a && pushesLatest u a) = true) s₀ s) :
    s.Provenance := by
  have hinv : G.Traced s ∧ ProvenanceInv s := by
    refine h.invariant (I := fun u => G.Traced u ∧ ProvenanceInv u)
      ⟨traced_of_idle h₀, provenanceInv_of_idle h₀ hobjects⟩ fun u a u' hu hok hs => ?_
    obtain ⟨hpushes, hlatest⟩ := Bool.and_eq_true_iff.1 hok
    exact ⟨hu.1.step (step_cases hs), hu.2.step hu.1 (step_cases hs) hpushes hlatest⟩
  exact hinv.2.provenance

/-- `loop` is sent a packet and pushes one; the handler of the packet that comes back pushes
another one. -/
def nestedSchedule : List Act :=
  [.sendPacket 7 ⟨.object [(bytes "a", .boolean true)], []⟩ "loop", .run 7, .run 7, .run 7,
    .wake "", .dequeue 0 [0], .run 0, .run 0,
    .pushPacket 0 "loop" "out" ⟨.object [(bytes "b", .boolean true)], []⟩, .run 0,
    .pushPacket 0 "loop" "out" ⟨.object [], []⟩]

/-- The state the schedule leads to. -/
def nestedState : GraphState :=
  (loopGraph.machine.exec (fun u a => pushesObjects a && pushesLatest u a) startState
    nestedSchedule).getD startState

theorem provenance_of_pushesLatest_nested :
    InheritsFrom (.object [(bytes "a", .boolean true), (bytes "b", .boolean true)]) (.object [])
      (nestedState.calls.get ⟨2, by decide⟩).packet.parameters :=
  provenance_of_pushesLatest loopGraph startState_idle (by rintro _ _ ⟨⟩)
    (Machine.reachable_exec (by decide)) (nestedState.calls.get ⟨2, by decide⟩) (List.get_mem _ _)
    "loop" "out" 1 0 (nestedState.log.get ⟨1, by decide⟩) rfl rfl rfl rfl

end Maplang
