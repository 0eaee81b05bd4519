import Maplang.Graph.Parameters

/-!
# Merging parameters of any shape

`pushPacket` merges the parameters it is given with the ones the node received last.  It asks
whether a pointer to received parameters is there and whether the pushed ones are null, and not
whether the two are objects; `insert` throws when one of them is not.  A node that has received a
packet without parameters points to a null, which is not an object either.

## Main definitions

* `lastReceived` : the parameters of the packet last delivered to a node.
* `MergesTo` : what the parameters should become.
* `PushAccepted` : a push goes through, and all that it delivers carries these parameters.
* `Mergeable` : the shapes for which it does.

## Main results

* `lastReceivedParameters_eq` : a node points to these parameters.
* `pushAccepted_iff`.
-/

namespace Maplang

open DataGraphImpl

variable {G : DataGraphImpl} {s s' : GraphState}

/-! ### The last delivery -/

/-- The parameters of the last packet in the log that was delivered to a node. -/
def lastDelivered (log : List Delivery) (node : String) : Option Json :=
  log.reverse.findSome? fun d => if d.via.node = node then some d.packet.parameters else none

theorem lastDelivered_concat (log : List Delivery) (d : Delivery) :
    lastDelivered (log ++ [d]) =
      Function.update (lastDelivered log) d.via.node (some d.packet.parameters) := by
  funext node
  rw [lastDelivered, List.reverse_concat, List.findSome?_cons]
  by_cases hnode : d.via.node = node
  · subst hnode
    rw [Function.update_self, if_pos rfl]
  · rw [Function.update_of_ne (Ne.symm hnode), if_neg hnode]
    rfl

/-- The parameters of the packet last delivered to a node, in the run from `s₀` or before it. -/
def lastReceived (s₀ s : GraphState) (node : String) : Option Json :=
  (lastDelivered s.log node).or (s₀.lastReceivedParameters node)

/-- A node points to the parameters of the last packet delivered to it. -/
def PointsToLast (s₀ s : GraphState) : Prop := ∀ node,
  s.lastReceivedParameters node = lastReceived s₀ s node

theorem pointsToLast_sendPacketToNode {s₀ : GraphState} (h : PointsToLast s₀ s) (t : ThreadId)
    (callId : ℕ) (packet : Packet) (via : Via) (frames : List Frame) :
    PointsToLast s₀ (G.sendPacketToNode s t callId packet via frames) := by
  intro node
  rw [lastReceived, sendPacketToNode_log, sendPacketToNode_lastReceivedParameters,
    lastDelivered_concat]
  by_cases hnode : node = via.node
  · subst hnode
    rw [Function.update_self, Function.update_self, Option.some_or]
  · rw [Function.update_of_ne hnode, Function.update_of_ne hnode]
    exact h node

theorem pointsToLast_step {s₀ : GraphState} {a : Act} (hstep : GraphStep G s a s')
    (h : PointsToLast s₀ s) : PointsToLast s₀ s' := by
  cases hstep with
  | edgeDirect => exact pointsToLast_sendPacketToNode h _ _ _ _ _
  | readySends => exact pointsToLast_sendPacketToNode (s := s.onGroup _ _) h _ _ _ _ _
  | _ => exact h

/-- **A node points to the parameters of the last packet delivered to it**, in every run. -/
theorem lastReceivedParameters_eq {s₀ : GraphState} (h₀ : s₀.Idle)
    (h : G.machine.Reachable Machine.free s₀ s) (node : String) :
    s.lastReceivedParameters node = lastReceived s₀ s node := by
  have hstart : PointsToLast s₀ s₀ := fun node => by rw [lastReceived, h₀.log]; rfl
  exact h.invariant hstart (fun _ _ _ hu _ hs => pointsToLast_step (step_cases hs) hu) node

/-! ### Merging -/

/-- What the parameters a node pushes should become: null takes the received parameters, an object
is extended by the received keys it lacks, and anything else stays as it is. -/
def MergesTo (received pushed merged : Json) : Prop :=
  if pushed.isNull then merged = received
  else if pushed.isObject ∧ received.isObject then
    merged.isObject = true ∧ ∀ key, merged.find key = (pushed.find key).or (received.find key)
  else merged = pushed

/-- Parameters for which the merge does not throw. -/
def Mergeable (received : Option Json) (pushed : Json) : Prop :=
  received = none ∨ pushed.isNull = true ∨
    pushed.isObject = true ∧ ∀ parameters ∈ received, parameters.isObject = true

theorem mergesTo_none (pushed : Json) : MergesTo .null pushed pushed := by
  cases hnull : pushed.isNull with
  | true =>
    rw [MergesTo, if_pos hnull]
    cases pushed <;> cases hnull
    rfl
  | false =>
    rw [MergesTo, if_neg (by simp [hnull]), if_neg]
    rintro ⟨-, hobject⟩
    cases hobject

/-- **The merge gives what it should** exactly if it does not throw. -/
theorem mergesTo_iff (received : Option Json) (pushed : Json) :
    (∃ merged, accumulate received pushed = .ok merged ∧
      MergesTo (received.getD .null) pushed merged) ↔ Mergeable received pushed := by
  cases received with
  | none => exact iff_of_true ⟨pushed, rfl, mergesTo_none pushed⟩ (.inl rfl)
  | some parameters =>
    cases hnull : pushed.isNull with
    | true =>
      refine iff_of_true ⟨parameters, ?_, ?_⟩ (.inr (.inl hnull))
      · rw [accumulate, if_pos hnull]
      · rw [MergesTo, if_pos hnull, Option.getD_some]
    | false =>
      have hnot : ¬ pushed.isNull = true := by simp [hnull]
      rw [accumulate, if_neg hnot]
      constructor
      · rintro ⟨merged, hmerged, -⟩
        obtain ⟨hpushed, hreceived⟩ := Json.isObject_of_insert hmerged
        exact .inr (.inr ⟨hpushed, fun _ h => Option.some.inj h ▸ hreceived⟩)
      · rintro (hnone | hnull' | ⟨hpushed, hreceived⟩)
        · cases hnone
        · exact absurd hnull' hnot
        have hparameters : parameters.isObject = true := hreceived parameters rfl
        obtain ⟨merged, hmerged⟩ := Json.insert_ok hpushed hparameters
        refine ⟨merged, hmerged, ?_⟩
        rw [MergesTo, if_neg hnot, Option.getD_some, if_pos ⟨hpushed, hparameters⟩]
        exact ⟨(Json.find_insert hmerged []).1, fun key => (Json.find_insert hmerged key).2⟩

/-! ### Pushing -/

/-- A push does not throw, and every packet that it delivers, whenever that is, has the parameters
merged from the pushed and the `received` ones, and the buffers of the packet that was pushed. -/
def PushAccepted (G : DataGraphImpl) (s : GraphState) (t : ThreadId) (node channel : String)
    (packet : Packet) (received : Option Json) : Prop :=
  ∃ s' call, G.machine.step s (.pushPacket t node channel packet) = some s' ∧
    s'.calls = s.calls ++ [call] ∧ call.packet.buffers = packet.buffers ∧
    MergesTo (received.getD .null) packet.parameters call.packet.parameters ∧
    ∀ s'', G.machine.Reachable Machine.free s' s'' → ∀ d ∈ s''.log,
      d.callId = s.calls.length → d.packet = call.packet

/-- A delivery carries the packet of its call, in every run that goes on from the call. -/
theorem packet_of_delivery {s₀ : GraphState} (h₀ : s₀.Idle)
    (h : G.machine.Reachable Machine.free s₀ s) {call : Call} {i : ℕ}
    (hcall : s.calls[i]? = some call) (hlater : G.machine.Reachable Machine.free s s')
    {d : Delivery} (hd : d ∈ s'.log) (hid : d.callId = i) : d.packet = call.packet := by
  have hcalls : s.calls <+: s'.calls := (prefix_of_reachable hlater).1
  obtain ⟨call', hcall', hpacket, -⟩ := (traced_of_reachable h₀ (h.trans hlater)).log d hd
  subst hid
  rw [hpacket, Option.some.inj (hcall'.symm.trans (getElem?_mono hcalls hcall))]

/-- What a push adds to the calls. -/
theorem calls_of_pushPacket {t : ThreadId} {node channel : String} {packet : Packet}
    (hstep : G.machine.step s (.pushPacket t node channel packet) = some s') :
    ∃ parameters, accumulate (s.lastReceivedParameters node) packet.parameters = .ok parameters ∧
      s'.calls = s.calls ++ [s.pushCall t node channel packet parameters] := by
  cases pushPacket_cases hstep with
  | drop _ hmerged _ => exact ⟨_, hmerged, rfl⟩
  | push _ hmerged _ => exact ⟨_, hmerged, rfl⟩

/-- A push whose merge does not throw begins. -/
theorem pushPacket_of_accumulate {t : ThreadId} {node : String} {packet : Packet}
    {parameters : Json} (ht : canCall (s.stack t) = true) (channel : String)
    (hmerged : accumulate (s.lastReceivedParameters node) packet.parameters = .ok parameters) :
    ∃ frames, G.machine.step s (.pushPacket t node channel packet) =
      some (s.beginCall t (s.pushCall t node channel packet parameters) frames) := by
  show ∃ frames, G.pushPacket s t node channel packet = _
  rw [DataGraphImpl.pushPacket, if_pos ht, hmerged]
  cases G.channelEdges node channel with
  | none => exact ⟨_, rfl⟩
  | some edges => exact ⟨_, rfl⟩

/-- **A push goes through** exactly if the node has not received anything yet, the pushed parameters
are null, or both are objects; else the merge throws. -/
theorem pushAccepted_iff {s₀ : GraphState} (h₀ : s₀.Idle)
    (h : G.machine.Reachable Machine.free s₀ s) {t : ThreadId} (ht : canCall (s.stack t) = true)
    (node channel : String) (packet : Packet) :
    PushAccepted G s t node channel packet (lastReceived s₀ s node) ↔
      Mergeable (lastReceived s₀ s node) packet.parameters := by
  rw [← lastReceivedParameters_eq h₀ h, ← mergesTo_iff]
  constructor
  · rintro ⟨s', call, hstep, hcalls, -, hmerges, -⟩
    obtain ⟨parameters, hmerged, hcalls'⟩ := calls_of_pushPacket hstep
    obtain rfl := List.singleton_injective (List.append_cancel_left (hcalls.symm.trans hcalls'))
    exact ⟨parameters, hmerged, hmerges⟩
  · rintro ⟨merged, hmerged, hmerges⟩
    obtain ⟨frames, hstep⟩ := pushPacket_of_accumulate (G := G) ht channel hmerged
    refine ⟨_, s.pushCall t node channel packet merged, hstep, rfl, rfl, hmerges, ?_⟩
    intro s'' hlater d hd hid
    have hpushed : G.machine.Reachable Machine.free s
        (s.beginCall t (s.pushCall t node channel packet merged) frames) :=
      ⟨_, .snoc (.nil s) trivial hstep⟩
    exact packet_of_delivery h₀ (h.trans hpushed) List.getElem?_concat_length hlater hd hid

/-- `sink` has received an object, and pushes another one. -/
theorem pushAccepted_iff_sink :
    PushAccepted relayGraph relayState 1 "sink" "out" ⟨.object [], []⟩
        (lastReceived startState relayState "sink") ↔
      Mergeable (lastReceived startState relayState "sink") (.object []) :=
  pushAccepted_iff startState_idle (relayState_reachable.mono fun _ _ _ => trivial) (by decide)
    "sink" "out" ⟨.object [], []⟩

/-- **A push does not go through with parameters of any shape**: `sink` has received an object, and
pushes a text. -/
theorem not_pushAccepted : ¬ ∀ (G : DataGraphImpl) (s₀ s : GraphState) (t : ThreadId)
    (node channel : String) (packet : Packet), s₀.Idle →
    G.machine.Reachable Machine.free s₀ s → canCall (s.stack t) = true →
      PushAccepted G s t node channel packet (lastReceived s₀ s node) := by
  intro h
  obtain ⟨s', call, hstep, -⟩ := h relayGraph startState relayState 1 "sink" "out"
    ⟨.string (bytes "v"), []⟩ startState_idle (relayState_reachable.mono fun _ _ _ => trivial)
    (by decide)
  have hthrown : relayGraph.machine.step relayState
    (.pushPacket 1 "sink" "out" ⟨.string (bytes "v"), []⟩) = none := rfl
  rw [hthrown] at hstep
  cases hstep

end Maplang
