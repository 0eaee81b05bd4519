import Maplang.Graph.Confinement

/-!
# Parameters along a path

`sendPacketToNode` records the parameters a node receives, and `pushPacket` of the node adds them to
the parameters it is given, without overwriting.  Along a path on which every node pushes as soon as
it receives, the parameters of all nodes are collected, and the nearest one wins.

## Main definitions

* `Relayed s pushed delivery` : a delivery at the end of a path, with the parameters that were
  pushed
  on the way, the nearest one first.
* `nearest` : the value of a key at its nearest producer.
* `Fresh`, `OthersStarted` : only a handler on top of its stack can be without pushes so far.

## Main results

* `received_of_reachable` : the first push of a handler merges with the parameters it was called
  with, and not with those of a later or an earlier packet.
* `parameters_of_relayed`.
-/

namespace Maplang

/-- A handler that has not pushed any packet. -/
def Frame.Fresh : Frame → Prop
  | .handlePacket _ _ 0 => True
  | _ => False

/-- A frame that may be on top of a handler without a push: `DataGraph::sendPacket`, or an
exception. -/
def Frame.isPassive : Frame → Bool
  | .enqueue .. => true
  | .signal .. => true
  | .thrown => true
  | _ => false

/-- Every handler below the one on top has pushed a packet. -/
def OthersStarted (frames : List Frame) : Prop :=
  ∀ f ∈ (frames.dropWhile Frame.isPassive).tail, ¬ f.Fresh

section

variable {frames rest : List Frame} {f : Frame}

theorem othersStarted_cons_of_isPassive (h : f.isPassive = true) :
    OthersStarted (f :: rest) ↔ OthersStarted rest := by
  rw [OthersStarted, OthersStarted, List.dropWhile_cons_of_pos h]

theorem othersStarted_cons (h : f.isPassive = false) :
    OthersStarted (f :: rest) ↔ ∀ f' ∈ rest, ¬ f'.Fresh := by
  rw [OthersStarted, List.dropWhile_cons_of_neg (by simp [h]), List.tail_cons]

/-- When nothing below is fresh, anything may be put on top. -/
theorem othersStarted_cons_of_forall (h : ∀ f' ∈ rest, ¬ f'.Fresh) (f : Frame) :
    OthersStarted (f :: rest) := by
  cases hf : f.isPassive with
  | true =>
    rw [othersStarted_cons_of_isPassive hf]
    exact fun f' hf' =>
      h f' ((List.dropWhile_sublist _).subset (List.mem_of_mem_tail hf'))
  | false => rwa [othersStarted_cons hf]

theorem othersStarted_of_forall (h : ∀ f' ∈ rest, ¬ f'.Fresh) : OthersStarted rest :=
  fun f' hf' => h f' ((List.dropWhile_sublist _).subset (List.mem_of_mem_tail hf'))

/-- Unwinding frames uncovers at most the handler that was on top. -/
theorem othersStarted_drop (h : OthersStarted frames) (n : ℕ) : OthersStarted (frames.drop n) := by
  induction frames generalizing n with
  | nil => simpa using h
  | cons f frames ih =>
    cases n with
    | zero => exact h
    | succ n =>
      rw [List.drop_succ_cons]
      cases hf : f.isPassive with
      | true => exact ih ((othersStarted_cons_of_isPassive hf).1 h) n
      | false =>
        exact othersStarted_of_forall fun f' hf' =>
          (othersStarted_cons hf).1 h f' (List.mem_of_mem_drop hf')

theorem not_fresh_notePush (h : OthersStarted frames) (hcan : canCall frames = true)
    (node channel : String) : ∀ f ∈ notePush (.pushPacket node channel) frames, ¬ f.Fresh := by
  unfold canCall at hcan
  split at hcan
  · simp [notePush]
  · rename_i delivery node' pushes rest
    have hrest := (othersStarted_cons (f := .handlePacket delivery node' pushes) rfl).1 h
    intro f hf
    rcases List.mem_cons.1 hf with rfl | hf
    · simp [Frame.Fresh]
    · exact hrest f hf
  · cases hcan

end

open DataGraphImpl

variable {G : DataGraphImpl} {s s' : GraphState}

theorem othersStarted_update {stack : ThreadId → List Frame} (h : ∀ u, OthersStarted (stack u))
    {t : ThreadId} {frames : List Frame} (hframes : OthersStarted frames) (u : ThreadId) :
    OthersStarted (Function.update stack t frames u) := by
  by_cases hu : u = t
  · subst hu
    rwa [Function.update_self]
  · rw [Function.update_of_ne hu]
    exact h u

/-- The frames of the graph's code are not fresh, and nothing below them is. -/
theorem forall_not_fresh {top : Frame} {rest : List Frame} (h : OthersStarted (top :: rest))
    (hpassive : top.isPassive = false) (htop : ¬ top.Fresh) : ∀ f ∈ top :: rest, ¬ f.Fresh := by
  intro f hf
  rcases List.mem_cons.1 hf with rfl | hf
  · exact htop
  · exact (othersStarted_cons hpassive).1 h f hf

theorem othersStarted_step {a : Act} (hstep : GraphStep G s a s')
    (h : ∀ t, OthersStarted (s.stack t)) : ∀ t, OthersStarted (s'.stack t) := by
  have hbelow : ∀ {t : ThreadId} {top : Frame} {rest : List Frame}, s.stack t = top :: rest →
      top.isPassive = false → ∀ f ∈ rest, ¬ f.Fresh :=
    fun hs hpassive => (othersStarted_cons hpassive).1 (hs ▸ h _)
  have hpassed : ∀ {t : ThreadId} {top : Frame} {rest : List Frame}, s.stack t = top :: rest →
      top.isPassive = true → OthersStarted rest :=
    fun hs hpassive => (othersStarted_cons_of_isPassive hpassive).1 (hs ▸ h _)
  cases hstep with
  | drop hcan =>
    exact othersStarted_update h (othersStarted_of_forall (not_fresh_notePush (h _) hcan _ _))
  | push hcan =>
    exact othersStarted_update h
      (othersStarted_cons_of_forall (not_fresh_notePush (h _) hcan _ _) _)
  | send => exact othersStarted_update h ((othersStarted_cons_of_isPassive rfl).2 (h _))
  | edgeThrows hs =>
    exact othersStarted_update h
      (othersStarted_cons_of_forall (forall_not_fresh (hs ▸ h _) rfl id) _)
  | edgeDirect hs =>
    refine othersStarted_update h (othersStarted_cons_of_forall ?_ _)
    exact forall_not_fresh (othersStarted_cons_of_forall (hbelow hs rfl) _) rfl id
  | edgeKnown hs => exact othersStarted_update h (othersStarted_cons_of_forall (hbelow hs rfl) _)
  | edgeNew hs => exact othersStarted_update h (othersStarted_cons_of_forall (hbelow hs rfl) _)
  | edgesDone hs => exact othersStarted_update h (othersStarted_cons_of_forall (hbelow hs rfl) _)
  | enqueue hs =>
    exact othersStarted_update h ((othersStarted_cons_of_isPassive rfl).2 (hpassed hs rfl))
  | enqueueDone hs => exact othersStarted_update h (hpassed hs rfl)
  | signal hs =>
    exact othersStarted_update h ((othersStarted_cons_of_isPassive rfl).2 (hpassed hs rfl))
  | readyThrows hs =>
    exact othersStarted_update h
      (othersStarted_cons_of_forall (forall_not_fresh (hs ▸ h _) rfl id) _)
  | readySends hs =>
    exact othersStarted_update h
      (othersStarted_cons_of_forall (forall_not_fresh (hs ▸ h _) rfl id) _)
  | readyDone hs => exact othersStarted_update h (othersStarted_of_forall (hbelow hs rfl))
  | wake => exact othersStarted_update h (othersStarted_cons_of_forall (by simp) _)
  | ret hs => exact othersStarted_update h (othersStarted_of_forall (hbelow hs rfl))
  | @throw t frames hs =>
    exact othersStarted_update h ((othersStarted_cons_of_isPassive rfl).2 (hs ▸ h t))
  | @unwind t n rest hs =>
    have hrest := (othersStarted_cons_of_isPassive (f := .thrown) rfl).1 (hs ▸ h t)
    exact othersStarted_update h (othersStarted_drop hrest n)
  | _ => exact h

/-! ### What a node has received -/

/-- The parameters a node received last are those of the delivery a fresh handler was called for. -/
def FreshReceived (s : GraphState) : Prop :=
  ∀ t delivery node, .handlePacket delivery node 0 ∈ s.stack t →
    ∃ d, s.log[delivery]? = some d ∧ s.lastReceivedParameters node = some d.packet.parameters

/-- A first push of a handler through its own node merges with the parameters the handler was
called with. -/
def CauseReceived (s : GraphState) : Prop :=
  ∀ (i : ℕ) (call : Call) (node channel : String) (delivery : ℕ),
    s.calls[i]? = some call → call.kind = .pushPacket node channel →
    call.cause = some (delivery, 0) → ∃ d, s.log[delivery]? = some d ∧
      (d.via.node = node → call.received = some d.packet.parameters)

theorem freshReceived_of_update (new rest : List Frame) (h : FreshReceived s) {t : ThreadId}
    (hstack : s'.stack = Function.update s.stack t (new ++ rest)) (hnew : ∀ f ∈ new, ¬ f.Fresh)
    (hrest : ∀ f ∈ rest, f.Fresh → f ∈ s.stack t) (hlog : s'.log = s.log)
    (hlast : s'.lastReceivedParameters = s.lastReceivedParameters) : FreshReceived s' := by
  intro u delivery node hf
  rw [hlog, hlast]
  refine h u delivery node ?_
  rw [hstack] at hf
  by_cases hu : u = t
  · subst hu
    rw [Function.update_self] at hf
    rcases List.mem_append.1 hf with hf | hf
    · exact absurd trivial (hnew _ hf)
    · exact hrest _ hf trivial
  · rwa [Function.update_of_ne hu] at hf

theorem mem_of_mem_notePush {kind : CallKind} {frames : List Frame} {f : Frame}
    (hf : f ∈ notePush kind frames) (hfresh : f.Fresh) : f ∈ frames := by
  unfold notePush at hf
  split at hf
  · rcases List.mem_cons.1 hf with rfl | hf
    · cases hfresh
    · exact List.mem_cons_of_mem _ hf
  · exact hf

theorem freshReceived_beginCall (h : FreshReceived s) {t : ThreadId} {call : Call}
    {frames : List Frame} (hframes : ∀ f ∈ frames, ¬ f.Fresh) :
    FreshReceived (s.beginCall t call frames) :=
  freshReceived_of_update _ _ h rfl hframes (fun _ => mem_of_mem_notePush) rfl rfl

/-- A delivery on a thread whose handlers have all pushed replaces nothing that a fresh
handler was called with: the handlers of the node run on this thread. -/
theorem freshReceived_sendPacketToNode (h : FreshReceived s) {t : ThreadId} {callId : ℕ}
    {packet : Packet} {via : Via} {frames : List Frame} (hthread : G.threadOf via.node = some t)
    (hhandlers : ∀ u delivery node, .handlePacket delivery node 0 ∈ s.stack u →
      G.threadOf node = some u)
    (hframes : ∀ f ∈ frames, ¬ f.Fresh) :
    FreshReceived (G.sendPacketToNode s t callId packet via frames) := by
  intro u delivery node hf
  rw [sendPacketToNode_stack] at hf
  rw [sendPacketToNode_log, sendPacketToNode_lastReceivedParameters]
  by_cases hu : u = t
  · subst hu
    rw [Function.update_self] at hf
    rcases List.mem_cons.1 hf with heq | hf
    · unfold receive at heq
      split at heq
      · cases heq
      · split at heq
        · cases heq
          exact ⟨_, List.getElem?_concat_length, by rw [Function.update_self]⟩
        · cases heq
    · exact absurd trivial (hframes _ hf)
  · rw [Function.update_of_ne hu] at hf
    obtain ⟨d, hd, hreceived⟩ := h u delivery node hf
    have hne : node ≠ via.node := by
      rintro rfl
      exact hu (Option.some.inj ((hhandlers u delivery _ hf).symm.trans hthread))
    refine ⟨d, getElem?_mono (List.prefix_append _ _) hd, ?_⟩
    rw [Function.update_of_ne hne, hreceived]

theorem freshReceived_step (htraced : G.Traced s) (hstarted : ∀ t, OthersStarted (s.stack t))
    {a : Act} (hstep : GraphStep G s a s') (h : FreshReceived s) : FreshReceived s' := by
  have htraced' := htraced.step hstep
  have hhandlers : ∀ u delivery node, .handlePacket delivery node 0 ∈ s.stack u →
      G.threadOf node = some u := fun _ _ _ hf => htraced.threadOf_handler hf
  have hrest : ∀ {t : ThreadId} {top : Frame} {rest : List Frame}, s.stack t = top :: rest →
      ∀ f ∈ rest, f.Fresh → f ∈ s.stack t := fun hs f hf _ => hs ▸ List.mem_cons_of_mem _ hf
  cases hstep with
  | drop => exact freshReceived_beginCall h (by simp)
  | push => exact freshReceived_beginCall h (by simp [Frame.Fresh])
  | send => exact freshReceived_beginCall h (by simp [Frame.Fresh])
  | edgeThrows hs =>
    exact freshReceived_of_update [_, _] _ h rfl (by simp [Frame.Fresh]) (hrest hs) rfl rfl
  | @edgeDirect t id call e edges queuedTo groups rest hs hdirect =>
    refine freshReceived_sendPacketToNode h (threadOf_of_pushesDirectly hdirect) hhandlers ?_
    refine forall_not_fresh (othersStarted_cons_of_forall ?_ _) rfl (by simp [Frame.Fresh])
    exact (othersStarted_cons rfl).1 (hs ▸ hstarted t)
  | edgeKnown hs =>
    exact freshReceived_of_update [_] _ h rfl (by simp [Frame.Fresh]) (hrest hs) rfl rfl
  | edgeNew hs =>
    exact freshReceived_of_update [_] _ h rfl (by simp [Frame.Fresh]) (hrest hs) rfl rfl
  | edgesDone hs =>
    exact freshReceived_of_update [_] _ h rfl (by simp [Frame.Fresh]) (hrest hs) rfl rfl
  | enqueue hs =>
    exact freshReceived_of_update [_] _ h rfl (by simp [Frame.Fresh]) (hrest hs) rfl rfl
  | enqueueDone hs =>
    exact freshReceived_of_update [] _ h rfl (by simp) (hrest hs) rfl rfl
  | signal hs =>
    exact freshReceived_of_update [_] _ h rfl (by simp [Frame.Fresh]) (hrest hs) rfl rfl
  | readyThrows hs =>
    exact freshReceived_of_update [_, _] _ h rfl (by simp [Frame.Fresh]) (hrest hs) rfl rfl
  | @readySends t g rest r info x sending hs hr hsending hsel =>
    have hthread : G.threadOf x.2.node = some t :=
      htraced'.threadOf_delivery (d := ⟨info.callId, x.2, info.packet, t⟩)
        (List.mem_append_right _ (List.mem_singleton_self _))
    refine freshReceived_sendPacketToNode (s := s.onGroup g _) h hthread hhandlers ?_
    exact forall_not_fresh (hs ▸ hstarted t) rfl (by simp [Frame.Fresh])
  | readyDone hs =>
    exact freshReceived_of_update [] _ h rfl (by simp) (hrest hs) rfl rfl
  | wake hidle =>
    exact freshReceived_of_update [_] [] h rfl (by simp [Frame.Fresh]) (by simp) rfl rfl
  | ret hs => exact freshReceived_of_update [] _ h rfl (by simp) (hrest hs) rfl rfl
  | throw hs =>
    exact freshReceived_of_update [_] _ h rfl (by simp [Frame.Fresh])
      (fun f hf _ => hs ▸ hf) rfl rfl
  | unwind hs =>
    exact freshReceived_of_update [] _ h rfl (by simp)
      (fun f hf hfresh => hrest hs f (List.mem_of_mem_drop hf) hfresh) rfl rfl
  | _ => exact h

theorem causeReceived_step (htraced : G.Traced s) (hfresh : FreshReceived s) {a : Act}
    (hstep : GraphStep G s a s') (h : CauseReceived s) : CauseReceived s' := by
  have hlog : s.log <+: s'.log := log_isPrefix hstep
  intro i call node channel delivery hcall hkind hcause
  by_cases hold : s.calls[i]? = some call
  · obtain ⟨d, hd, hreceived⟩ := h i call node channel delivery hold hkind hcause
    exact ⟨d, getElem?_mono hlog hd, hreceived⟩
  have hpush : ∀ {t : ThreadId} {node' channel' : String} {packet : Packet} {parameters : Json},
      (s.calls ++ [s.pushCall t node' channel' packet parameters])[i]? = some call →
      ∃ d, s.log[delivery]? = some d ∧
        (d.via.node = node → call.received = some d.packet.parameters) := by
    intro t node' channel' packet parameters hnew
    rcases getElem?_concat_cases hnew with ⟨hold', -⟩ | ⟨-, rfl⟩
    · exact absurd hold' hold
    obtain ⟨rfl, rfl⟩ : node' = node ∧ channel' = channel := by
      simpa [GraphState.pushCall] using hkind
    simp only [GraphState.pushCall, causeOf] at hcause
    split at hcause
    · -- the handler on top has not pushed before, so its delivery is still the last one received
      rename_i delivery' node pushes rest hs
      obtain ⟨rfl, rfl⟩ : delivery' = delivery ∧ pushes = 0 := by simpa using hcause
      obtain ⟨d, hd, hreceived⟩ := hfresh t delivery' node (by simp [hs])
      obtain ⟨d', hd', hnode, -⟩ := htraced.frames t (.handlePacket delivery' node 0) (by simp [hs])
      obtain rfl := Option.some.inj (hd.symm.trans hd')
      refine ⟨d, hd, fun hvia => ?_⟩
      rw [GraphState.pushCall, ← hvia, hnode, hreceived]
    · cases hcause
  cases hstep with
  | drop => exact hpush hcall
  | push => exact hpush hcall
  | send =>
    rcases getElem?_concat_cases hcall with ⟨hold', -⟩ | ⟨-, rfl⟩
    · exact absurd hold' hold
    · cases hkind
  | _ => exact absurd hcall hold

/-- What holds about received parameters in every reachable state. -/
structure ReceivedInv (G : DataGraphImpl) (s : GraphState) : Prop where
  traced : G.Traced s
  started : ∀ t, OthersStarted (s.stack t)
  fresh : FreshReceived s
  cause : CauseReceived s

theorem receivedInv_of_reachable {ok : GraphState → Act → Prop} {s₀ : GraphState} (h₀ : s₀.Idle)
    (h : G.machine.Reachable ok s₀ s) : ReceivedInv G s := by
  refine h.invariant ⟨traced_of_idle h₀, ?_, ?_, ?_⟩ fun u a u' hu _ hs => ?_
  · intro t f hf
    simp [h₀.stack t] at hf
  · intro t delivery node hf
    simp [h₀.stack t] at hf
  · intro i call node channel delivery hcall
    simp [h₀.calls] at hcall
  · have hstep := step_cases hs
    exact ⟨hu.traced.step hstep, othersStarted_step hstep hu.started,
      freshReceived_step hu.traced hu.started hstep hu.fresh,
      causeReceived_step hu.traced hu.fresh hstep hu.cause⟩

/-! ### Paths -/

/-- The value of a key at its nearest producer. -/
def nearest (pushed : List Json) (key : ByteString) : Option Json :=
  pushed.findSome? fun parameters => parameters.find key

/-- `delivery` is at the end of a path in `s`: a node that had never received a packet pushed an
object, and every later node, on receiving the packet, first of all pushed one whose parameters
are null or an object.  `pushed` lists the parameters of these pushes, the latest first. -/
inductive Relayed (s : GraphState) : List Json → ℕ → Prop
  | source {i delivery : ℕ} {call : Call} {node channel : String} {d : Delivery} :
      s.calls[i]? = some call → call.kind = .pushPacket node channel → call.received = none →
      call.pushed.parameters.isObject = true →
      s.log[delivery]? = some d → d.callId = i →
      Relayed s [call.pushed.parameters] delivery
  | hop {pushed : List Json} {before : ℕ} {d : Delivery} {i delivery : ℕ} {call : Call}
      {channel : String} {d' : Delivery} :
      Relayed s pushed before → s.log[before]? = some d →
      s.calls[i]? = some call → call.kind = .pushPacket d.via.node channel →
      call.cause = some (before, 0) →
      (call.pushed.parameters.isNull = true ∨ call.pushed.parameters.isObject = true) →
      s.log[delivery]? = some d' → d'.callId = i →
      Relayed s (call.pushed.parameters :: pushed) delivery

/-- A delivery carries what `pushPacket` merged. -/
theorem accumulate_of_delivery (htraced : G.Traced s) {i : ℕ} {call : Call} {node channel : String}
    (hcall : s.calls[i]? = some call) (hkind : call.kind = .pushPacket node channel) {d : Delivery}
    (hd : d ∈ s.log) (hid : d.callId = i) :
    accumulate call.received call.pushed.parameters = .ok d.packet.parameters := by
  have hmerged := htraced.calls call (List.mem_of_getElem? hcall)
  rw [Call.Merged, hkind] at hmerged
  obtain ⟨call', hcall', hpacket, -⟩ := htraced.log d hd
  subst hid
  rw [hpacket, Option.some.inj (hcall'.symm.trans hcall)]
  exact hmerged.1

/-- Merging null or an object into an object does not throw, and keeps the keys of both; the pushed
values win. -/
theorem accumulate_object {received pushed : Json} (hreceived : received.isObject = true)
    (hpushed : pushed.isNull = true ∨ pushed.isObject = true) :
    ∃ merged, accumulate (some received) pushed = .ok merged ∧ merged.isObject = true ∧
      ∀ key, merged.find key = (pushed.find key).or (received.find key) := by
  rcases hpushed with hnull | hobject
  · cases pushed <;> cases hnull
    exact ⟨received, rfl, hreceived, fun key => rfl⟩
  · obtain ⟨merged, hmerged⟩ := Json.insert_ok hobject hreceived
    refine ⟨merged, ?_, (Json.find_insert hmerged []).1, fun key => ?_⟩
    · obtain ⟨members, rfl⟩ := Json.isObject_iff.1 hobject
      exact hmerged
    · exact (Json.find_insert hmerged key).2

theorem find_nearest_of_accumulate {received p merged : Json} {pushed : List Json}
    (hreceived : ∀ key, received.find key = nearest pushed key)
    (hmerged : ∀ key, merged.find key = (p.find key).or (received.find key)) (key : ByteString) :
    merged.find key = nearest (p :: pushed) key := by
  rw [hmerged, hreceived, nearest, nearest, List.findSome?_cons]
  cases p.find key <;> rfl

/-- The parameters at the end of a path are an object with the nearest values. -/
theorem nearest_of_relayed (hinv : ReceivedInv G s) {pushed : List Json} {delivery : ℕ}
    (h : Relayed s pushed delivery) :
    ∃ d, s.log[delivery]? = some d ∧ d.packet.parameters.isObject = true ∧
      ∀ key, d.packet.parameters.find key = nearest pushed key := by
  induction h with
  | @source i delivery call node channel d hcall hkind hreceived hobject hd hid =>
    have hacc := accumulate_of_delivery hinv.traced hcall hkind (List.mem_of_getElem? hd) hid
    rw [hreceived] at hacc
    have hsame : call.pushed.parameters = d.packet.parameters := Except.ok.inj hacc
    refine ⟨d, hd, hsame ▸ hobject, fun key => ?_⟩
    rw [← hsame, nearest, List.findSome?_cons]
    cases call.pushed.parameters.find key <;> rfl
  | @hop pushed before d i delivery call channel d' _ hd hcall hkind hcause hpushed hd' hid ih =>
    obtain ⟨d₀, hd₀, hobject, hnearest⟩ := ih
    obtain rfl := Option.some.inj (hd₀.symm.trans hd)
    obtain ⟨d₁, hd₁, hreceived⟩ := hinv.cause i call _ channel before hcall hkind hcause
    obtain rfl := Option.some.inj (hd₁.symm.trans hd)
    have hacc := accumulate_of_delivery hinv.traced hcall hkind (List.mem_of_getElem? hd') hid
    rw [hreceived rfl] at hacc
    obtain ⟨merged, hmerged, hmergedObject, hfind⟩ := accumulate_object hobject hpushed
    obtain rfl : merged = d'.packet.parameters := Except.ok.inj (hmerged.symm.trans hacc)
    exact ⟨d', hd', hmergedObject, find_nearest_of_accumulate hnearest hfind⟩

/-- **Parameter propagation.**  In every run, the parameters delivered at the end of a path are an
object that holds the keys pushed by the nodes of the path and no others, each with the value its
nearest producer pushed; and pushing null or an object onto them does not throw. -/
theorem parameters_of_relayed {s₀ : GraphState} (h₀ : s₀.Idle)
    (h : G.machine.Reachable Machine.free s₀ s) {pushed : List Json} {delivery : ℕ}
    (hpath : Relayed s pushed delivery) :
    ∃ d, s.log[delivery]? = some d ∧ d.packet.parameters.isObject = true ∧
      (∀ key, d.packet.parameters.find key = nearest pushed key) ∧
      (∀ key, (d.packet.parameters.find key).isSome = true ↔
        ∃ p ∈ pushed, (p.find key).isSome = true) ∧
      ∀ p : Json, p.isNull = true ∨ p.isObject = true →
        ∃ merged, accumulate (some d.packet.parameters) p = .ok merged := by
  obtain ⟨d, hd, hobject, hnearest⟩ := nearest_of_relayed (receivedInv_of_reachable h₀ h) hpath
  refine ⟨d, hd, hobject, hnearest, fun key => ?_, fun p hp => ?_⟩
  · rw [hnearest key, nearest, List.findSome?_isSome_iff]
  · obtain ⟨merged, hmerged, -⟩ := accumulate_object hobject hp
    exact ⟨merged, hmerged⟩

/-- A thread outside the graph pushes through `source`; `middle` adds a key, and overrides one. -/
def pathSchedule : List Act :=
  [.pushPacket 7 "source" "out" ⟨.object [(bytes "a", .boolean true),
      (bytes "k", .boolean true)], []⟩,
    .run 7, .run 7, .run 7, .run 7, .run 7, .wake "", .dequeue 0 [0], .run 0, .run 0,
    .pushPacket 0 "middle" "out" ⟨.object [(bytes "k", .boolean false)], []⟩,
    .run 0, .run 0, .run 0, .run 0, .run 0, .wake "worker", .dequeue 1 [0], .run 1, .run 1]

/-- The state the schedule leads to. -/
def pathState : GraphState :=
  (relayGraph.machine.exec (fun _ _ => true) startState pathSchedule).getD startState

theorem parameters_of_relayed_path : ∃ d, pathState.log[1]? = some d ∧
    ∀ key, d.packet.parameters.find key = nearest
      [.object [(bytes "k", .boolean false)],
        .object [(bytes "a", .boolean true), (bytes "k", .boolean true)]] key := by
  have hsource : Relayed pathState
      [.object [(bytes "a", .boolean true), (bytes "k", .boolean true)]] 0 :=
    @Relayed.source pathState 0 0 (pathState.calls.get ⟨0, by decide⟩) "source" "out"
      (pathState.log.get ⟨0, by decide⟩) rfl rfl rfl rfl rfl rfl
  have hpath : Relayed pathState [.object [(bytes "k", .boolean false)],
      .object [(bytes "a", .boolean true), (bytes "k", .boolean true)]] 1 :=
    @Relayed.hop pathState _ 0 (pathState.log.get ⟨0, by decide⟩) 1 1
      (pathState.calls.get ⟨1, by decide⟩) "out" (pathState.log.get ⟨1, by decide⟩)
      hsource rfl rfl rfl rfl (.inr rfl) rfl rfl
  obtain ⟨d, hd, -, hnearest, -⟩ := parameters_of_relayed startState_idle
    ((Machine.reachable_exec (by decide)).mono fun _ _ _ => trivial) hpath
  exact ⟨d, hd, hnearest⟩

end Maplang
