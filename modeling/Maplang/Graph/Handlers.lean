import Maplang.Graph.Confinement
import Maplang.Graph.Nesting
import Maplang.Nodes.Stateless

/-!
# Handlers in a data graph

The machine of a data graph leaves open what handlers push.  Here each node has an implementation
without a state (`Handlers`), and a run is one in which handlers do what their implementations say:
they push these packets, in this order, through the pusher of their node, and then return or throw.

## Main definitions

* `Handlers` : the implementations of the nodes.
* `handlerRuns`, `outsideRuns` : the steps of handlers, and of code outside the graph.
* `GraphState.pushed`, `GraphState.script` : what the handler of a delivery has pushed, and what it
  pushes in all.
* `Scripted` : the invariant.

## Main results

* `Scripted.step` : what a step does.
* `scripted_of_reachable` : handlers push what their implementations say, in this order.
* `OrderedPacketSender.first_before_last` : all that follows the first packet of an
  `OrderedPacketSender` is done before what follows the last one.
-/

namespace Maplang

open DataGraphImpl GraphState

/-- The implementations of the nodes. -/
abbrev Handlers := String → Handler

/-- What a call has pushed. -/
def Call.push? (call : Call) : Option Push :=
  match call.kind with
  | .pushPacket _ channel => some ⟨call.pushed, channel⟩
  | .sendPacket _ => none

namespace GraphState

variable (s : GraphState)

/-- The handler of delivery `delivery` has made the call. -/
def isMadeBy (delivery : ℕ) (call : Call) : Bool := call.cause.map Prod.fst == some delivery

/-- The packets the handler of a delivery has pushed. -/
def pushed (delivery : ℕ) : List Push := (s.calls.filter (isMadeBy delivery)).filterMap Call.push?

/-- What the handler of a delivery does. -/
def script (H : Handlers) (delivery : ℕ) : Logged Push Unit :=
  match s.log[delivery]? with
  | none => ⟨[], .ok ()⟩
  | some d => H d.via.node d.packet

/-- The handler of a delivery can throw: its next push does, or all that is left is to throw. -/
def CanThrow (H : Handlers) (delivery : ℕ) (node : String) (pushes : ℕ) : Prop :=
  (∃ push fault, (s.script H delivery).log[pushes]? = some push ∧
    accumulate (s.lastReceivedParameters node) push.packet.parameters = .error fault) ∨
  (s.script H delivery).log.length ≤ pushes ∧ (s.script H delivery).result ≠ .ok ()

end GraphState

/-- The step condition of runs in which handlers do what their implementations say. -/
def handlerRuns (H : Handlers) : GraphState → Act → Prop
  | s, .pushPacket t node channel packet =>
    ∃ delivery pushes rest, s.stack t = .handlePacket delivery node pushes :: rest ∧
      (s.script H delivery).log[pushes]? = some ⟨packet, channel⟩
  | s, .ret t =>
    ∃ delivery node pushes rest, s.stack t = .handlePacket delivery node pushes :: rest ∧
      (s.script H delivery).log.length ≤ pushes ∧ (s.script H delivery).result = .ok ()
  | s, .throw t =>
    ∃ delivery node pushes rest, s.stack t = .handlePacket delivery node pushes :: rest ∧
      s.CanThrow H delivery node pushes
  | _, .sendPacket .. => False
  | _, .destroy => False
  | _, _ => True

/-- The step condition for code outside the graph. -/
def outsideRuns : GraphState → Act → Prop
  | s, .pushPacket t _ _ _ => s.stack t = []
  | s, .sendPacket t _ _ => s.stack t = []
  | _, .destroy => True
  | _, _ => False

/-! ### What has been pushed -/

theorem mem_handlersOf {frames : List Frame} {delivery : ℕ} :
    delivery ∈ handlersOf frames ↔ ∃ node pushes, .handlePacket delivery node pushes ∈ frames := by
  rw [handlersOf, List.mem_filterMap]
  constructor
  · rintro ⟨f, hf, hdelivery⟩
    cases f with
    | handlePacket delivery' node pushes =>
      cases hdelivery
      exact ⟨node, pushes, hf⟩
    | _ => cases hdelivery
  · rintro ⟨node, pushes, hf⟩
    exact ⟨_, hf, rfl⟩

/-- What holds in every state of a run in which handlers do what their implementations say. -/
structure Scripted (H : Handlers) (s : GraphState) : Prop where
  /-- A handler pushes through the pusher it was called with. -/
  own : ∀ call ∈ s.calls, ∀ delivery pushes, call.cause = some (delivery, pushes) →
    ∃ d channel, s.log[delivery]? = some d ∧ call.kind = .pushPacket d.via.node channel
  running : ∀ t delivery node pushes, .handlePacket delivery node pushes ∈ s.stack t →
    s.pushed delivery = (s.script H delivery).log.take pushes
  pushed : ∀ delivery, s.pushed delivery <+: (s.script H delivery).log

section

variable {G : DataGraphImpl} {H : Handlers} {s s' : GraphState} {t : ThreadId}
  {frames rest : List Frame} {delivery : ℕ} {d : Delivery} {call : Call}

theorem forall_update {P : ThreadId → List Frame → Prop} {stack : ThreadId → List Frame}
    (h : ∀ u, P u (stack u)) (hframes : P t frames) (u : ThreadId) :
    P u (Function.update stack t frames u) := by
  by_cases hu : u = t
  · rw [hu, Function.update_self]
    exact hframes
  · rw [Function.update_of_ne hu]
    exact h u

theorem script_eq (hd : s.log[delivery]? = some d) :
    s.script H delivery = H d.via.node d.packet := by
  rw [script, hd]

theorem script_mono (hlog : s.log <+: s'.log) (hlt : delivery < s.log.length) :
    s'.script H delivery = s.script H delivery := by
  have hd := List.getElem?_eq_getElem hlt
  rw [script_eq hd, script_eq (getElem?_mono hlog hd)]

/-- Calls have been made by handlers of deliveries. -/
theorem Scripted.lt_length (h : Scripted H s) (hcall : call ∈ s.calls)
    (hmade : isMadeBy delivery call = true) : delivery < s.log.length := by
  rw [isMadeBy, beq_iff_eq, Option.map_eq_some_iff] at hmade
  obtain ⟨⟨delivery', pushes⟩, hcause, rfl⟩ := hmade
  obtain ⟨d, -, hd, -⟩ := h.own call hcall _ _ hcause
  exact (List.getElem?_eq_some_iff.1 hd).1

/-- What is to be delivered next has not pushed anything. -/
theorem Scripted.pushed_eq_nil (h : Scripted H s) (hle : s.log.length ≤ delivery) :
    s.pushed delivery = [] := by
  rw [GraphState.pushed, List.filter_eq_nil_iff.2]
  · rfl
  · exact fun call hcall hmade => (h.lt_length hcall hmade).not_ge hle

/-- The only call that is new is the new one. -/
theorem pushed_beginCall (delivery : ℕ) :
    (s.beginCall t call frames).pushed delivery =
      s.pushed delivery ++ if isMadeBy delivery call then call.push?.toList else [] := by
  rw [pushed, beginCall_calls, List.filter_append, List.filterMap_append, ← pushed]
  by_cases h : isMadeBy delivery call
  · rw [if_pos h, List.filter_cons_of_pos h, List.filter_nil]
    cases hpush : call.push? with
    | none => rw [List.filterMap_cons_none hpush]; rfl
    | some push => rw [List.filterMap_cons_some hpush]; rfl
  · rw [if_neg h, List.filter_cons_of_neg h]
    rfl

/-- Only one handler has pushed. -/
theorem pushed_push {node channel : String} {packet : Packet} {parameters : Json} {pushes : ℕ}
    (hs : s.stack t = .handlePacket delivery node pushes :: rest) (delivery' : ℕ) :
    (s.beginCall t (s.pushCall t node channel packet parameters) frames).pushed delivery' =
      s.pushed delivery' ++ if delivery = delivery' then [⟨packet, channel⟩] else [] := by
  have hmade : isMadeBy delivery' (s.pushCall t node channel packet parameters) =
      decide (delivery = delivery') := by
    rw [isMadeBy, pushCall, hs]
    exact (Bool.eq_iff_iff.2 (by simp [causeOf]))
  rw [pushed_beginCall, hmade]
  by_cases h : delivery = delivery'
  · rw [if_pos (decide_eq_true h), if_pos h]
    rfl
  · rw [if_neg (by simpa using h), if_neg h]

/-- A handler is on one stack at most, and once. -/
theorem delivery_ne_of_mem (htraced : G.Traced s) (hnested : s.WellNested) {node : String}
    {pushes : ℕ} (hs : s.stack t = .handlePacket delivery node pushes :: rest) {u : ThreadId}
    {delivery' : ℕ} {node' : String} {pushes' : ℕ}
    (hf : .handlePacket delivery' node' pushes' ∈ s.stack u)
    (hrest : u = t → .handlePacket delivery' node' pushes' ∈ rest) : delivery ≠ delivery' := by
  rintro rfl
  obtain ⟨d, hd, -, rfl⟩ := htraced.frames u _ hf
  obtain ⟨d', hd', -, rfl⟩ := htraced.frames t (.handlePacket delivery node pushes) (by simp [hs])
  obtain rfl := Option.some.inj (hd.symm.trans hd')
  have hnodup := hnested.handlers d.thread
  rw [hs, handlersOf_handlePacket] at hnodup
  exact (List.nodup_cons.1 hnodup).1 (mem_handlersOf.2 ⟨_, _, hrest rfl⟩)

/-! ### What a step does -/

/-- A step that makes no call and no delivery. -/
theorem Scripted.restack (h : Scripted H s) (hcalls : s'.calls = s.calls) (hlog : s'.log = s.log)
    (hstack : ∀ u delivery node pushes, .handlePacket delivery node pushes ∈ s'.stack u →
      .handlePacket delivery node pushes ∈ s.stack u) : Scripted H s' := by
  have hpushed : s'.pushed = s.pushed := by
    funext delivery
    rw [GraphState.pushed, GraphState.pushed, hcalls]
  have hscript : s'.script H = s.script H := by
    funext delivery
    rw [script, script, hlog]
  constructor
  case own => exact hcalls ▸ hlog ▸ h.own
  case running =>
    intro u delivery node pushes hf
    rw [hpushed, hscript]
    exact h.running u delivery node pushes (hstack u _ _ _ hf)
  case pushed =>
    rw [hpushed, hscript]
    exact h.pushed

/-- The frames on top of a stack change, and handlers are taken off at most. -/
theorem Scripted.setTop (h : Scripted H s) (hcalls : s'.calls = s.calls) (hlog : s'.log = s.log)
    (hstack : s'.stack = Function.update s.stack t frames)
    (hframes : ∀ f ∈ frames, f ∈ s.stack t ∨ f.deliveryOf = none) : Scripted H s' := by
  refine h.restack hcalls hlog fun u delivery node pushes hf => ?_
  rw [hstack] at hf
  by_cases hu : u = t
  · rw [hu, Function.update_self] at hf
    rcases hframes _ hf with hf | hf
    · exact hu ▸ hf
    · cases hf
  · rwa [Function.update_of_ne hu] at hf

/-- The frame on top is replaced by another one. -/
theorem Scripted.replaceTop (h : Scripted H s) {f f' : Frame} (hs : s.stack t = f :: rest)
    (hf' : f'.deliveryOf = none) (hcalls : s'.calls = s.calls) (hlog : s'.log = s.log)
    (hstack : s'.stack = Function.update s.stack t (f' :: rest)) : Scripted H s' := by
  refine h.setTop hcalls hlog hstack (List.forall_mem_cons.2 ⟨.inr hf', fun f hf => .inl ?_⟩)
  rw [hs]
  exact List.mem_cons_of_mem _ hf

/-- Frames are taken off. -/
theorem Scripted.drop (h : Scripted H s) (n : ℕ) (hcalls : s'.calls = s.calls)
    (hlog : s'.log = s.log) (hstack : s'.stack = Function.update s.stack t ((s.stack t).drop n)) :
    Scripted H s' :=
  h.setTop hcalls hlog hstack fun _ hf => .inl (List.mem_of_mem_drop hf)

/-- Code outside the graph makes a call. -/
theorem Scripted.outside (h : Scripted H s) (hs : s.stack t = [])
    (hcause : call.cause = causeOf (s.stack t)) (hframes : handlersOf frames = []) :
    Scripted H (s.beginCall t call frames) := by
  rw [hs] at hcause
  have hpushed : (s.beginCall t call frames).pushed = s.pushed := by
    funext delivery
    have hnot : isMadeBy delivery call = false := by
      rw [isMadeBy, hcause]
      rfl
    rw [pushed_beginCall, hnot]
    exact List.append_nil _
  constructor
  case own =>
    intro c hc delivery pushes hc'
    rcases List.mem_append.1 hc with hc | hc
    · exact h.own c hc delivery pushes hc'
    · rw [List.mem_singleton.1 hc, hcause] at hc'
      cases hc'
  case running =>
    intro u delivery node pushes hf
    rw [hpushed]
    refine h.running u delivery node pushes ?_
    rw [beginCall_stack] at hf
    by_cases hu : u = t
    · have hnote : notePush call.kind (s.stack t) = [] := by
        rw [hs]
        cases call.kind <;> rfl
      rw [hu, Function.update_self, hnote, List.append_nil] at hf
      exact absurd (mem_handlersOf.2 ⟨node, pushes, hf⟩) (hframes ▸ List.not_mem_nil)
    · rwa [Function.update_of_ne hu] at hf
  case pushed =>
    rw [hpushed]
    exact h.pushed

/-- A handler pushes what comes next. -/
theorem Scripted.push (h : Scripted H s) (htraced : G.Traced s) (hnested : s.WellNested)
    {node channel : String} {packet : Packet} {parameters : Json} {pushes : ℕ}
    (hs : s.stack t = .handlePacket delivery node pushes :: rest)
    (hnext : (s.script H delivery).log[pushes]? = some ⟨packet, channel⟩)
    (hframes : handlersOf frames = []) :
    Scripted H (s.beginCall t (s.pushCall t node channel packet parameters) frames) := by
  have hf : .handlePacket delivery node pushes ∈ s.stack t := by
    rw [hs]
    exact List.mem_cons_self
  have hnew : s.pushed delivery ++ [⟨packet, channel⟩] =
      (s.script H delivery).log.take (pushes + 1) := by
    rw [h.running t _ _ _ hf, List.take_add_one, hnext]
    rfl
  constructor
  case own =>
    intro c hc delivery' pushes' hc'
    rcases List.mem_append.1 hc with hc | hc
    · exact h.own c hc delivery' pushes' hc'
    · rw [List.mem_singleton.1 hc, pushCall, hs] at hc'
      obtain ⟨rfl, rfl⟩ := Prod.mk.inj (Option.some.inj hc')
      obtain ⟨d, hd, rfl, -⟩ := htraced.frames t _ hf
      exact ⟨d, channel, hd, by rw [List.mem_singleton.1 hc]; rfl⟩
  case running =>
    intro u delivery' node' pushes' hf'
    rw [pushed_push hs]
    have hold : .handlePacket delivery' node' pushes' ∈ s.stack u →
        (u = t → .handlePacket delivery' node' pushes' ∈ rest) →
        s.pushed delivery' ++ (if delivery = delivery' then [⟨packet, channel⟩] else []) =
          (s.script H delivery').log.take pushes' := fun hf' hrest => by
      rw [if_neg (delivery_ne_of_mem htraced hnested hs hf' hrest), List.append_nil]
      exact h.running u _ _ _ hf'
    rw [beginCall_stack] at hf'
    by_cases hu : u = t
    · rw [hu, Function.update_self] at hf'
      rcases List.mem_append.1 hf' with hf' | hf'
      · exact absurd (mem_handlersOf.2 ⟨node', pushes', hf'⟩) (hframes ▸ List.not_mem_nil)
      · rw [hs] at hf'
        rcases List.mem_cons.1 hf' with heq | hf'
        · cases heq
          rw [if_pos rfl]
          exact hnew
        · refine hold ?_ fun _ => hf'
          rw [hu, hs]
          exact List.mem_cons_of_mem _ hf'
    · rw [Function.update_of_ne hu] at hf'
      exact hold hf' fun heq => absurd heq hu
  case pushed =>
    intro delivery'
    rw [pushed_push hs]
    by_cases hdelivery : delivery = delivery'
    · rw [if_pos hdelivery, ← hdelivery, hnew]
      exact List.take_prefix _ _
    · rw [if_neg hdelivery, List.append_nil]
      exact h.pushed delivery'

/-- A node receives a packet. -/
theorem Scripted.deliver (h : Scripted H s) (htraced : G.Traced s) {callId : ℕ} {packet : Packet}
    {via : Via} (hframes : ∀ f ∈ frames, f ∈ s.stack t ∨ f.deliveryOf = none) :
    Scripted H (G.sendPacketToNode s t callId packet via frames) := by
  have hlog : s.log <+: s.log ++ [⟨callId, via, packet, t⟩] := List.prefix_append _ _
  have hold : ∀ {u node delivery pushes}, .handlePacket delivery node pushes ∈ s.stack u →
      s.pushed delivery =
        ((G.sendPacketToNode s t callId packet via frames).script H delivery).log.take pushes := by
    intro u node delivery pushes hf
    obtain ⟨d, hd, -⟩ := htraced.frames u _ hf
    rw [script_mono hlog (List.getElem?_eq_some_iff.1 hd).1]
    exact h.running u _ _ _ hf
  constructor
  case own =>
    intro call hcall delivery pushes hcause
    obtain ⟨d, channel, hd, hkind⟩ := h.own call hcall delivery pushes hcause
    exact ⟨d, channel, getElem?_mono hlog hd, hkind⟩
  case running =>
    intro u delivery node pushes hf
    rw [sendPacketToNode_stack] at hf
    by_cases hu : u = t
    · rw [hu, Function.update_self] at hf
      rcases List.mem_cons.1 hf with heq | hf
      · unfold receive at heq
        split at heq
        · cases heq
        · split at heq
          · cases heq
            exact h.pushed_eq_nil le_rfl
          · cases heq
      · rcases hframes _ hf with hf | hf
        · exact hold hf
        · cases hf
    · rw [Function.update_of_ne hu] at hf
      exact hold hf
  case pushed =>
    intro delivery
    by_cases hlt : delivery < s.log.length
    · rw [script_mono hlog hlt]
      exact h.pushed delivery
    · have hnil : (G.sendPacketToNode s t callId packet via frames).pushed delivery = [] :=
        h.pushed_eq_nil (by omega)
      rw [hnil]
      exact List.nil_prefix

/-- **Any step.** -/
theorem Scripted.step (h : Scripted H s) (htraced : G.Traced s) (hnested : s.WellNested) {a : Act}
    (hstep : GraphStep G s a s') (hok : handlerRuns H s a ∨ outsideRuns s a) : Scripted H s' := by
  have hrest : ∀ {t f rest}, s.stack t = f :: rest → (s.stack t).drop 1 = rest := fun hs => by
    rw [hs]
    rfl
  cases hstep with
  | drop | push =>
    rcases hok with ⟨delivery, pushes, rest, hs, hnext⟩ | hs
    · exact h.push htraced hnested hs hnext rfl
    · exact h.outside hs rfl rfl
  | send =>
    rcases hok with hok | hs
    · exact hok.elim
    · exact h.outside hs rfl rfl
  | edgeThrows hs | readyThrows hs | throw hs =>
    exact h.setTop rfl rfl rfl
      (List.forall_mem_cons.2 ⟨.inr rfl, fun f hf => .inl (by rw [hs]; exact hf)⟩)
  | edgeDirect hs =>
    refine h.deliver htraced (List.forall_mem_cons.2 ⟨.inr rfl, fun f hf => .inl ?_⟩)
    rw [hs]
    exact List.mem_cons_of_mem _ hf
  | @readySends t g rest r info x sending hs hr hsending hselects =>
    have hdeliver : Scripted H (G.sendPacketToNode s t info.callId info.packet x.2
        (.packetReady g :: rest)) :=
      h.deliver htraced fun f hf => .inl (by rw [hs]; exact hf)
    exact hdeliver.restack rfl rfl fun _ _ _ _ hf => hf
  | edgeKnown hs | edgeNew hs | edgesDone hs | enqueue hs | signal hs =>
    exact h.replaceTop hs rfl rfl rfl rfl
  | enqueueDone hs | ret hs => exact h.drop 1 rfl rfl (by rw [hrest hs]; rfl)
  | readyDone hs => exact h.drop 1 rfl rfl (by rw [hrest hs]; rfl)
  | @unwind t n rest hs => exact h.drop (n + 1) rfl rfl (by rw [hs]; rfl)
  | wake => exact h.setTop rfl rfl rfl (List.forall_mem_singleton.2 (.inr rfl))
  | readySkips | readyNext | dequeueNone | dequeueSome | wakeDead | destroy =>
    exact h.restack rfl rfl fun _ _ _ _ hf => hf

/-- **Handlers push what their implementations say**, in this order, whatever the schedule. -/
theorem scripted_of_reachable {s₀ : GraphState} (h₀ : s₀.Idle)
    (h : G.machine.Reachable (fun s a => handlerRuns H s a ∨ outsideRuns s a) s₀ s) :
    Scripted H s := by
  obtain ⟨acts, hrun⟩ := h
  induction hrun with
  | nil =>
    refine ⟨fun call hcall => ?_, fun t delivery node pushes hf => ?_, fun delivery => ?_⟩
    · rw [h₀.calls] at hcall
      cases hcall
    · rw [h₀.stack] at hf
      cases hf
    · rw [GraphState.pushed, h₀.calls]
      exact List.nil_prefix
  | snoc hrun hok hs ih =>
    obtain ⟨htraced, hnested⟩ := wellNested_of_reachable h₀ ⟨_, hrun⟩
    exact ih.step htraced hnested (step_cases hs) hok

/-! ### First and last -/

/-- Of two packets that are pushed in this order, the last one is not pushed first. -/
theorem not_prefix_pair {α : Type*} {a b : α} (hab : a ≠ b) {as bs : List α} (hb : b ∈ as)
    (ha : a ∈ bs) : ¬ as ++ bs <+: [a, b] := by
  rintro ⟨cs, hcs⟩
  cases as with
  | nil => cases hb
  | cons x as =>
    rw [List.cons_append, List.cons_append, List.cons.injEq] at hcs
    obtain ⟨rfl, hcs⟩ := hcs
    cases as with
    | nil => exact hab (List.mem_singleton.1 hb).symm
    | cons y as =>
      rw [List.cons_append, List.cons_append, List.cons.injEq, List.append_eq_nil_iff,
        List.append_eq_nil_iff] at hcs
      rw [hcs.2.1.2] at ha
      cases ha

/-- What a call has pushed is among the packets pushed by its handler. -/
theorem mem_pushed {calls : List Call} {push : Push} (hcall : call ∈ calls)
    (hmade : isMadeBy delivery call = true) (hpush : call.push? = some push) :
    push ∈ (calls.filter (isMadeBy delivery)).filterMap Call.push? :=
  List.mem_filterMap.2 ⟨call, List.mem_filter.2 ⟨hcall, hmade⟩, hpush⟩

/-- **First, and last.**  All that is ever done inside the push of an `OrderedPacketSender` on the
channel `first` is done before anything that is done inside its push on `last`: packets are
delivered on its thread and enqueued to any groups before. -/
theorem OrderedPacketSender.first_before_last {s₀ : GraphState} (h₀ : s₀.Idle)
    (h : G.machine.Reachable (fun s a => handlerRuns H s a ∨ outsideRuns s a) s₀ s)
    (hd : s.log[delivery]? = some d) (hnode : H d.via.node = OrderedPacketSender.handlePacket)
    {i j : ℕ} {call' : Call} (hi : s.calls[i]? = some call) (hj : s.calls[j]? = some call')
    (hmade : isMadeBy delivery call = true) (hmade' : isMadeBy delivery call' = true)
    (hfirst : call.kind = .pushPacket d.via.node "first")
    (hlast : call'.kind = .pushPacket d.via.node "last") {c c' : ℕ} (hc : s.Under i c)
    (hc' : s.Under j c') : G.Before s₀ s c c' := by
  have hscripted : Scripted H s := scripted_of_reachable h₀ h
  have hpushed := hscripted.pushed delivery
  rw [script_eq hd, hnode] at hpushed
  change s.pushed delivery <+: [⟨d.packet, "first"⟩, ⟨d.packet, "last"⟩] at hpushed
  have hpush : call.push? = some ⟨call.pushed, "first"⟩ := by rw [Call.push?, hfirst]
  have hpush' : call'.push? = some ⟨call'.pushed, "last"⟩ := by rw [Call.push?, hlast]
  -- which packet it was follows from the channel
  have hmem : ∀ push ∈ s.pushed delivery, push = ⟨d.packet, "first"⟩ ∨ push = ⟨d.packet, "last"⟩ :=
    fun push h => by simpa using hpushed.subset h
  have hfirstPush := (hmem _ (mem_pushed (List.mem_of_getElem? hi) hmade hpush)).resolve_right
    fun heq => absurd (congrArg Push.channel heq) (by decide : "first" ≠ "last")
  have hlastPush := (hmem _ (mem_pushed (List.mem_of_getElem? hj) hmade' hpush')).resolve_left
    fun heq => absurd (congrArg Push.channel heq) (by decide : "last" ≠ "first")
  rw [hfirstPush] at hpush
  rw [hlastPush] at hpush'
  have hij : i < j := by
    by_contra hge
    rcases Nat.lt_or_eq_of_le (Nat.le_of_not_lt hge) with hlt | rfl
    · have hsplit := List.take_append_drop (j + 1) s.calls
      rw [GraphState.pushed, ← hsplit, List.filter_append, List.filterMap_append] at hpushed
      refine not_prefix_pair
        (fun heq => absurd (congrArg Push.channel heq) (by decide : "first" ≠ "last"))
        (mem_pushed ?_ hmade' hpush') (mem_pushed ?_ hmade hpush) hpushed
      · refine List.mem_of_getElem? (i := j) ?_
        rw [List.getElem?_take_of_lt (Nat.lt_succ_self j), hj]
      · refine List.mem_of_getElem? (i := i - (j + 1)) ?_
        rw [List.getElem?_drop, ← hi]
        congr 1
        omega
    · obtain rfl := Option.some.inj (hi.symm.trans hj)
      rw [hfirst] at hlast
      exact absurd (CallKind.pushPacket.inj hlast).2 (by decide)
  have hmadeBy : ∀ {k : ℕ} {call : Call}, s.calls[k]? = some call →
      isMadeBy delivery call = true → s.MadeBy delivery k := by
    intro k call hk hmade
    rw [isMadeBy, beq_iff_eq, Option.map_eq_some_iff] at hmade
    obtain ⟨⟨delivery', pushes⟩, hcause, rfl⟩ := hmade
    exact ⟨call, pushes, hk, hcause⟩
  exact runs_to_completion h₀ hij (hmadeBy hi hmade) (hmadeBy hj hmade') hc hc'

end

/-! ### An example -/

/-- `sender` pushes to `sink` on both channels. -/
def orderedGraph : DataGraphImpl where
  mGraph := (∅ : UnorderedMap String GraphNode)
    |>.insert "sender" ⟨"sender", "sender", (∅ : UnorderedMap String (List GraphEdge))
      |>.insert "first" [{ channel := "first", next := "sink" }]
      |>.insert "last" [{ channel := "last", next := "sink" }]⟩
    |>.insert "sink" ⟨"sink", "sink", ∅⟩
  mInstances := (∅ : UnorderedMap String Instance)
    |>.insert "sender" ⟨some ⟨true⟩, ""⟩
    |>.insert "sink" ⟨some ⟨true⟩, ""⟩
  mUvLoopThreadId _ := 0

/-- `sink` does nothing. -/
def orderedHandlers : Handlers := fun node =>
  if node = "sender" then OrderedPacketSender.handlePacket else fun _ => pure ()

/-- A packet is sent to `sender`, which passes it on. -/
def orderedSchedule : List Act :=
  [.sendPacket 7 {} "sender", .run 7, .run 7, .run 7, .wake "", .dequeue 0 [0], .run 0, .run 0,
    .pushPacket 0 "sender" "first" {}, .run 0, .ret 0, .run 0, .run 0,
    .pushPacket 0 "sender" "last" {}, .run 0]

/-- The state the schedule leads to. -/
def orderedState : GraphState :=
  (orderedGraph.machine.exec (fun _ _ => true) startState orderedSchedule).getD startState

theorem orderedState_reachable : orderedGraph.machine.Reachable
    (fun s a => handlerRuns orderedHandlers s a ∨ outsideRuns s a) startState orderedState := by
  refine ⟨orderedSchedule, .head (.inr rfl) rfl ?_⟩
  -- up to the handler of `sender`
  refine .head (.inl trivial) rfl (.head (.inl trivial) rfl (.head (.inl trivial) rfl ?_))
  refine .head (.inl trivial) rfl (.head (.inl trivial) rfl (.head (.inl trivial) rfl ?_))
  refine .head (.inl trivial) rfl (.head (.inl ⟨0, 0, _, rfl, rfl⟩) rfl ?_)
  -- the handler of `sink`
  refine .head (.inl trivial) rfl (.head (.inl ⟨1, _, _, _, rfl, by decide, rfl⟩) rfl ?_)
  refine .head (.inl trivial) rfl (.head (.inl trivial) rfl ?_)
  exact .head (.inl ⟨0, 1, _, rfl, rfl⟩) rfl (.head (.inl trivial) rfl (.nil _))

theorem OrderedPacketSender.first_before_last_sink :
    orderedGraph.Before startState orderedState 1 2 :=
  OrderedPacketSender.first_before_last startState_idle orderedState_reachable
    (show orderedState.log[0]? = _ from rfl) rfl (show orderedState.calls[1]? = _ from rfl)
    (show orderedState.calls[2]? = _ from rfl) rfl rfl rfl rfl .refl .refl

end Maplang
