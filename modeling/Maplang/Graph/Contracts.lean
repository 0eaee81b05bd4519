import Maplang.Graph.Draining
import Maplang.Graph.Handlers

/-!
# Handlers that do not throw

If the packets from outside are fine, and handlers make fine packets of fine ones (`Contract`), then
in a graph without cycles nothing ever throws, and every handler pushes all that its implementation
says, onto the parameters of the packet it was called with.

## Main definitions

* `DataGraphImpl.Contract` : what handlers make of fine packets.
* `fromOutside` : code outside the graph whose packets are fine.
* `DataGraphImpl.Above` : stacks of graphs without cycles.
* `Driven` : the invariant.

## Main results

* `Driven.step` : what a step does.
* `driven_of_reachable` : the invariant holds in all runs, in which nothing throws.
-/

namespace Maplang

open DataGraphImpl GraphState

/-- The step condition for code outside the graph whose packets are fine where they arrive. -/
def fromOutside (G : DataGraphImpl) (fine : String → Packet → Prop) : GraphState → Act → Prop
  | s, .pushPacket t node channel packet =>
    s.stack t = [] ∧ ∀ parameters,
      accumulate (s.lastReceivedParameters node) packet.parameters = .ok parameters →
      ∀ e ∈ (G.channelEdges node channel).getD [], fine e.next { packet with parameters }
  | s, .sendPacket t packet toNode => s.stack t = [] ∧ G.Receives toNode ∧ fine toNode packet
  | _, _ => False

/-- The step condition of runs in which handlers do what their implementations say, and the packets
from outside are fine. -/
def fineRuns (G : DataGraphImpl) (H : Handlers) (fine : String → Packet → Prop) (s : GraphState)
    (a : Act) : Prop :=
  handlerRuns H s a ∨ fromOutside G fine s a

/-- Handlers return for fine packets, and what they push can be merged with the parameters they
received, and is fine where it arrives. -/
structure DataGraphImpl.Contract (G : DataGraphImpl) (H : Handlers)
    (fine : String → Packet → Prop) : Prop where
  returns : ∀ node p, fine node p → (H node p).result = .ok ()
  pushes : ∀ node p, fine node p → ∀ push ∈ (H node p).log, ∃ parameters,
    accumulate (some p.parameters) push.packet.parameters = .ok parameters ∧
    ∀ e ∈ (G.channelEdges node push.channel).getD [], fine e.next { push.packet with parameters }

/-! ### Stacks of graphs without cycles -/

/-- The node whose handler this is. -/
def Frame.handlerNode : Frame → Option String
  | .handlePacket _ node _ => some node
  | _ => none

namespace DataGraphImpl

variable (G : DataGraphImpl)

/-- The nodes whose handlers a frame is, or calls. -/
def Calls : Frame → String → Prop
  | .handlePacket _ node _, b => b = node
  | .pushEdges _ call _ _ _, b => ∃ e ∈ G.edgesOf call, e.next = b
  | _, _ => False

/-- A frame above another one: nothing is below `packetReady`, and what a handler has called, its
node leads to. -/
def Above (f f' : Frame) : Prop :=
  (∀ g, f ≠ .packetReady g) ∧
  ∀ a, f'.handlerNode = some a → ∀ b, G.Calls f b → Relation.TransGen G.LeadsTo a b

variable {G} {f f' : Frame} {frames rest : List Frame}

/-- A frame may be replaced by another one that calls less. -/
theorem above_replace (h : (f :: rest).Pairwise G.Above) (hf' : ∀ g, f' ≠ .packetReady g)
    (hcalls : ∀ b, G.Calls f' b → G.Calls f b) : (f' :: rest).Pairwise G.Above := by
  obtain ⟨hf, hrest⟩ := List.pairwise_cons.1 h
  exact List.pairwise_cons.2 ⟨fun f₀ hf₀ =>
    ⟨hf', fun a ha b hb => (hf f₀ hf₀).2 a ha b (hcalls b hb)⟩, hrest⟩

/-- `packetReady` is called by the loop. -/
theorem rest_eq_nil {g : String} (h : (.packetReady g :: rest).Pairwise G.Above) : rest = [] := by
  cases rest with
  | nil => rfl
  | cons f rest => exact absurd rfl (((List.pairwise_cons.1 h).1 f List.mem_cons_self).1 g)

end DataGraphImpl

/-! ### The invariant -/

/-- What holds in every state of a run in which packets from outside are fine. -/
structure Driven (G : DataGraphImpl) (H : Handlers) (fine : String → Packet → Prop)
    (s : GraphState) : Prop where
  scripted : Scripted H s
  /-- Packets are fine where they are sent to. -/
  fine : ∀ call ∈ s.calls, ∀ via ∈ G.vias call, fine via.node call.packet
  /-- A handler pushes onto the parameters it received. -/
  inherits : ∀ call ∈ s.calls, ∀ delivery pushes d, call.cause = some (delivery, pushes) →
    s.log[delivery]? = some d → call.received = some d.packet.parameters
  above : ∀ t, (s.stack t).Pairwise G.Above
  /-- A node has received nothing since its handler was called. -/
  received : ∀ t delivery node pushes, .handlePacket delivery node pushes ∈ s.stack t →
    ∃ d, s.log[delivery]? = some d ∧ s.lastReceivedParameters node = some d.packet.parameters
  finished : ∀ delivery < s.log.length, (∀ t, delivery ∉ handlersOf (s.stack t)) →
    s.pushed delivery = (s.script H delivery).log

section

variable {G : DataGraphImpl} {H : Handlers} {fine : String → Packet → Prop} {s s' : GraphState}
  {t : ThreadId} {frames rest : List Frame} {delivery : ℕ} {d : Delivery} {call : Call}

/-- Fine packets are delivered. -/
theorem Driven.fine_of_log (h : Driven G H fine s) (htraced : G.Traced s) (hd : d ∈ s.log) :
    fine d.via.node d.packet := by
  obtain ⟨call, hcall, hpacket, hvia, -⟩ := htraced.log d hd
  rw [hpacket]
  exact h.fine call (List.mem_of_getElem? hcall) _ hvia

/-- A handler that is running was called with a fine packet, which its node has received last. -/
theorem Driven.of_handler (h : Driven G H fine s) (htraced : G.Traced s) {node : String}
    {pushes : ℕ} (hf : .handlePacket delivery node pushes ∈ s.stack t) :
    ∃ d, s.log[delivery]? = some d ∧ d.via.node = node ∧ fine node d.packet ∧
      s.lastReceivedParameters node = some d.packet.parameters ∧
      s.script H delivery = H node d.packet := by
  obtain ⟨d, hd, rfl, -⟩ := htraced.frames t _ hf
  obtain ⟨d', hd', hreceived⟩ := h.received t _ _ _ hf
  obtain rfl := Option.some.inj (hd.symm.trans hd')
  exact ⟨d, hd, rfl, h.fine_of_log htraced (List.mem_of_getElem? hd), hreceived, script_eq hd⟩

/-- A handler cannot throw. -/
theorem Driven.not_canThrow (h : Driven G H fine s) (hcontract : G.Contract H fine)
    (htraced : G.Traced s) {node : String} {pushes : ℕ}
    (hf : .handlePacket delivery node pushes ∈ s.stack t) :
    ¬ s.CanThrow H delivery node pushes := by
  obtain ⟨d, hd, -, hfine, hreceived, hscript⟩ := h.of_handler htraced hf
  rw [CanThrow, hscript, hreceived]
  rintro (⟨push, fault, hpush, hfault⟩ | ⟨-, hresult⟩)
  · obtain ⟨parameters, hok, -⟩ := hcontract.pushes node d.packet hfine push
      (List.mem_of_getElem? hpush)
    rw [hok] at hfault
    cases hfault
  · exact hresult (hcontract.returns node d.packet hfine)

/-- A step that handlers or code outside the graph make is one of a sound run: nothing throws. -/
theorem sound_of_fine (h : Driven G H fine s) (hcontract : G.Contract H fine)
    (htraced : G.Traced s) (hsound : s.Sound G) {a : Act} (hstep : GraphStep G s a s')
    (hok : fineRuns G H fine s a) : soundRuns G s a := by
  cases hstep with
  | send =>
    rcases hok with hok | hok
    · exact hok.elim
    · exact hok.2.1
  | throw =>
    rcases hok with ⟨delivery, node, pushes, rest, hs, hthrow⟩ | hok
    · exact h.not_canThrow hcontract htraced (by rw [hs]; exact List.mem_cons_self) hthrow
    · exact hok
  | unwind hs => exact hsound.goesOn _ .thrown (by rw [hs]; exact List.mem_cons_self)
  | destroy => exact hok.elim id id
  | _ => trivial

/-! ### What a step does -/

/-- A step that makes no call and no delivery, and leaves the handlers that are running. -/
theorem Driven.restack (h : Driven G H fine s) (hscripted : Scripted H s')
    (hcalls : s'.calls = s.calls) (hlog : s'.log = s.log)
    (hlast : s'.lastReceivedParameters = s.lastReceivedParameters)
    (hstack : s'.stack = Function.update s.stack t frames) (habove : frames.Pairwise G.Above)
    (hhandlers : ∀ delivery node pushes, .handlePacket delivery node pushes ∈ frames ↔
      .handlePacket delivery node pushes ∈ s.stack t) : Driven G H fine s' := by
  have hsame : ∀ u delivery node pushes, .handlePacket delivery node pushes ∈ s'.stack u ↔
      .handlePacket delivery node pushes ∈ s.stack u := by
    rw [hstack]
    exact forall_update (P := fun u frames => ∀ delivery node pushes,
      .handlePacket delivery node pushes ∈ frames ↔ .handlePacket delivery node pushes ∈ s.stack u)
      (fun _ _ _ _ => Iff.rfl) hhandlers
  constructor
  case scripted => exact hscripted
  case fine => exact hcalls ▸ h.fine
  case inherits => exact hcalls ▸ hlog ▸ h.inherits
  case above =>
    rw [hstack]
    exact forall_update h.above habove
  case received =>
    intro u delivery node pushes hf
    rw [hlog, hlast]
    exact h.received u delivery node pushes ((hsame u _ _ _).1 hf)
  case finished =>
    intro delivery hlt hno
    rw [GraphState.pushed, script, hcalls, hlog]
    refine h.finished delivery (hlog ▸ hlt) fun u hu => hno u ?_
    obtain ⟨node, pushes, hf⟩ := mem_handlersOf.1 hu
    exact mem_handlersOf.2 ⟨node, pushes, (hsame u _ _ _).2 hf⟩

/-- A change to a group. -/
theorem Driven.onGroup (h : Driven G H fine s) (g : String) (m : ThreadGroup → ThreadGroup) :
    Driven G H fine (s.onGroup g m) :=
  ⟨h.scripted.restack rfl rfl fun _ _ _ _ hf => hf, h.fine, h.inherits, h.above, h.received,
    h.finished⟩

/-- The frame on top is replaced by one that calls less. -/
theorem Driven.replaceTop (h : Driven G H fine s) {f f' : Frame} (hs : s.stack t = f :: rest)
    (hf : f.deliveryOf = none) (hf' : f'.deliveryOf = none) (hready : ∀ g, f' ≠ .packetReady g)
    (hcalls : ∀ b, G.Calls f' b → G.Calls f b) : Driven G H fine (s.setStack t (f' :: rest)) := by
  have habove := h.above t
  rw [hs] at habove
  refine h.restack (h.scripted.replaceTop hs hf' rfl rfl rfl) rfl rfl rfl rfl
    (above_replace habove hready hcalls) fun delivery node pushes => ?_
  rw [hs, List.mem_cons, List.mem_cons]
  refine or_congr_left (iff_of_false ?_ ?_)
  · rintro rfl
    cases hf'
  · rintro rfl
    cases hf

/-- The frame on top is taken off. -/
theorem Driven.dropTop (h : Driven G H fine s) {f : Frame} (hs : s.stack t = f :: rest)
    (hf : f.deliveryOf = none) : Driven G H fine (s.setStack t rest) := by
  have habove := h.above t
  have hscripted : Scripted H (s.setStack t rest) :=
    h.scripted.drop 1 rfl rfl (by rw [hs]; rfl)
  rw [hs] at habove
  refine h.restack hscripted rfl rfl rfl rfl (List.pairwise_cons.1 habove).2
    fun delivery node pushes => ?_
  rw [hs, List.mem_cons]
  refine (or_iff_right ?_).symm
  rintro rfl
  cases hf

/-- A handler that has pushed everything returns. -/
theorem Driven.ret (h : Driven G H fine s) {node : String} {pushes : ℕ}
    (hs : s.stack t = .handlePacket delivery node pushes :: rest)
    (hall : (s.script H delivery).log.length ≤ pushes) :
    Driven G H fine (s.setStack t rest) := by
  have habove := h.above t
  rw [hs] at habove
  constructor
  case scripted => exact h.scripted.drop 1 rfl rfl (by rw [hs]; rfl)
  case fine => exact h.fine
  case inherits => exact h.inherits
  case above => exact forall_update h.above (List.pairwise_cons.1 habove).2
  case received =>
    intro u delivery node pushes hf
    refine h.received u delivery node pushes ?_
    rw [setStack_stack] at hf
    by_cases hu : u = t
    · rw [hu, Function.update_self] at hf
      rw [hu, hs]
      exact List.mem_cons_of_mem _ hf
    · rwa [Function.update_of_ne hu] at hf
  case finished =>
    intro delivery' hlt hno
    by_cases hdelivery : delivery' = delivery
    · have hrunning := h.scripted.running t delivery node pushes
        (by rw [hs]; exact List.mem_cons_self)
      rw [List.take_of_length_le hall] at hrunning
      rw [hdelivery]
      exact hrunning
    · refine h.finished delivery' hlt fun u hu => hno u ?_
      rw [setStack_stack]
      by_cases hut : u = t
      · rw [hut, hs, handlersOf_handlePacket, List.mem_cons] at hu
        rw [hut, Function.update_self]
        exact hu.resolve_left hdelivery
      · rwa [Function.update_of_ne hut]

/-- What all new calls have in common: their handlers are running. -/
theorem Driven.beginCall (h : Driven G H fine s)
    (hscripted : Scripted H (s.beginCall t call frames)) (hframes : handlersOf frames = [])
    (hfine : ∀ via ∈ G.vias call, fine via.node call.packet)
    (habove : (frames ++ notePush call.kind (s.stack t)).Pairwise G.Above)
    (hcause : call.cause = causeOf (s.stack t))
    (hreceived : ∀ delivery node pushes, .handlePacket delivery node pushes ∈ s.stack t →
      call.cause.map Prod.fst = some delivery →
        call.received = s.lastReceivedParameters node) :
    Driven G H fine (s.beginCall t call frames) := by
  have hhandlers : ∀ u, handlersOf ((s.beginCall t call frames).stack u) =
      handlersOf (s.stack u) := by
    rw [beginCall_stack]
    refine forall_update (P := fun u frames => handlersOf frames = handlersOf (s.stack u))
      (fun _ => rfl) ?_
    rw [handlersOf, List.filterMap_append, ← handlersOf, ← handlersOf, hframes, List.nil_append,
      handlersOf_notePush]
  -- a handler that has made the call is on top
  have htop : ∀ delivery pushes, call.cause = some (delivery, pushes) →
      ∃ node rest, s.stack t = .handlePacket delivery node pushes :: rest := by
    intro delivery pushes hcause'
    rw [hcause] at hcause'
    unfold causeOf at hcause'
    split at hcause'
    · rename_i heq
      obtain ⟨rfl, rfl⟩ := Prod.mk.inj (Option.some.inj hcause')
      exact ⟨_, _, heq⟩
    · cases hcause'
  constructor
  case scripted => exact hscripted
  case fine =>
    intro c hc
    rcases List.mem_append.1 hc with hc | hc
    · exact h.fine c hc
    · rw [List.mem_singleton.1 hc]
      exact hfine
  case inherits =>
    intro c hc delivery pushes d hc' hd
    rcases List.mem_append.1 hc with hc | hc
    · exact h.inherits c hc delivery pushes d hc' hd
    · rw [List.mem_singleton.1 hc] at hc' ⊢
      obtain ⟨node, rest, hs⟩ := htop delivery pushes hc'
      have hf : .handlePacket delivery node pushes ∈ s.stack t := by
        rw [hs]
        exact List.mem_cons_self
      obtain ⟨d', hd', hlast⟩ := h.received t _ _ _ hf
      obtain rfl := Option.some.inj (hd'.symm.trans hd)
      rw [hreceived _ _ _ hf (by rw [hc']; rfl), hlast]
  case above => exact forall_update h.above habove
  case received =>
    intro u delivery node pushes hf
    rw [beginCall_stack] at hf
    by_cases hu : u = t
    · rw [hu, Function.update_self] at hf
      rcases List.mem_append.1 hf with hf | hf
      · exact absurd (mem_handlersOf.2 ⟨node, pushes, hf⟩) (hframes ▸ List.not_mem_nil)
      · obtain ⟨pushes', hold⟩ : ∃ pushes', .handlePacket delivery node pushes' ∈ s.stack t := by
          unfold notePush at hf
          split at hf
          · rename_i heq
            rw [heq]
            rcases List.mem_cons.1 hf with hf | hf
            · cases hf
              exact ⟨_, List.mem_cons_self⟩
            · exact ⟨_, List.mem_cons_of_mem _ hf⟩
          · exact ⟨_, hf⟩
        exact h.received t delivery node pushes' hold
    · rw [Function.update_of_ne hu] at hf
      exact h.received u delivery node pushes hf
  case finished =>
    intro delivery hlt hno
    simp only [hhandlers] at hno
    have hnot : ¬ isMadeBy delivery call = true := by
      rw [isMadeBy, beq_iff_eq, Option.map_eq_some_iff]
      rintro ⟨⟨delivery', pushes⟩, hcause', rfl⟩
      obtain ⟨node, rest, hs⟩ := htop _ _ hcause'
      exact hno t (mem_handlersOf.2 ⟨node, pushes, by rw [hs]; exact List.mem_cons_self⟩)
    rw [pushed_beginCall, if_neg hnot, List.append_nil]
    exact h.finished delivery hlt hno

/-- Code outside the graph makes a call. -/
theorem Driven.outside (h : Driven G H fine s) (hs : s.stack t = [])
    (hframes : handlersOf frames = []) (hcause : call.cause = causeOf (s.stack t))
    (hfine : ∀ via ∈ G.vias call, fine via.node call.packet) (habove : frames.Pairwise G.Above) :
    Driven G H fine (s.beginCall t call frames) := by
  refine h.beginCall (h.scripted.outside hs hcause hframes) hframes hfine ?_ hcause
    fun delivery node pushes hf => ?_
  · have hnote : notePush call.kind (s.stack t) = [] := by
      rw [hs]
      cases call.kind <;> rfl
    rwa [hnote, List.append_nil]
  · rw [hs] at hf
    cases hf

/-- A handler pushes what comes next. -/
theorem Driven.push (h : Driven G H fine s) (hcontract : G.Contract H fine) (htraced : G.Traced s)
    (hnested : s.WellNested) {node channel : String} {packet : Packet} {parameters : Json}
    {pushes : ℕ} (hs : s.stack t = .handlePacket delivery node pushes :: rest)
    (hnext : (s.script H delivery).log[pushes]? = some ⟨packet, channel⟩)
    (hmerged : accumulate (s.lastReceivedParameters node) packet.parameters = .ok parameters)
    (hframes : handlersOf frames = [])
    (habove : (frames ++ .handlePacket delivery node (pushes + 1) :: rest).Pairwise G.Above) :
    Driven G H fine (s.beginCall t (s.pushCall t node channel packet parameters) frames) := by
  have hf : .handlePacket delivery node pushes ∈ s.stack t := by
    rw [hs]
    exact List.mem_cons_self
  obtain ⟨d, hd, rfl, hfine, hreceived, hscript⟩ := h.of_handler htraced hf
  refine h.beginCall (h.scripted.push htraced hnested hs hnext hframes) hframes ?_ ?_ rfl ?_
  · intro via hvia
    obtain ⟨e, he, rfl⟩ := List.mem_map.1 hvia
    rw [hscript] at hnext
    obtain ⟨parameters', hok, hedges⟩ := hcontract.pushes _ d.packet hfine _
      (List.mem_of_getElem? hnext)
    rw [hreceived] at hmerged
    obtain rfl := Except.ok.inj (hmerged.symm.trans hok)
    exact hedges e he
  · rw [hs]
    exact habove
  · intro delivery' node' pushes' hf' hcause
    have hsame : delivery = delivery' := by
      rw [pushCall, hs] at hcause
      exact Option.some.inj hcause
    subst hsame
    obtain ⟨d', hd', hnode', -⟩ := htraced.frames t _ hf'
    obtain rfl := Option.some.inj (hd'.symm.trans hd)
    rw [← hnode']
    rfl

/-- A node receives a packet: none of its handlers is running. -/
theorem Driven.deliver (h : Driven G H fine s) (hacyclic : G.Acyclic) (htraced : G.Traced s)
    {callId : ℕ} {packet : Packet} {via : Via} (hreceives : G.Receives via.node)
    (hthread : G.threadOf via.node = some t)
    (habove : (.handlePacket s.log.length via.node 0 :: frames).Pairwise G.Above)
    (hframes : ∀ f ∈ frames, f ∈ s.stack t ∨ f.deliveryOf = none)
    (hhandlers : ∀ delivery node pushes, .handlePacket delivery node pushes ∈ s.stack t →
      .handlePacket delivery node pushes ∈ frames) :
    Driven G H fine (G.sendPacketToNode s t callId packet via frames) := by
  have hlog : s.log <+: s.log ++ [⟨callId, via, packet, t⟩] := List.prefix_append _ _
  constructor
  case scripted => exact h.scripted.deliver htraced hframes
  case fine => exact h.fine
  case inherits =>
    intro call hcall delivery pushes d hcause hd
    obtain ⟨d', -, hd', -⟩ := h.scripted.own call hcall delivery pushes hcause
    obtain rfl := Option.some.inj ((getElem?_mono hlog hd').symm.trans hd)
    exact h.inherits call hcall delivery pushes d' hcause hd'
  case above =>
    rw [sendPacketToNode_stack, receive_eq hreceives]
    exact forall_update h.above habove
  case received =>
    intro u delivery node pushes hf
    rw [sendPacketToNode_log, sendPacketToNode_lastReceivedParameters]
    have hold : .handlePacket delivery node pushes ∈ s.stack u → node ≠ via.node →
        ∃ d, (s.log ++ [⟨callId, via, packet, t⟩])[delivery]? = some d ∧
          Function.update s.lastReceivedParameters via.node (some packet.parameters) node =
            some d.packet.parameters := fun hf hne => by
      obtain ⟨d, hd, hreceived⟩ := h.received u delivery node pushes hf
      rw [Function.update_of_ne hne]
      exact ⟨d, getElem?_mono hlog hd, hreceived⟩
    rw [sendPacketToNode_stack, receive_eq hreceives] at hf
    by_cases hu : u = t
    · rw [hu, Function.update_self] at hf
      rcases List.mem_cons.1 hf with heq | hf
      · cases heq
        exact ⟨_, List.getElem?_concat_length, by rw [Function.update_self]⟩
      · rcases hframes _ hf with hmem | hmem
        · refine hold (hu ▸ hmem) ?_
          rintro rfl
          exact hacyclic _ (((List.pairwise_cons.1 habove).1 _ hf).2 _ rfl _ rfl)
        · cases hmem
    · rw [Function.update_of_ne hu] at hf
      refine hold hf ?_
      rintro rfl
      exact hu (Option.some.inj ((htraced.threadOf_handler hf).symm.trans hthread))
  case finished =>
    intro delivery hdelivery hno
    rw [sendPacketToNode_stack, receive_eq hreceives] at hno
    rw [sendPacketToNode_log, List.length_append, List.length_singleton] at hdelivery
    have hne : delivery ≠ s.log.length := by
      rintro rfl
      refine hno t ?_
      rw [Function.update_self]
      exact List.mem_cons_self
    have hold : delivery < s.log.length := by omega
    rw [script_mono hlog hold]
    refine h.finished delivery hold fun u hu => hno u ?_
    obtain ⟨node, pushes, hf⟩ := mem_handlersOf.1 hu
    by_cases hut : u = t
    · rw [hut, Function.update_self]
      exact mem_handlersOf.2 ⟨node, pushes, List.mem_cons_of_mem _ (hhandlers _ _ _ (hut ▸ hf))⟩
    · rwa [Function.update_of_ne hut]

/-- What a call has to deliver to, for an edge of its loop. -/
theorem edge_mem_edgesOf {id : ℕ} {e : GraphEdge} {edges : List GraphEdge}
    {queuedTo : List ThreadId} {groups : List String} (htraced : G.Traced s)
    (hs : s.stack t = .pushEdges id call (e :: edges) queuedTo groups :: rest) :
    e ∈ G.edgesOf call ∧ ∃ node, G.LeadsTo node e.next := by
  obtain ⟨-, hsuffix, -⟩ :=
    htraced.frames t (.pushEdges id call (e :: edges) queuedTo groups) (by simp [hs])
  have he := hsuffix.subset (List.mem_cons_self (a := e))
  refine ⟨he, ?_⟩
  unfold edgesOf at he
  split at he
  · exact ⟨_, _, mem_allEdges he, rfl⟩
  · cases he

/-- The frame of a push, on a handler that has made it. -/
theorem above_push {node channel : String} {parameters : Json} {packet : Packet} {pushes : ℕ}
    {edges : List GraphEdge} (h : Driven G H fine s)
    (hs : s.stack t = .handlePacket delivery node pushes :: rest) :
    (Frame.pushEdges s.calls.length (s.pushCall t node channel packet parameters) edges [] [] ::
      .handlePacket delivery node (pushes + 1) :: rest).Pairwise G.Above := by
  have habove := h.above t
  rw [hs] at habove
  refine List.pairwise_cons.2 ⟨fun f hf => ⟨nofun, ?_⟩, above_replace habove nofun fun b hb => hb⟩
  rintro a ha b ⟨e, he, rfl⟩
  have hleads : G.LeadsTo node e.next := ⟨_, mem_allEdges he, rfl⟩
  rcases List.mem_cons.1 hf with rfl | hf
  · cases ha
    exact .single hleads
  · exact (((List.pairwise_cons.1 habove).1 f hf).2 a ha node rfl).tail hleads

/-- The handler of a direct edge, on the push that has called it. -/
theorem above_edge {id : ℕ} {e : GraphEdge} {edges : List GraphEdge} {queuedTo : List ThreadId}
    {groups : List String} (h : Driven G H fine s) (he : e ∈ G.edgesOf call)
    (hs : s.stack t = .pushEdges id call (e :: edges) queuedTo groups :: rest) :
    (Frame.handlePacket s.log.length e.next 0 :: .pushEdges id call edges queuedTo groups ::
      rest).Pairwise G.Above := by
  have habove := h.above t
  rw [hs] at habove
  refine List.pairwise_cons.2 ⟨fun f hf => ⟨nofun, ?_⟩, above_replace habove nofun fun b hb => hb⟩
  rintro a ha b rfl
  rcases List.mem_cons.1 hf with rfl | hf
  · cases ha
  · exact ((List.pairwise_cons.1 habove).1 f hf).2 a ha e.next ⟨e, he, rfl⟩

/-- **Any step.** -/
theorem Driven.step (h : Driven G H fine s) (hcontract : G.Contract H fine)
    (hacyclic : G.Acyclic) (himplemented : G.Implemented) (htraced : G.Traced s)
    (hnested : s.WellNested) (hsound : s.Sound G) {a : Act} (hstep : GraphStep G s a s')
    (hok : fineRuns G H fine s a) : Driven G H fine s' := by
  have hquiet := sound_of_fine h hcontract htraced hsound hstep hok
  cases hstep with
  | @drop t node channel packet parameters _ hmerged hedges =>
    rcases hok with ⟨delivery, pushes, rest, hs, hnext⟩ | ⟨hs, hfine⟩
    · refine h.push hcontract htraced hnested hs hnext hmerged rfl ?_
      have habove := h.above t
      rw [hs] at habove
      exact above_replace habove nofun fun b hb => hb
    · refine h.outside hs rfl rfl (fun via hvia => ?_) .nil
      obtain ⟨e, he, rfl⟩ := List.mem_map.1 hvia
      exact hfine parameters hmerged e he
  | @push t node channel packet parameters edges _ hmerged hedges =>
    rcases hok with ⟨delivery, pushes, rest, hs, hnext⟩ | ⟨hs, hfine⟩
    · exact h.push hcontract htraced hnested hs hnext hmerged rfl (above_push h hs)
    · refine h.outside hs rfl rfl (fun via hvia => ?_) (List.pairwise_singleton _ _)
      obtain ⟨e, he, rfl⟩ := List.mem_map.1 hvia
      exact hfine parameters hmerged e he
  | send =>
    rcases hok with hok | ⟨hs, -, hfine⟩
    · exact hok.elim
    · refine h.outside hs rfl rfl (fun via hvia => ?_) (List.pairwise_singleton _ _)
      rw [List.mem_singleton.1 hvia]
      exact hfine
  | edgeThrows hs hg =>
    exact absurd hg (groupOf_ne_none_of_edge himplemented (edge_mem_edgesOf htraced hs).1)
  | @edgeDirect t id call e edges queuedTo groups rest hs hdirect =>
    obtain ⟨he, node, hleads⟩ := edge_mem_edgesOf htraced hs
    refine h.deliver hacyclic htraced (himplemented node e.next hleads)
      (threadOf_of_pushesDirectly hdirect) (above_edge h he hs)
      (List.forall_mem_cons.2 ⟨.inr rfl, fun f hf => .inl ?_⟩) fun delivery node pushes hf => ?_
    · rw [hs]
      exact List.mem_cons_of_mem _ hf
    · rw [hs] at hf
      exact List.mem_cons_of_mem _ ((List.mem_cons.1 hf).resolve_left nofun)
  | edgeKnown hs | edgeNew hs => exact h.replaceTop hs rfl rfl nofun fun b hb => hb
  | edgesDone hs => exact h.replaceTop hs rfl rfl nofun nofun
  | enqueue hs | signal hs => exact (h.onGroup _ _).replaceTop hs rfl rfl nofun nofun
  | enqueueDone hs => exact h.dropTop hs rfl
  | @readyThrows t g rest r info x sending hs hr hsending hthrows =>
    have hx := ((htraced.groups g).sending r hr (info, x) (by simp [hsending])).2
    rw [lookupThrows_eq_false himplemented hx] at hthrows
    cases hthrows
  | @readySends t g rest r info x sending hs hr hsending hselects =>
    obtain ⟨hentry, hx⟩ := (htraced.groups g).sending r hr (info, x) (by simp [hsending])
    obtain rfl : t = G.mUvLoopThreadId g := htraced.frames t (.packetReady g) (by simp [hs])
    obtain ⟨call, hcall, -, hvia, hthread⟩ := deliveryOk_of_selects hentry hx hselects
    have habove := h.above (G.mUvLoopThreadId g)
    rw [hs] at habove
    obtain rfl := rest_eq_nil habove
    have hdeliver : Driven G H fine (G.sendPacketToNode s (G.mUvLoopThreadId g) info.callId
        info.packet x.2 [.packetReady g]) := by
      refine h.deliver hacyclic htraced
        (hsound.receives_of_vias himplemented (List.mem_of_getElem? hcall) hvia) hthread
        (List.pairwise_cons.2 ⟨fun f hf => ⟨nofun, fun a ha => ?_⟩, habove⟩)
        (fun f hf => .inl (by rw [hs]; exact hf)) fun delivery node pushes hf => ?_
      · rw [List.mem_singleton.1 hf] at ha
        cases ha
      · rwa [hs] at hf
    exact hdeliver.onGroup g fun group => group.setReady (some { r with sending })
  | readySkips | readyNext | dequeueNone | dequeueSome | wakeDead => exact h.onGroup _ _
  | readyDone hs => exact (h.onGroup _ _).dropTop hs rfl
  | @wake g hidle =>
    have hscripted : Scripted H (s.setStack (G.mUvLoopThreadId g) [.packetReady g]) :=
      h.scripted.setTop rfl rfl rfl (List.forall_mem_singleton.2 (.inr rfl))
    have hwoken : Driven G H fine (s.setStack (G.mUvLoopThreadId g) [.packetReady g]) := by
      refine h.restack hscripted rfl rfl rfl rfl (List.pairwise_singleton _ _)
        fun delivery node pushes => ?_
      rw [hidle, List.mem_singleton]
      exact iff_of_false nofun nofun
    exact hwoken.onGroup g fun group => { group with asyncPending := false, ready := some {} }
  | ret hs =>
    rcases hok with ⟨delivery, node, pushes, rest, hs', hall, -⟩ | hok
    · rw [hs] at hs'
      cases hs'
      exact h.ret hs hall
    · exact hok.elim
  | throw | unwind | destroy => exact hquiet.elim

/-! ### Runs -/

/-- **Handlers push all that their implementations say**, whatever the schedule, and nothing
throws. -/
theorem driven_of_reachable (hcontract : G.Contract H fine) (hacyclic : G.Acyclic)
    (himplemented : G.Implemented) {s₀ : GraphState} (h₀ : s₀.Idle)
    (h : G.machine.Reachable (fineRuns G H fine) s₀ s) :
    Driven G H fine s ∧ G.machine.Reachable (soundRuns G) s₀ s := by
  obtain ⟨acts, hrun⟩ := h
  have hinv : s.Sound G ∧ Driven G H fine s ∧ G.machine.Run (soundRuns G) s₀ acts s := by
    induction hrun with
    | nil =>
      refine ⟨sound_of_reachable himplemented h₀ ⟨[], .nil s₀⟩, ?_, .nil s₀⟩
      constructor
      case scripted => exact scripted_of_reachable h₀ ⟨[], .nil (M := G.machine) s₀⟩
      case fine => simp [h₀.calls]
      case inherits => simp [h₀.calls]
      case above => simp [h₀.stack]
      case received => simp [h₀.stack]
      case finished => simp [h₀.log]
    | snoc hrun hok hs ih =>
      obtain ⟨hsound, hdriven, hrun'⟩ := ih
      obtain ⟨htraced, hnested⟩ := wellNested_of_reachable h₀ ⟨_, hrun⟩
      have hstep := step_cases hs
      have hquiet := sound_of_fine hdriven hcontract htraced hsound hstep hok
      exact ⟨hsound.step himplemented htraced hquiet hstep,
        hdriven.step hcontract hacyclic himplemented htraced hnested hsound hstep hok,
        .snoc hrun' hquiet hs⟩
  exact ⟨hinv.2.1, acts, hinv.2.2⟩

end

end Maplang
