import Maplang.Graph.Dispatch

/-!
# What a step of a data graph can do

`GraphStep G s a s'` lists the steps of `DataGraphImpl.machine`, each with what it needs and the
state it leads to.  `step_cases` says the list is complete; every invariant is proved by going
through it, and no later proof unfolds a function of the machine.

`GroupStep s g a group` lists what a step can make of one thread group (`group_step`): an invariant
of the groups is proved by going through this shorter list.
-/

namespace Maplang

/-- The steps of a data graph. -/
inductive GraphStep (G : DataGraphImpl) (s : GraphState) : Act → GraphState → Prop
  | drop {t : ThreadId} {node channel : String} {packet : Packet} {parameters : Json} :
      canCall (s.stack t) = true →
      accumulate (s.lastReceivedParameters node) packet.parameters = .ok parameters →
      G.channelEdges node channel = none →
      GraphStep G s (.pushPacket t node channel packet)
        (s.beginCall t (s.pushCall t node channel packet parameters) [])
  | push {t : ThreadId} {node channel : String} {packet : Packet} {parameters : Json}
      {edges : List GraphEdge} :
      canCall (s.stack t) = true →
      accumulate (s.lastReceivedParameters node) packet.parameters = .ok parameters →
      G.channelEdges node channel = some edges →
      GraphStep G s (.pushPacket t node channel packet)
        (s.beginCall t (s.pushCall t node channel packet parameters)
          [.pushEdges s.calls.length (s.pushCall t node channel packet parameters) edges [] []])
  | send {t : ThreadId} {packet : Packet} {toNode g : String} :
      canCall (s.stack t) = true → G.groupOf toNode = some g →
      GraphStep G s (.sendPacket t packet toNode)
        (s.beginCall t (s.sendCall t packet toNode)
          [.enqueue s.calls.length (s.sendCall t packet toNode) [g]])
  | edgeThrows {t : ThreadId} {id : ℕ} {call : Call} {e : GraphEdge} {edges : List GraphEdge}
      {queuedTo : List ThreadId} {groups : List String} {rest : List Frame} :
      s.stack t = .pushEdges id call (e :: edges) queuedTo groups :: rest →
      G.groupOf e.next = none →
      GraphStep G s (.run t)
        (s.setStack t (.thrown :: .pushEdges id call (e :: edges) queuedTo groups :: rest))
  | edgeDirect {t : ThreadId} {id : ℕ} {call : Call} {e : GraphEdge} {edges : List GraphEdge}
      {queuedTo : List ThreadId} {groups : List String} {rest : List Frame} :
      s.stack t = .pushEdges id call (e :: edges) queuedTo groups :: rest →
      G.pushesDirectly t e = true →
      GraphStep G s (.run t)
        (G.sendPacketToNode s t id call.packet (.edge e)
          (.pushEdges id call edges queuedTo groups :: rest))
  | edgeKnown {t : ThreadId} {id : ℕ} {call : Call} {e : GraphEdge} {edges : List GraphEdge}
      {queuedTo : List ThreadId} {groups : List String} {rest : List Frame} {g : String} :
      s.stack t = .pushEdges id call (e :: edges) queuedTo groups :: rest →
      G.groupOf e.next = some g → G.pushesDirectly t e = false →
      G.mUvLoopThreadId g ∈ queuedTo →
      GraphStep G s (.run t) (s.setStack t (.pushEdges id call edges queuedTo groups :: rest))
  | edgeNew {t : ThreadId} {id : ℕ} {call : Call} {e : GraphEdge} {edges : List GraphEdge}
      {queuedTo : List ThreadId} {groups : List String} {rest : List Frame} {g : String} :
      s.stack t = .pushEdges id call (e :: edges) queuedTo groups :: rest →
      G.groupOf e.next = some g → G.pushesDirectly t e = false →
      G.mUvLoopThreadId g ∉ queuedTo →
      GraphStep G s (.run t)
        (s.setStack t
          (.pushEdges id call edges (G.mUvLoopThreadId g :: queuedTo) (groups ++ [g]) :: rest))
  | edgesDone {t : ThreadId} {id : ℕ} {call : Call} {queuedTo : List ThreadId}
      {groups : List String} {rest : List Frame} :
      s.stack t = .pushEdges id call [] queuedTo groups :: rest →
      GraphStep G s (.run t) (s.setStack t (.enqueue id call groups :: rest))
  | enqueue {t : ThreadId} {id : ℕ} {call : Call} {g : String} {groups : List String}
      {rest : List Frame} :
      s.stack t = .enqueue id call (g :: groups) :: rest →
      GraphStep G s (.run t)
        ((s.onGroup g fun group => group.enqueue (call.info id)).setStack t
          (.signal id call g groups :: rest))
  | enqueueDone {t : ThreadId} {id : ℕ} {call : Call} {rest : List Frame} :
      s.stack t = .enqueue id call [] :: rest →
      GraphStep G s (.run t) (s.setStack t rest)
  | signal {t : ThreadId} {id : ℕ} {call : Call} {g : String} {groups : List String}
      {rest : List Frame} :
      s.stack t = .signal id call g groups :: rest →
      GraphStep G s (.run t)
        ((s.onGroup g fun group => { group with asyncPending := true }).setStack t
          (.enqueue id call groups :: rest))
  | readyThrows {t : ThreadId} {g : String} {rest : List Frame} {r : Ready}
      {info : PushedPacketInfo} {x : String × Via}
      {sending : List (PushedPacketInfo × String × Via)} :
      s.stack t = .packetReady g :: rest → (s.groups g).ready = some r →
      r.sending = (info, x) :: sending → G.lookupThrows x.2 = true →
      GraphStep G s (.run t) (s.setStack t (.thrown :: .packetReady g :: rest))
  | readySends {t : ThreadId} {g : String} {rest : List Frame} {r : Ready}
      {info : PushedPacketInfo} {x : String × Via}
      {sending : List (PushedPacketInfo × String × Via)} :
      s.stack t = .packetReady g :: rest → (s.groups g).ready = some r →
      r.sending = (info, x) :: sending → G.selects t info x = true →
      GraphStep G s (.run t)
        (G.sendPacketToNode
          (s.onGroup g fun group => group.setReady (some { r with sending }))
          t info.callId info.packet x.2 (.packetReady g :: rest))
  | readySkips {t : ThreadId} {g : String} {rest : List Frame} {r : Ready}
      {info : PushedPacketInfo} {x : String × Via}
      {sending : List (PushedPacketInfo × String × Via)} :
      s.stack t = .packetReady g :: rest → (s.groups g).ready = some r →
      r.sending = (info, x) :: sending → G.selects t info x = false →
      GraphStep G s (.run t)
        (s.onGroup g fun group => group.setReady (some { r with sending }))
  | readyNext {t : ThreadId} {g : String} {rest : List Frame} {r : Ready}
      {info : PushedPacketInfo} {batch : List PushedPacketInfo} :
      s.stack t = .packetReady g :: rest → (s.groups g).ready = some r →
      r.sending = [] → r.batch = info :: batch →
      GraphStep G s (.run t)
        (s.onGroup g fun group =>
          { group with
            ready := some { r with sending := (G.candidates info).map fun x => (info, x), batch }
            processed := group.processed ++ [info] })
  | readyDone {t : ThreadId} {g : String} {rest : List Frame} {r : Ready} :
      s.stack t = .packetReady g :: rest → (s.groups g).ready = some r →
      r.sending = [] → r.batch = [] → r.finished = true →
      GraphStep G s (.run t)
        ((s.onGroup g fun group => group.setReady none).setStack t rest)
  | dequeueNone {t : ThreadId} {picks : List ℕ} {g : String} {rest : List Frame} :
      s.stack t = .packetReady g :: rest → (s.groups g).ready = some {} →
      (s.groups g).mPacketQueue = [] →
      GraphStep G s (.dequeue t picks)
        (s.onGroup g fun group => group.setReady (some { finished := true }))
  | dequeueSome {t : ThreadId} {picks : List ℕ} {g : String} {rest : List Frame}
      {infos queue : List PushedPacketInfo} :
      s.stack t = .packetReady g :: rest → (s.groups g).ready = some {} →
      Bag.takeMany (s.groups g).mPacketQueue picks = some (infos, queue) →
      picks.length ≤ kMaxDequeueAtOnce →
      GraphStep G s (.dequeue t picks)
        (s.onGroup g fun group =>
          { group with mPacketQueue := queue, ready := some { batch := infos } })
  | wake {g : String} :
      s.stack (G.mUvLoopThreadId g) = [] → (s.groups g).asyncPending = true →
      (s.groups g).ready = none → s.implAlive = true →
      GraphStep G s (.wake g)
        ((s.onGroup g fun group =>
          { group with asyncPending := false, ready := some {} }).setStack (G.mUvLoopThreadId g)
            [.packetReady g])
  | wakeDead {g : String} :
      s.implAlive = false →
      GraphStep G s (.wake g)
        (s.onGroup g fun group => { group with asyncPending := false })
  | ret {t : ThreadId} {delivery pushes : ℕ} {node : String} {rest : List Frame} :
      s.stack t = .handlePacket delivery node pushes :: rest →
      GraphStep G s (.ret t) (s.setStack t rest)
  | throw {t : ThreadId} {frames : List Frame} :
      s.stack t = frames →
      GraphStep G s (.throw t) (s.setStack t (.thrown :: frames))
  | unwind {t : ThreadId} {n : ℕ} {rest : List Frame} :
      s.stack t = .thrown :: rest →
      (∀ g, Frame.packetReady g ∉ rest.take n) →
      GraphStep G s (.unwind t n) (s.setStack t (rest.drop n))
  | destroy : GraphStep G s .destroy { s with implAlive := false }

variable {G : DataGraphImpl} {s s' : GraphState}

theorem pushPacket_cases {t : ThreadId} {node channel : String} {packet : Packet}
    (h : G.pushPacket s t node channel packet = some s') :
    GraphStep G s (.pushPacket t node channel packet) s' := by
  unfold DataGraphImpl.pushPacket at h
  split at h
  · rename_i hcan
    cases hacc : accumulate (s.lastReceivedParameters node) packet.parameters with
    | error fault => simp [hacc] at h
    | ok parameters =>
      cases hedges : G.channelEdges node channel with
      | none =>
        simp only [hacc, hedges, Option.some.injEq] at h
        exact h ▸ .drop hcan hacc hedges
      | some edges =>
        simp only [hacc, hedges, Option.some.injEq] at h
        exact h ▸ .push hcan hacc hedges
  · cases h

theorem sendPacket_cases {t : ThreadId} {packet : Packet} {toNode : String}
    (h : G.sendPacket s t packet toNode = some s') :
    GraphStep G s (.sendPacket t packet toNode) s' := by
  unfold DataGraphImpl.sendPacket at h
  split at h
  · rename_i hcan
    cases hg : G.groupOf toNode with
    | none => simp [hg] at h
    | some g =>
      simp only [hg, Option.some.injEq] at h
      exact h ▸ .send hcan hg
  · cases h

theorem pushEdge_cases {t : ThreadId} {id : ℕ} {call : Call} {e : GraphEdge}
    {edges : List GraphEdge} {queuedTo : List ThreadId} {groups : List String}
    {rest : List Frame} (hs : s.stack t = .pushEdges id call (e :: edges) queuedTo groups :: rest) :
    GraphStep G s (.run t) (G.pushEdge s t id call e edges queuedTo groups rest) := by
  unfold DataGraphImpl.pushEdge
  cases hg : G.groupOf e.next with
  | none => exact .edgeThrows hs hg
  | some g =>
    simp only
    split_ifs with hdirect hknown
    · exact .edgeDirect hs hdirect
    · exact .edgeKnown hs hg (by simpa using hdirect) hknown
    · exact .edgeNew hs hg (by simpa using hdirect) hknown

theorem runReady_cases {t : ThreadId} {g : String} {r : Ready} {rest : List Frame}
    (hs : s.stack t = .packetReady g :: rest) (hr : (s.groups g).ready = some r)
    (h : G.runReady s t g r rest = some s') : GraphStep G s (.run t) s' := by
  unfold DataGraphImpl.runReady at h
  split at h
  · rename_i info x sending _ hsending
    split_ifs at h with hthrows hselects
    · cases h
      exact .readyThrows hs hr hsending hthrows
    · cases h
      exact .readySends hs hr hsending hselects
    · cases h
      exact .readySkips hs hr hsending (by simpa using hselects)
  · rename_i hsending hbatch
    cases h
    exact .readyNext hs hr hsending hbatch
  · rename_i hsending hbatch
    split_ifs at h with hfinished
    cases h
    exact .readyDone hs hr hsending hbatch hfinished

theorem run_cases {t : ThreadId} (h : G.run s t = some s') : GraphStep G s (.run t) s' := by
  unfold DataGraphImpl.run at h
  split at h
  · rename_i hs
    cases h
    exact pushEdge_cases hs
  · rename_i hs
    cases h
    exact .edgesDone hs
  · rename_i hs
    cases h
    exact .enqueue hs
  · rename_i hs
    cases h
    exact .enqueueDone hs
  · rename_i hs
    cases h
    exact .signal hs
  · rename_i g rest hs
    cases hr : (s.groups g).ready with
    | none => simp [hr] at h
    | some r =>
      simp only [hr] at h
      exact runReady_cases hs hr h
  · cases h

theorem dequeue_cases {t : ThreadId} {picks : List ℕ} (h : s.dequeue t picks = some s') :
    GraphStep G s (.dequeue t picks) s' := by
  unfold GraphState.dequeue at h
  split at h
  · rename_i g rest hs
    split at h
    · rename_i hr
      split at h
      · rename_i htake
        cases h
        exact .dequeueNone hs hr (Bag.takeMany_nil htake).symm
      · rename_i info infos queue htake
        split_ifs at h with hmax
        cases h
        exact .dequeueSome hs hr htake hmax
      · cases h
    · cases h
  · cases h

theorem wake_cases {g : String} (h : G.wake s g = some s') : GraphStep G s (.wake g) s' := by
  unfold DataGraphImpl.wake at h
  simp only [Bool.and_eq_true, List.isEmpty_iff, Option.isNone_iff_eq_none] at h
  split_ifs at h with hidle halive
  · cases h
    exact .wake hidle.1.1 hidle.1.2 hidle.2 halive
  · cases h
    exact .wakeDead (by simpa using halive)

theorem unwind_cases {t : ThreadId} {n : ℕ} (h : s.unwind t n = some s') :
    GraphStep G s (.unwind t n) s' := by
  unfold GraphState.unwind at h
  split at h
  · rename_i rest hs
    split_ifs at h with hcaught
    cases h
    refine .unwind hs fun g hg => ?_
    rw [Bool.and_eq_true, List.all_eq_true] at hcaught
    have := hcaught.2 _ hg
    simp at this
  · cases h

/-- **Every step is one of the listed ones.** -/
theorem step_cases {a : Act} (h : G.machine.step s a = some s') : GraphStep G s a s' := by
  cases a with
  | pushPacket t node channel packet => exact pushPacket_cases h
  | sendPacket t packet toNode => exact sendPacket_cases h
  | run t => exact run_cases h
  | dequeue t picks => exact dequeue_cases h
  | wake g => exact wake_cases h
  | unwind t n => exact unwind_cases h
  | ret t =>
    simp only [DataGraphImpl.machine] at h
    split at h
    · rename_i hs
      cases h
      exact .ret hs
    · cases h
  | throw t =>
    simp only [DataGraphImpl.machine] at h
    split at h
    · rename_i hs
      cases h
      exact .throw hs
    · cases h
  | destroy =>
    cases h
    exact .destroy

theorem calls_isPrefix {a : Act} (h : GraphStep G s a s') : s.calls <+: s'.calls := by
  cases h <;> simp

theorem log_isPrefix {a : Act} (h : GraphStep G s a s') : s.log <+: s'.log := by
  cases h <;> simp

/-- What has been called and delivered is not forgotten. -/
theorem prefix_of_reachable {ok : GraphState → Act → Prop} (h : G.machine.Reachable ok s s') :
    s.calls <+: s'.calls ∧ s.log <+: s'.log := by
  refine h.invariant (I := fun u => s.calls <+: u.calls ∧ s.log <+: u.log)
    ⟨List.prefix_rfl, List.prefix_rfl⟩ fun u a u' hu _ hs => ?_
  have hstep := step_cases hs
  exact ⟨hu.1.trans (calls_isPrefix hstep), hu.2.trans (log_isPrefix hstep)⟩

/-! ### What a step does to one group -/

/-- What a step can make of the group `g`. -/
inductive GroupStep (s : GraphState) (g : String) : Act → ThreadGroup → Prop
  | same {a : Act} : GroupStep s g a (s.groups g)
  | enqueue {t : ThreadId} {id : ℕ} {call : Call} {groups : List String} {rest : List Frame} :
      s.stack t = .enqueue id call (g :: groups) :: rest →
      GroupStep s g (.run t) ((s.groups g).enqueue (call.info id))
  | signal {t : ThreadId} : GroupStep s g (.run t) { s.groups g with asyncPending := true }
  | sends {t : ThreadId} {rest : List Frame} {r : Ready} {x : PushedPacketInfo × String × Via}
      {sending : List (PushedPacketInfo × String × Via)} :
      s.stack t = .packetReady g :: rest → (s.groups g).ready = some r →
      r.sending = x :: sending →
      GroupStep s g (.run t) ((s.groups g).setReady (some { r with sending }))
  | next {t : ThreadId} {rest : List Frame} {r : Ready} {info : PushedPacketInfo}
      {batch : List PushedPacketInfo} {sending : List (PushedPacketInfo × String × Via)} :
      s.stack t = .packetReady g :: rest → (s.groups g).ready = some r → r.sending = [] →
      r.batch = info :: batch → (∀ x ∈ sending, x.1 = info) →
      GroupStep s g (.run t)
        { s.groups g with
          ready := some { r with sending, batch }
          processed := (s.groups g).processed ++ [info] }
  | done {t : ThreadId} {rest : List Frame} {r : Ready} :
      s.stack t = .packetReady g :: rest → (s.groups g).ready = some r → r.sending = [] →
      r.batch = [] → r.finished = true →
      GroupStep s g (.run t) ((s.groups g).setReady none)
  | dequeueNone {t : ThreadId} {picks : List ℕ} {rest : List Frame} :
      s.stack t = .packetReady g :: rest → (s.groups g).ready = some {} →
      (s.groups g).mPacketQueue = [] →
      GroupStep s g (.dequeue t picks) ((s.groups g).setReady (some { finished := true }))
  | dequeueSome {t : ThreadId} {picks : List ℕ} {rest : List Frame}
      {infos queue : List PushedPacketInfo} :
      s.stack t = .packetReady g :: rest → (s.groups g).ready = some {} →
      Bag.takeMany (s.groups g).mPacketQueue picks = some (infos, queue) →
      picks.length ≤ kMaxDequeueAtOnce →
      GroupStep s g (.dequeue t picks)
        { s.groups g with mPacketQueue := queue, ready := some { batch := infos } }
  | wake : (s.groups g).ready = none →
      GroupStep s g (.wake g) { s.groups g with asyncPending := false, ready := some {} }
  | wakeDead : s.implAlive = false →
      GroupStep s g (.wake g) { s.groups g with asyncPending := false }

theorem groupStep_update {a : Act} {g : String} {group : ThreadGroup}
    (h : GroupStep s g a group) (g' : String) :
    GroupStep s g' a (Function.update s.groups g group g') := by
  by_cases hg : g' = g
  · subst hg
    rwa [Function.update_self]
  · rw [Function.update_of_ne hg]
    exact .same

/-- **What a step does to a group is one of the listed changes.** -/
theorem group_step {a : Act} (h : GraphStep G s a s') (g : String) :
    GroupStep s g a (s'.groups g) := by
  cases h with
  | enqueue hs => exact groupStep_update (.enqueue hs) g
  | signal => exact groupStep_update .signal g
  | readySends hs hr hsending => exact groupStep_update (.sends hs hr hsending) g
  | readySkips hs hr hsending => exact groupStep_update (.sends hs hr hsending) g
  | readyNext hs hr hsending hbatch =>
    refine groupStep_update (.next hs hr hsending hbatch fun x hx => ?_) g
    obtain ⟨_, -, rfl⟩ := List.mem_map.1 hx
    rfl
  | readyDone hs hr hsending hbatch hfinished =>
    exact groupStep_update (.done hs hr hsending hbatch hfinished) g
  | dequeueNone hs hr hqueue => exact groupStep_update (.dequeueNone hs hr hqueue) g
  | dequeueSome hs hr htake hmax => exact groupStep_update (.dequeueSome hs hr htake hmax) g
  | wake hidle hpending hr halive => exact groupStep_update (.wake hr) g
  | wakeDead halive => exact groupStep_update (.wakeDead halive) g
  | _ => exact .same

end Maplang
