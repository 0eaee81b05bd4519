import Maplang.Graph.Traced

/-!
# Thread confinement

A handler only ever runs on the loop thread of the thread group of its instance, whichever of the
three places it is called from, so no instance is executed by two threads.

* `DataGraphImpl.instanceNameOf` : the instance behind a node.  Several nodes may share one.
* `thread_confinement` : the result, for every run.
-/

namespace Maplang

namespace DataGraphImpl

variable (G : DataGraphImpl)

/-- The name of the instance of a node. -/
def instanceNameOf (node : String) : Option String :=
  (G.mGraph.lookup node).map GraphNode.instanceName

variable {G}

/-- The instance of a node depends on the node through its instance name only. -/
theorem instanceOf_eq (node : String) : G.instanceOf node =
    (G.instanceNameOf node).bind fun name =>
      if name = "" then none else G.mInstances.lookup name := by
  unfold instanceOf instanceNameOf
  cases G.mGraph.lookup node with
  | none => rfl
  | some n =>
    simp only [Option.bind_some, Option.map_some]
    unfold getInstanceForGraphNode
    split_ifs with hempty
    · rfl
    · cases G.mInstances.lookup n.instanceName <;> rfl

theorem threadOf_eq_some {node : String} {t : ThreadId} (h : G.threadOf node = some t) :
    ∃ inst, G.instanceOf node = some inst ∧ t = G.mUvLoopThreadId inst.mThreadGroupName := by
  simp only [threadOf, groupOf, Option.map_eq_some_iff] at h
  obtain ⟨_, ⟨inst, hinst, rfl⟩, rfl⟩ := h
  exact ⟨inst, hinst, rfl⟩

theorem threadOf_eq_of_instanceNameOf {node node' : String}
    (h : G.instanceNameOf node = G.instanceNameOf node') : G.threadOf node = G.threadOf node' := by
  simp only [threadOf, groupOf, instanceOf_eq, h]

/-- A delivery is made on the thread of its target. -/
theorem Traced.threadOf_delivery {s : GraphState} (h : G.Traced s) {d : Delivery} (hd : d ∈ s.log) :
    G.threadOf d.via.node = some d.thread := by
  obtain ⟨_, -, -, -, hthread⟩ := h.log d hd
  exact hthread

/-- A running handler is on the thread of its node. -/
theorem Traced.threadOf_handler {s : GraphState} (h : G.Traced s)
    {t : ThreadId} {delivery calls : ℕ}
    {node : String} (hf : .handlePacket delivery node calls ∈ s.stack t) :
    G.threadOf node = some t := by
  obtain ⟨d, hd, rfl, rfl⟩ := h.frames t _ hf
  exact h.threadOf_delivery (List.mem_of_getElem? hd)

end DataGraphImpl

open DataGraphImpl

variable {G : DataGraphImpl} {s₀ s : GraphState}

/-- **Thread confinement.**  In every run, whatever throws, every `handlePacket` call is made on the
loop thread of the thread group of the instance it is made on, every handler that is still running
runs there, and no two calls on one instance are made on different threads. -/
theorem thread_confinement (h₀ : s₀.Idle) (h : G.machine.Reachable Machine.free s₀ s) :
    (∀ d ∈ s.log, ∃ inst, G.instanceOf d.via.node = some inst ∧
      d.thread = G.mUvLoopThreadId inst.mThreadGroupName) ∧
    (∀ t delivery node calls, .handlePacket delivery node calls ∈ s.stack t →
      ∃ inst, G.instanceOf node = some inst ∧ t = G.mUvLoopThreadId inst.mThreadGroupName) ∧
    ∀ d ∈ s.log, ∀ d' ∈ s.log, G.instanceNameOf d.via.node = G.instanceNameOf d'.via.node →
      d.thread = d'.thread := by
  have htraced : G.Traced s := traced_of_reachable h₀ h
  refine ⟨?_, ?_, ?_⟩
  · intro d hd
    exact threadOf_eq_some (htraced.threadOf_delivery hd)
  · intro t delivery node calls hf
    exact threadOf_eq_some (htraced.threadOf_handler hf)
  · intro d hd d' hd' hname
    have hthread := threadOf_eq_of_instanceNameOf hname
    rw [htraced.threadOf_delivery hd, htraced.threadOf_delivery hd'] at hthread
    exact Option.some.inj hthread

/-- The relay, in the middle of its run on both threads. -/
theorem thread_confinement_relay :
    relayState.log.length = 3 ∧
    ∀ d ∈ relayState.log, ∃ inst, relayGraph.instanceOf d.via.node = some inst ∧
      d.thread = relayGraph.mUvLoopThreadId inst.mThreadGroupName :=
  ⟨by decide, (thread_confinement startState_idle
    (relayState_reachable.mono fun _ _ _ => trivial)).1⟩

end Maplang
