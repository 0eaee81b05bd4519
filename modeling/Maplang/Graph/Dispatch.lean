import Maplang.Graph.Basic
import Maplang.Machine.Basic
import Maplang.Machine.Bag

/-!
# Packets in flight

How a data graph moves packets: `GraphPacketPusher::pushPacket`, `DataGraph::sendPacket` and
`ThreadGroup::packetReady`, run by any number of threads in any interleaving.

## The model

Every thread has a stack of *frames*, one for each call of the graph's code or of a handler that
is running on it.  A step executes the next piece of the topmost frame of one thread: one edge of
the first loop of `pushPacket`, one `enqueue`, one `uv_async_send`, one edge of `packetReady`, one
`try_dequeue_bulk`.  The code of a handler is not known: whenever a handler is on top of a stack
it may push a packet through the pusher of any node, send one with `DataGraph::sendPacket`, return
or throw.  A thread with an empty stack may push and send too: it is a thread outside the graph,
or a loop thread that runs a callback of a source.

The queue of a thread group may hand out its packets in any order (`Bag.takeMany`), and several
signals may be merged into one (`asyncPending` is a flag).

It is an assumption that `lastReceivedParameters` is read and written atomically: a thread that
pushes through the pusher of a node copies it without a lock, while the loop thread of the node may
assign it.

## Ghost state

`calls` lists the `pushPacket` and `sendPacket` calls made so far, and a call is known by its
position in it; `log` lists the `sendPacketToNode` calls.  Each packet in a queue carries the
number of its call, each handler frame the number of its delivery.  `enqueued` and `processed`
record what went into a queue, and what `packetReady` has started to process.  No step looks at
any of these.
-/

namespace Maplang

/-- What a packet is sent to: an edge, or a node named in `DataGraph::sendPacket`. -/
inductive Via where
  | edge (e : GraphEdge)
  | manual (node : String)
  deriving DecidableEq, Repr

/-- The node that receives the packet. -/
def Via.node : Via → String
  | edge e => e.next
  | manual node => node

/-- Which function was called, with its arguments other than the packet. -/
inductive CallKind where
  | pushPacket (fromNode fromChannel : String)
  | sendPacket (toNode : String)
  deriving DecidableEq, Repr

/-- A call of `GraphPacketPusher::pushPacket` or `DataGraph::sendPacket`. -/
structure Call where
  /-- `this_thread::get_id()`. -/
  thread : ThreadId
  kind : CallKind
  /-- The packet that is sent: `packetWithAccumulatedParameters` in `pushPacket`. -/
  packet : Packet
  /-- The packet the caller passed. -/
  pushed : Packet
  /-- The last received parameters of the pushing node, `none` before it received a packet. -/
  received : Option Json
  /-- The delivery whose handler made the call, and how many packets it had pushed before. -/
  cause : Option (ℕ × ℕ)

/-- `struct PushedPacketInfo`, with the number of the call it comes from. -/
structure PushedPacketInfo where
  packet : Packet
  fromNode : Option String := none
  queuedFromThreadId : ThreadId
  channel : String := ""
  manualSendToNode : Option String := none
  callId : ℕ

/-- What a call puts into a queue. -/
def Call.info (c : Call) (callId : ℕ) : PushedPacketInfo :=
  match c.kind with
  | .pushPacket fromNode fromChannel =>
    { packet := c.packet, fromNode := some fromNode, queuedFromThreadId := c.thread,
      channel := fromChannel, callId }
  | .sendPacket toNode =>
    { packet := c.packet, queuedFromThreadId := c.thread, manualSendToNode := some toNode, callId }

/-- One `sendPacketToNode` call. -/
structure Delivery where
  callId : ℕ
  via : Via
  packet : Packet
  /-- The thread that runs the handler. -/
  thread : ThreadId

/-- The locals of a running `packetReady`. -/
structure Ready where
  /-- The edges of the current packet's node that are still to be looked at, with the packet. -/
  sending : List (PushedPacketInfo × String × Via) := []
  /-- The dequeued packets whose turn has not come. -/
  batch : List PushedPacketInfo := []
  /-- `try_dequeue_bulk` returned 0. -/
  finished : Bool := false

/-- The part of `struct ThreadGroup` that changes. -/
structure ThreadGroup where
  mPacketQueue : List PushedPacketInfo := []
  /-- `mPacketReadyAsync` has been signalled and its callback has not started since. -/
  asyncPending : Bool := false
  ready : Option Ready := none
  enqueued : List PushedPacketInfo := []
  processed : List PushedPacketInfo := []

/-- The packets a running `packetReady` holds and has not started to process. -/
def ThreadGroup.batch (group : ThreadGroup) : List PushedPacketInfo :=
  match group.ready with
  | none => []
  | some r => r.batch

/-- The edges a running `packetReady` still has to look at. -/
def ThreadGroup.sending (group : ThreadGroup) : List (PushedPacketInfo × String × Via) :=
  match group.ready with
  | none => []
  | some r => r.sending

/-- `mPacketQueue.enqueue(info)`. -/
def ThreadGroup.enqueue (group : ThreadGroup) (info : PushedPacketInfo) : ThreadGroup :=
  { group with
    mPacketQueue := group.mPacketQueue ++ [info]
    enqueued := group.enqueued ++ [info] }

/-- Change the locals of `packetReady`. -/
def ThreadGroup.setReady (group : ThreadGroup) (ready : Option Ready) : ThreadGroup :=
  { group with ready }

@[simp, grind =] theorem ThreadGroup.enqueue_mPacketQueue (group : ThreadGroup)
    (info : PushedPacketInfo) :
    (group.enqueue info).mPacketQueue = group.mPacketQueue ++ [info] := rfl

@[simp, grind =] theorem ThreadGroup.setReady_mPacketQueue (group : ThreadGroup)
    (ready : Option Ready) : (group.setReady ready).mPacketQueue = group.mPacketQueue := rfl

/-- A call running on a thread. -/
inductive Frame where
  /-- A handler, called for a delivery to a node; it has pushed `pushes` packets so far. -/
  | handlePacket (delivery : ℕ) (node : String) (pushes : ℕ)
  /-- The first loop of `pushPacket`: the edges to go, `queuedToThreadGroupIds`, and the groups in
  `asyncThreadGroupPacketPairs`. -/
  | pushEdges (callId : ℕ) (call : Call) (edges : List GraphEdge) (queuedTo : List ThreadId)
      (groups : List String)
  /-- The second loop of `pushPacket` (and the end of `sendPacket`), before an `enqueue`. -/
  | enqueue (callId : ℕ) (call : Call) (groups : List String)
  /-- The second loop, between an `enqueue` and its `uv_async_send`. -/
  | signal (callId : ℕ) (call : Call) (group : String) (groups : List String)
  /-- `packetReady` of a thread group; its locals are in the group. -/
  | packetReady (group : String)
  /-- An exception is on its way through the frames below. -/
  | thrown
  /-- A null pointer was called. -/
  | crashed

/-- The state of a data graph and the threads that use it. -/
structure GraphState where
  /-- `GraphNode::lastReceivedParameters`. -/
  lastReceivedParameters : String → Option Json
  groups : String → ThreadGroup
  stack : ThreadId → List Frame
  /-- The `DataGraphImpl` has not been destroyed. -/
  implAlive : Bool
  calls : List Call
  log : List Delivery

namespace GraphState

variable (s : GraphState)

/-- Replace the stack of a thread. -/
def setStack (t : ThreadId) (frames : List Frame) : GraphState :=
  { s with stack := Function.update s.stack t frames }

/-- Change a thread group. -/
def onGroup (g : String) (f : ThreadGroup → ThreadGroup) : GraphState :=
  { s with groups := Function.update s.groups g (f (s.groups g)) }

section

variable (t : ThreadId) (frames : List Frame) (g : String) (f : ThreadGroup → ThreadGroup)

@[simp] theorem setStack_groups : (s.setStack t frames).groups = s.groups := rfl
@[simp] theorem setStack_stack :
    (s.setStack t frames).stack = Function.update s.stack t frames := rfl
@[simp] theorem setStack_calls : (s.setStack t frames).calls = s.calls := rfl
@[simp] theorem setStack_log : (s.setStack t frames).log = s.log := rfl
@[simp] theorem setStack_implAlive : (s.setStack t frames).implAlive = s.implAlive := rfl
@[simp] theorem setStack_lastReceivedParameters :
    (s.setStack t frames).lastReceivedParameters = s.lastReceivedParameters := rfl
@[simp] theorem onGroup_groups :
    (s.onGroup g f).groups = Function.update s.groups g (f (s.groups g)) := rfl
@[simp] theorem onGroup_stack : (s.onGroup g f).stack = s.stack := rfl
@[simp] theorem onGroup_calls : (s.onGroup g f).calls = s.calls := rfl
@[simp] theorem onGroup_log : (s.onGroup g f).log = s.log := rfl
@[simp] theorem onGroup_implAlive : (s.onGroup g f).implAlive = s.implAlive := rfl
@[simp] theorem onGroup_lastReceivedParameters :
    (s.onGroup g f).lastReceivedParameters = s.lastReceivedParameters := rfl

end

/-- Nothing is in flight: no call has been made, no thread runs code of the graph.  Nodes may have
received packets before. -/
structure Idle : Prop where
  groups : ∀ g, s.groups g = {}
  stack : ∀ t, s.stack t = []
  implAlive : s.implAlive = true
  calls : s.calls = []
  log : s.log = []

end GraphState

/-- What the caller of `pushPacket` and `sendPacket` is: a handler, or code outside the graph. -/
def canCall : List Frame → Bool
  | [] => true
  | .handlePacket .. :: _ => true
  | _ => false

/-- The delivery on top of the stack, with the number of packets its handler has pushed. -/
def causeOf : List Frame → Option (ℕ × ℕ)
  | .handlePacket delivery _ pushes :: _ => some (delivery, pushes)
  | _ => none

/-- Count a push of the handler on top of the stack. -/
def notePush : CallKind → List Frame → List Frame
  | .pushPacket _ _, .handlePacket delivery node pushes :: rest =>
    .handlePacket delivery node (pushes + 1) :: rest
  | _, frames => frames

namespace GraphState

variable (s : GraphState)

/-- The call that pushes `packet`, once its parameters have been merged. -/
def pushCall (t : ThreadId) (node channel : String) (packet : Packet) (parameters : Json) :
    Call where
  thread := t
  kind := .pushPacket node channel
  packet := { packet with parameters }
  pushed := packet
  received := s.lastReceivedParameters node
  cause := causeOf (s.stack t)

/-- The call that sends `packet` to a node. -/
def sendCall (t : ThreadId) (packet : Packet) (toNode : String) : Call where
  thread := t
  kind := .sendPacket toNode
  packet := packet
  pushed := packet
  received := none
  cause := causeOf (s.stack t)

theorem pushCall_thread (t : ThreadId) (node channel : String) (packet : Packet)
    (parameters : Json) : (s.pushCall t node channel packet parameters).thread = t := rfl

theorem sendCall_thread (t : ThreadId) (packet : Packet) (toNode : String) :
    (s.sendCall t packet toNode).thread = t := rfl

/-- Thread `t` makes a call; `frames` is what it leaves to do. -/
def beginCall (t : ThreadId) (call : Call) (frames : List Frame) : GraphState :=
  { s with
    calls := s.calls ++ [call]
    stack := Function.update s.stack t (frames ++ notePush call.kind (s.stack t)) }

section

variable (t : ThreadId) (call : Call) (frames : List Frame)

@[simp] theorem beginCall_groups : (s.beginCall t call frames).groups = s.groups := rfl
@[simp] theorem beginCall_stack : (s.beginCall t call frames).stack =
    Function.update s.stack t (frames ++ notePush call.kind (s.stack t)) := rfl
@[simp] theorem beginCall_calls : (s.beginCall t call frames).calls = s.calls ++ [call] := rfl
@[simp] theorem beginCall_log : (s.beginCall t call frames).log = s.log := rfl
@[simp] theorem beginCall_implAlive : (s.beginCall t call frames).implAlive = s.implAlive := rfl
@[simp] theorem beginCall_lastReceivedParameters :
    (s.beginCall t call frames).lastReceivedParameters = s.lastReceivedParameters := rfl

end

end GraphState

/-- The parameters `pushPacket` sends on: parameters the caller left out are taken from the last
packet the node received. -/
def accumulate (lastReceivedParameters : Option Json) (parameters : Json) : Code Json :=
  match lastReceivedParameters with
  | none => .ok parameters
  | some received => if parameters.isNull then .ok received else parameters.insert received

/-- The largest number of packets one `try_dequeue_bulk` takes. -/
def kMaxDequeueAtOnce : ℕ := 100

namespace DataGraphImpl

variable (G : DataGraphImpl)

/-- The frame of the call `pathable->handlePacket(...)` at the end of `sendPacketToNode`. -/
def receive (delivery : ℕ) (node : String) : Frame :=
  match (G.instanceOf node).bind Instance.mImplementation with
  | none => .thrown
  | some implementation => if implementation.isPathable then .handlePacket delivery node 0
    else .crashed

/-- `ThreadGroup::sendPacketToNode`, called on thread `t` from the topmost frame of `frames`.  The
weak pointer to the graph is alive, since both callers hold a strong one. -/
def sendPacketToNode (s : GraphState) (t : ThreadId) (callId : ℕ) (packet : Packet) (via : Via)
    (frames : List Frame) : GraphState :=
  { s with
    lastReceivedParameters :=
      Function.update s.lastReceivedParameters via.node (some packet.parameters)
    log := s.log ++ [{ callId, via, packet, thread := t }]
    stack := Function.update s.stack t (G.receive s.log.length via.node :: frames) }

section

variable (s : GraphState) (t : ThreadId) (callId : ℕ) (packet : Packet) (via : Via)
  (frames : List Frame)

@[simp] theorem sendPacketToNode_groups :
    (G.sendPacketToNode s t callId packet via frames).groups = s.groups := rfl
@[simp] theorem sendPacketToNode_stack : (G.sendPacketToNode s t callId packet via frames).stack =
    Function.update s.stack t (G.receive s.log.length via.node :: frames) := rfl
@[simp] theorem sendPacketToNode_calls :
    (G.sendPacketToNode s t callId packet via frames).calls = s.calls := rfl
@[simp] theorem sendPacketToNode_log : (G.sendPacketToNode s t callId packet via frames).log =
    s.log ++ [{ callId, via, packet, thread := t }] := rfl
@[simp] theorem sendPacketToNode_implAlive :
    (G.sendPacketToNode s t callId packet via frames).implAlive = s.implAlive := rfl
@[simp] theorem sendPacketToNode_lastReceivedParameters :
    (G.sendPacketToNode s t callId packet via frames).lastReceivedParameters =
      Function.update s.lastReceivedParameters via.node (some packet.parameters) := rfl

end

/-- `GraphPacketPusher::pushPacket` up to its first loop.  A merge that throws changes nothing. -/
def pushPacket (s : GraphState) (t : ThreadId) (node channel : String) (packet : Packet) :
    Option GraphState :=
  if canCall (s.stack t) then
    match accumulate (s.lastReceivedParameters node) packet.parameters with
    | .error _ => none
    | .ok parameters =>
      let call := s.pushCall t node channel packet parameters
      match G.channelEdges node channel with
      | none => some (s.beginCall t call [])
      | some edges => some (s.beginCall t call [.pushEdges s.calls.length call edges [] []])
  else none

/-- `DataGraph::sendPacket` up to its `enqueue`.  Without an instance it throws. -/
def sendPacket (s : GraphState) (t : ThreadId) (packet : Packet) (toNode : String) :
    Option GraphState :=
  if canCall (s.stack t) then
    match G.groupOf toNode with
    | none => none
    | some g =>
      let call := s.sendCall t packet toNode
      some (s.beginCall t call [.enqueue s.calls.length call [g]])
  else none

/-- The edge is on thread `t` and takes packets directly. -/
def pushesDirectly (t : ThreadId) (e : GraphEdge) : Bool :=
  G.threadOf e.next == some t && e.sameThreadQueueToTargetType == .pushDirectlyToTarget

/-- One round of the first loop of `pushPacket`. -/
def pushEdge (s : GraphState) (t : ThreadId) (callId : ℕ) (call : Call) (e : GraphEdge)
    (edges : List GraphEdge) (queuedTo : List ThreadId) (groups : List String)
    (rest : List Frame) : GraphState :=
  match G.groupOf e.next with
  | none => s.setStack t (.thrown :: .pushEdges callId call (e :: edges) queuedTo groups :: rest)
  | some g =>
    if G.pushesDirectly t e then
      G.sendPacketToNode s t callId call.packet (.edge e)
        (.pushEdges callId call edges queuedTo groups :: rest)
    -- the set of the code holds threads, not groups
    else if G.mUvLoopThreadId g ∈ queuedTo then
      s.setStack t (.pushEdges callId call edges queuedTo groups :: rest)
    else
      s.setStack t (.pushEdges callId call edges (G.mUvLoopThreadId g :: queuedTo)
        (groups ++ [g]) :: rest)

/-- What `packetReady` looks at for a packet: all edges of its node with their channels, or the
node it was sent to. -/
def candidates (info : PushedPacketInfo) : List (String × Via) :=
  match info.fromNode with
  | some node => (G.allEdges node).map fun x => (x.1, .edge x.2)
  | none => (info.manualSendToNode.map fun node => ("", Via.manual node)).toList

/-- The tests of `packetReady` on thread `t` for one candidate. -/
def selects (t : ThreadId) (info : PushedPacketInfo) : String × Via → Bool
  | (channel, .edge e) =>
    G.threadOf e.next == some t &&
      (t != info.queuedFromThreadId || e.sameThreadQueueToTargetType == .alwaysQueue) &&
        channel == info.channel
  | (_, .manual _) => true

/-- Looking up the instance of an edge's target throws. -/
def lookupThrows : Via → Bool
  | .edge e => (G.groupOf e.next).isNone
  | .manual _ => false

/-- The next step of `packetReady` of group `g` other than `try_dequeue_bulk`. -/
def runReady (s : GraphState) (t : ThreadId) (g : String) (r : Ready) (rest : List Frame) :
    Option GraphState :=
  match r.sending, r.batch with
  | (info, x) :: sending, _ =>
    let s' := s.onGroup g fun group => group.setReady (some { r with sending })
    -- the target is looked up before the edge is tested
    if G.lookupThrows x.2 then some (s.setStack t (.thrown :: .packetReady g :: rest))
    else if G.selects t info x then
      some (G.sendPacketToNode s' t info.callId info.packet x.2 (.packetReady g :: rest))
    else some s'
  | [], info :: batch =>
    some (s.onGroup g fun group =>
      { group with
        ready := some { r with sending := (G.candidates info).map fun x => (info, x), batch }
        processed := group.processed ++ [info] })
  | [], [] =>
    if r.finished then
      some ((s.onGroup g fun group => group.setReady none).setStack t rest)
    else none

/-- The next step of the graph's code on top of the stack of `t`. -/
def run (s : GraphState) (t : ThreadId) : Option GraphState :=
  match s.stack t with
  | .pushEdges callId call (e :: edges) queuedTo groups :: rest =>
    some (G.pushEdge s t callId call e edges queuedTo groups rest)
  | .pushEdges callId call [] _ groups :: rest =>
    some (s.setStack t (.enqueue callId call groups :: rest))
  | .enqueue callId call (g :: groups) :: rest =>
    some ((s.onGroup g fun group => group.enqueue (call.info callId)).setStack t
      (.signal callId call g groups :: rest))
  | .enqueue _ _ [] :: rest => some (s.setStack t rest)
  | .signal callId call g groups :: rest =>
    some ((s.onGroup g fun group => { group with asyncPending := true }).setStack t
      (.enqueue callId call groups :: rest))
  | .packetReady g :: rest =>
    match (s.groups g).ready with
    | none => none
    | some r => G.runReady s t g r rest
  | _ => none

/-- The loop of a thread group finds the signal and calls `packetReadyWrapper`, which does nothing
when the graph is gone.  A loop runs no callback inside another one. -/
def wake (s : GraphState) (g : String) : Option GraphState :=
  let t := G.mUvLoopThreadId g
  if (s.stack t).isEmpty && (s.groups g).asyncPending && (s.groups g).ready.isNone then
    -- the weak pointer of the wrapper
    if s.implAlive then
      some ((s.onGroup g fun group =>
        { group with asyncPending := false, ready := some {} }).setStack t [.packetReady g])
    else some (s.onGroup g fun group => { group with asyncPending := false })
  else none

end DataGraphImpl

namespace GraphState

variable (s : GraphState)

/-- `try_dequeue_bulk` in the `packetReady` on top of the stack of `t`: it takes up to
`kMaxDequeueAtOnce` packets, and none only from an empty queue. -/
def dequeue (t : ThreadId) (picks : List ℕ) : Option GraphState :=
  match s.stack t with
  | .packetReady g :: _ =>
    match (s.groups g).ready with
    | some ⟨[], [], false⟩ =>
      match Bag.takeMany (s.groups g).mPacketQueue picks with
      | some ([], []) =>
        some (s.onGroup g fun group => group.setReady (some { finished := true }))
      | some (info :: infos, queue) =>
        if picks.length ≤ kMaxDequeueAtOnce then
          some (s.onGroup g fun group =>
            { group with mPacketQueue := queue, ready := some { batch := info :: infos } })
        else none
      | _ => none
    | _ => none
  | _ => none

/-- An exception unwinds the top `n` frames of the stack below it and is caught by the caller they
return to.  One that leaves `packetReady` ends the process. -/
def unwind (t : ThreadId) (n : ℕ) : Option GraphState :=
  match s.stack t with
  | .thrown :: rest =>
    if canCall (rest.drop n) && (rest.take n).all (fun f => !f matches .packetReady _) then
      some (s.setStack t (rest.drop n))
    else none
  | _ => none

end GraphState

/-- What can happen next: the label of a step. -/
inductive Act where
  /-- Thread `t` calls `pushPacket` of the pusher of `node`. -/
  | pushPacket (t : ThreadId) (node channel : String) (packet : Packet)
  /-- Thread `t` calls `DataGraph::sendPacket`. -/
  | sendPacket (t : ThreadId) (packet : Packet) (toNode : String)
  /-- The graph's code on top of the stack of `t` makes its next step. -/
  | run (t : ThreadId)
  /-- `packetReady` on thread `t` calls `try_dequeue_bulk`, which takes these positions. -/
  | dequeue (t : ThreadId) (picks : List ℕ)
  /-- The loop of a group handles the signal. -/
  | wake (group : String)
  /-- The handler on top of the stack of `t` returns. -/
  | ret (t : ThreadId)
  /-- The handler on top of the stack of `t` throws. -/
  | throw (t : ThreadId)
  /-- The exception on thread `t` is caught below `n` frames. -/
  | unwind (t : ThreadId) (n : ℕ)
  /-- The last owner of the `DataGraphImpl` lets go of it.  Running code of the graph is an owner
  too, but no theorem needs this: the step is always possible. -/
  | destroy

/-- No exception is thrown or caught. -/
def Act.quiet : Act → Bool
  | .throw _ => false
  | .unwind _ _ => false
  | _ => true

/-- A data graph and the threads that use it as a machine. -/
def DataGraphImpl.machine (G : DataGraphImpl) : Machine GraphState Act where
  step s
    | .pushPacket t node channel packet => G.pushPacket s t node channel packet
    | .sendPacket t packet toNode => G.sendPacket s t packet toNode
    | .run t => G.run s t
    | .dequeue t picks => s.dequeue t picks
    | .wake g => G.wake s g
    | .ret t => match s.stack t with
      | .handlePacket .. :: rest => some (s.setStack t rest)
      | _ => none
    | .throw t => match s.stack t with
      | .handlePacket delivery node pushes :: rest =>
        some (s.setStack t (.thrown :: .handlePacket delivery node pushes :: rest))
      | _ => none
    | .unwind t n => s.unwind t n
    | .destroy => some { s with implAlive := false }

/-- The step condition of runs in which no handler throws. -/
def quietRuns : GraphState → Act → Prop := fun _ a => a.quiet = true

/-! ### An example -/

/-- Nothing has happened yet. -/
def startState : GraphState := ⟨fun _ => none, fun _ => {}, fun _ => [], true, [], []⟩

theorem startState_idle : startState.Idle := ⟨fun _ => rfl, fun _ => rfl, rfl, rfl, rfl⟩

/-- One edge to `next`, on channel `out`. -/
def edgeTo (next : String) : UnorderedMap String (List GraphEdge) :=
  .singleton "out" [{ channel := "out", next }]

/-- `source` pushes on to `middle` on its own thread 0, and `middle` to `sink` on thread 1. -/
def relayGraph : DataGraphImpl where
  mGraph := (∅ : UnorderedMap String GraphNode)
    |>.insert "source" ⟨"source", "source", edgeTo "middle"⟩
    |>.insert "middle" ⟨"middle", "middle", edgeTo "sink"⟩
    |>.insert "sink" ⟨"sink", "sink", ∅⟩
  mInstances := (∅ : UnorderedMap String Instance)
    |>.insert "source" ⟨some ⟨true⟩, ""⟩
    |>.insert "middle" ⟨some ⟨true⟩, ""⟩
    |>.insert "sink" ⟨some ⟨true⟩, "worker"⟩
  mUvLoopThreadId g := if g = "worker" then 1 else 0

/-- A packet sent from outside the graph is relayed from `source` to `sink`, where its handler is
still running. -/
def relaySchedule : List Act :=
  [.sendPacket 7 ⟨.object [(bytes "k", .boolean true)], []⟩ "source", .run 7, .run 7, .run 7,
    .wake "", .dequeue 0 [0], .run 0, .run 0,
    .pushPacket 0 "source" "out" {}, .run 0,
    .pushPacket 0 "middle" "out" ⟨.object [(bytes "m", .boolean true)], []⟩,
    .run 0, .run 0, .run 0, .run 0, .run 0, .ret 0, .run 0, .run 0, .ret 0, .dequeue 0 [], .run 0,
    .wake "worker", .dequeue 1 [0], .run 1, .run 1]

/-- The state the schedule leads to. -/
def relayState : GraphState :=
  (relayGraph.machine.exec (fun _ a => a.quiet) startState relaySchedule).getD startState

theorem relayState_reachable : relayGraph.machine.Reachable quietRuns startState relayState :=
  Machine.reachable_exec (by decide)

example : relayState.log.map (fun d => (d.via.node, d.thread)) =
    [("source", 0), ("middle", 0), ("sink", 1)] := by
  decide

end Maplang
