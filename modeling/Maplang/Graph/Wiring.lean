import Maplang.Graph.Basic
import Maplang.Machine.Basic
import Mathlib.Data.List.Perm.Basic

/-!
# Building a graph

`DataGraph::createNode`, `setNodeInstance`, `connect` and `disconnect` build the graph that packets
are sent through later.  The edges that leave a node are kept with the node, per channel, and each
node has a list of the nodes that have an edge to it.

## Main definitions

* `WiredNode`, `Graph` : nodes with all that connecting them reads and changes.
* `Graph.connect`, `Graph.disconnect`, `DataGraph.connect` : the code.
* `buildMachine` : a graph under calls, in any order.
* `Graph.edges`, `Graph.backs`, `Graph.attributes` : what is in a graph.
* `Graph.Shape`, `Graph.Mirrored` : what the containers of a graph have in common with each other.

## Main results

* `getNode_modifyNode` and the lemmas after it : what is in a graph after a write to a node.
-/

namespace Maplang

/-! ### Nodes -/

/-- `struct GraphNode`, with what building a graph reads and changes. -/
structure WiredNode extends GraphNode where
  allowsIncomingConnections : Bool
  allowsOutgoingConnections : Bool
  /-- The names of the nodes the weak pointers were made from. -/
  backEdges : List String := []

namespace WiredNode

variable (node : WiredNode)

/-- Write the edges of a channel. -/
def writeChannel (channel : String) (w : List GraphEdge → List GraphEdge) : WiredNode :=
  { node with
    forwardEdges := UnorderedMap.put node.forwardEdges channel
      (w ((node.forwardEdges.lookup channel).getD [])) }

/-- Erase a channel with all its edges. -/
def eraseChannel (channel : String) : WiredNode :=
  { node with forwardEdges := node.forwardEdges.erase channel }

/-- Write the back edges. -/
def writeBackEdges (w : List String → List String) : WiredNode :=
  { node with backEdges := w node.backEdges }

end WiredNode

/-- Assign the delivery type of the edge at a position. -/
def assignType (i : ℕ) (sameThreadQueueToTargetType : PacketDeliveryType)
    (channelEdges : List GraphEdge) : List GraphEdge :=
  channelEdges.modify i fun edge => { edge with sameThreadQueueToTargetType }

/-- `class Graph`. -/
structure Graph where
  mNameToNodeMap : UnorderedMap String WiredNode := ∅

namespace Graph

variable (g : Graph)

/-- `Graph::hasNode`. -/
def hasNode (nodeName : String) : Bool := (g.mNameToNodeMap.lookup nodeName).isSome

/-- `Graph::getNode`. -/
def getNode (nodeName : String) : Option WiredNode := g.mNameToNodeMap.lookup nodeName

/-- `Graph::getNodeOrThrow`. -/
def getNodeOrThrow (nodeName : String) : Code WiredNode :=
  match g.mNameToNodeMap.lookup nodeName with
  | none => throwRuntimeError ("Cannot get GraphNode '" ++ nodeName ++ "'. It does not exist.")
  | some node => .ok node

/-- Write to a node through a pointer to it. -/
def modifyNode (nodeName : String) (f : WiredNode → WiredNode) : Graph :=
  match g.mNameToNodeMap.lookup nodeName with
  | none => g
  | some node => ⟨g.mNameToNodeMap.put nodeName (f node)⟩

/-- `Graph::createGraphNode`. -/
def createGraphNode (nodeName : String)
    (allowsIncomingConnections allowsOutgoingConnections : Bool) : Code Graph :=
  match g.mNameToNodeMap.lookup nodeName with
  | some _ =>
    throwRuntimeError ("Cannot create GraphNode '" ++ nodeName ++ "'. It already exists.")
  | none => .ok ⟨g.mNameToNodeMap.insert nodeName
      { name := nodeName, instanceName := "", allowsIncomingConnections,
        allowsOutgoingConnections }⟩

/-- The loop of `connect` over the back edges of the target, and what follows it.  Expired pointers
are erased. -/
def addBackEdge (fromNodeName : String) (backEdges : List String) : List String :=
  let live := backEdges.filter g.hasNode
  if fromNodeName ∈ live then live else live ++ [fromNodeName]

/-- `Graph::connect`, with the position of the edge it returns.  The nodes are looked up without a
test. -/
def connect (fromNodeName fromChannel toNodeName : String) : Code (Graph × ℕ) :=
  match g.getNode fromNodeName, g.getNode toNodeName with
  | some fromNode, some _ =>
    let channelEdges := (fromNode.forwardEdges.lookup fromChannel).getD []
    match channelEdges.findIdx? fun edge => edge.next = toNodeName with
    | some i => .ok (g, i)
    | none =>
      let g' := g.modifyNode fromNodeName (·.writeChannel fromChannel
        (· ++ [{ channel := fromChannel, next := toNodeName }]))
      .ok (g'.modifyNode toNodeName (·.writeBackEdges (g'.addBackEdge fromNodeName)),
        channelEdges.length)
  | _, _ => .error .undefinedBehaviour

/-- `Graph::disconnect`. -/
def disconnect (fromNodeName fromChannel toNodeName : String) : Code Graph :=
  -- the second test repeats the first one
  if !g.hasNode fromNodeName || !g.hasNode fromNodeName then .ok g
  else
    match g.getNode fromNodeName, g.getNode toNodeName with
    | some fromNode, some _ =>
      match fromNode.forwardEdges.lookup fromChannel with
      | none => .ok g
      | some _ =>
        let g' := g.modifyNode toNodeName
          (·.writeBackEdges (·.filter fun b => g.hasNode b && b != fromNodeName))
        -- all edges of the channel
        .ok (g'.modifyNode fromNodeName (·.eraseChannel fromChannel))
    | _, _ => .error .undefinedBehaviour

end Graph

namespace DataGraph

variable (mGraph : Graph)

/-- `DataGraph::setNodeInstance`. -/
def setNodeInstance (nodeName instanceName : String) : Code Graph := do
  let _ ← mGraph.getNodeOrThrow nodeName
  return mGraph.modifyNode nodeName fun node => { node with instanceName }

/-- The tests of `DataGraph::connect`. -/
def checkConnection (fromNodeName fromChannel toNodeName : String) : Code Unit := do
  if fromNodeName = "" then
    throwRuntimeError ("fromNodeName must be set - error connecting from node '" ++ fromNodeName
      ++ "' to node '" ++ toNodeName ++ "'")
  else if fromChannel = "" then
    throwRuntimeError ("fromChannel must be set - error connecting from node '" ++ fromNodeName
      ++ "' to node '" ++ toNodeName ++ "'")
  else if toNodeName = "" then
    throwRuntimeError ("toNodeName must be set - error connecting from node '" ++ fromNodeName
      ++ "' to node '" ++ toNodeName ++ "'")
  else
    let fromNode ← mGraph.getNodeOrThrow fromNodeName
    let toNode ← mGraph.getNodeOrThrow toNodeName
    if !fromNode.allowsOutgoingConnections then
      throwRuntimeError ("Cannot make a connection from '" ++ fromNodeName ++ "' to '"
        ++ toNodeName ++ "': '" ++ fromNodeName ++ "' does not allow outgoing connections.")
    else if !toNode.allowsIncomingConnections then
      throwRuntimeError ("Cannot make a connection from '" ++ fromNodeName ++ "' to '"
        ++ toNodeName ++ "': '" ++ toNodeName ++ "' does not allow incoming connections.")
    else if fromNode.instanceName = "" then
      throwRuntimeError ("Error connecting node '" ++ fromNodeName ++ "' to '" ++ toNodeName
        ++ "': Source node instance must be set before connecting nodes.")
    else if toNode.instanceName = "" then
      throwRuntimeError ("Error connecting node '" ++ fromNodeName ++ "' to '" ++ toNodeName
        ++ "': Target node instance must be set before connecting nodes.")
    else return ()

/-- `DataGraph::connect`. -/
def connect (fromNodeName fromChannel toNodeName : String)
    (sameThreadQueueToTargetType : PacketDeliveryType) : Code Graph := do
  checkConnection mGraph fromNodeName fromChannel toNodeName
  let (mGraph, i) ← mGraph.connect fromNodeName fromChannel toNodeName
  -- the assignment through the reference that `Graph::connect` returns
  return mGraph.modifyNode fromNodeName
    (·.writeChannel fromChannel (assignType i sameThreadQueueToTargetType))

end DataGraph

/-- A call of the functions that build a graph. -/
inductive BuildCall where
  | createNode (name : String) (allowIncoming allowOutgoing : Bool)
  | setNodeInstance (nodeName instanceName : String)
  | connect (fromNodeName fromChannel toNodeName : String)
      (sameThreadQueueToTargetType : PacketDeliveryType)
  | disconnect (fromNodeName fromChannel toNodeName : String)
  deriving DecidableEq

/-- Make a call. -/
def BuildCall.perform (g : Graph) : BuildCall → Code Graph
  | .createNode name allowIncoming allowOutgoing =>
    g.createGraphNode name allowIncoming allowOutgoing
  | .setNodeInstance nodeName instanceName => DataGraph.setNodeInstance g nodeName instanceName
  | .connect fromNodeName fromChannel toNodeName sameThreadQueueToTargetType =>
    DataGraph.connect g fromNodeName fromChannel toNodeName sameThreadQueueToTargetType
  | .disconnect fromNodeName fromChannel toNodeName =>
    g.disconnect fromNodeName fromChannel toNodeName

/-- A graph under calls.  A call that throws changes nothing, so it is left out of a run. -/
def buildMachine : Machine Graph BuildCall where
  step g call := (call.perform g).toOption

/-! ### What is in a graph -/

namespace Graph

variable (g : Graph)

/-- The edges of a channel of a node. -/
def edges (node channel : String) : List GraphEdge :=
  ((g.getNode node).bind fun n => n.forwardEdges.lookup channel).getD []

/-- The back edges of a node. -/
def backs (node : String) : List String := ((g.getNode node).map WiredNode.backEdges).getD []

/-- What a node is created with, and its instance. -/
def attributes (node : String) : Option (String × String × Bool × Bool) :=
  (g.getNode node).map fun n =>
    (n.name, n.instanceName, n.allowsIncomingConnections, n.allowsOutgoingConnections)

/-- The graph has this edge. -/
def HasEdge (node channel next : String) : Prop := ∃ e ∈ g.edges node channel, e.next = next

instance (node channel next : String) : Decidable (g.HasEdge node channel next) :=
  inferInstanceAs (Decidable (∃ e ∈ g.edges node channel, e.next = next))

/-- A channel that has an entry has an edge. -/
def NoEmptyChannel : Prop :=
  ∀ n node c es, g.getNode n = some node → node.forwardEdges.lookup c = some es → es ≠ []

/-- What holds of the containers of every graph that is built. -/
structure Shape : Prop where
  nonempty : g.NoEmptyChannel
  channel : ∀ f c, ∀ e ∈ g.edges f c, e.channel = c
  target : ∀ f c, ∀ e ∈ g.edges f c, g.hasNode e.next = true
  once : ∀ f c, ((g.edges f c).map GraphEdge.next).Nodup
  backOnce : ∀ t, (g.backs t).Nodup
  /-- No weak pointer has expired. -/
  live : ∀ t, ∀ b ∈ g.backs t, g.hasNode b = true

/-- The back edges of a node are the nodes that have an edge to it. -/
def Mirrored : Prop := ∀ s t, s ∈ g.backs t ↔ ∃ c, g.HasEdge s c t

variable {g}

/-! ### Writing to a node -/

variable {n m c c' : String}

theorem getNode_of_hasNode (h : g.hasNode n = true) : ∃ node, g.getNode n = some node :=
  Option.isSome_iff_exists.1 h

theorem edges_of_getNode {node : WiredNode} (h : g.getNode n = some node) :
    (node.forwardEdges.lookup c).getD [] = g.edges n c := by
  rw [edges, h, Option.bind_some]

@[simp] theorem getNode_modifyNode (f : WiredNode → WiredNode) :
    (g.modifyNode n f).getNode m = if m = n then (g.getNode n).map f else g.getNode m := by
  unfold modifyNode getNode
  cases h : g.mNameToNodeMap.lookup n with
  | none =>
    by_cases hm : m = n
    · subst hm
      simp [h]
    · simp [hm]
  | some node => simp

@[simp] theorem hasNode_modifyNode (f : WiredNode → WiredNode) :
    (g.modifyNode n f).hasNode m = g.hasNode m := by
  have h : ∀ g' : Graph, g'.hasNode m = (g'.getNode m).isSome := fun _ => rfl
  rw [h, h, getNode_modifyNode]
  by_cases hm : m = n
  · subst hm
    simp
  · simp [hm]

@[simp] theorem edges_writeChannel (w : List GraphEdge → List GraphEdge) :
    (g.modifyNode n (·.writeChannel c w)).edges m c' =
      if m = n ∧ c' = c ∧ g.hasNode n = true then w (g.edges n c) else g.edges m c' := by
  unfold edges hasNode
  rw [getNode_modifyNode, ← getNode]
  by_cases hm : m = n
  · subst hm
    cases hnode : g.getNode m with
    | none => simp
    | some node => by_cases hc : c' = c <;> simp [WiredNode.writeChannel, hc]
  · simp [hm]

@[simp] theorem edges_eraseChannel :
    (g.modifyNode n (·.eraseChannel c)).edges m c' =
      if m = n ∧ c' = c then [] else g.edges m c' := by
  unfold edges
  rw [getNode_modifyNode]
  by_cases hm : m = n
  · subst hm
    cases g.getNode m with
    | none => simp
    | some node =>
      by_cases hc : c' = c
      · subst hc
        simp [WiredNode.eraseChannel, AList.lookup_erase]
      · simp [WiredNode.eraseChannel, hc, AList.lookup_erase_ne hc]
  · simp [hm]

/-- What a change does not touch stays, in the node that is changed as in the others. -/
theorem map_getNode_modifyNode {α : Type} {f : WiredNode → WiredNode} {read : WiredNode → α}
    (hread : ∀ node, read (f node) = read node) :
    ((g.modifyNode n f).getNode m).map read = (g.getNode m).map read := by
  rw [getNode_modifyNode]
  by_cases hm : m = n
  · subst hm
    rw [if_pos rfl, Option.map_map]
    exact congrArg (Option.map · (g.getNode m)) (funext hread)
  · rw [if_neg hm]

@[simp] theorem edges_writeBackEdges (w : List String → List String) :
    (g.modifyNode n (·.writeBackEdges w)).edges m c' = g.edges m c' := by
  have hedges : ∀ g' : Graph, g'.edges m c' =
      (((g'.getNode m).map fun node => node.forwardEdges).bind (·.lookup c')).getD [] := by
    intro g'
    rw [edges, Option.bind_map]
    rfl
  have hsame : ((g.modifyNode n (·.writeBackEdges w)).getNode m).map
      (fun node => node.forwardEdges) = (g.getNode m).map fun node => node.forwardEdges :=
    map_getNode_modifyNode fun _ => rfl
  rw [hedges, hedges, hsame]

@[simp] theorem backs_writeChannel (w : List GraphEdge → List GraphEdge) :
    (g.modifyNode n (·.writeChannel c w)).backs m = g.backs m :=
  congrArg (Option.getD · []) (map_getNode_modifyNode fun _ => rfl)

@[simp] theorem backs_eraseChannel : (g.modifyNode n (·.eraseChannel c)).backs m = g.backs m :=
  congrArg (Option.getD · []) (map_getNode_modifyNode fun _ => rfl)

@[simp] theorem backs_writeBackEdges (w : List String → List String) :
    (g.modifyNode n (·.writeBackEdges w)).backs m =
      if m = n ∧ g.hasNode n = true then w (g.backs n) else g.backs m := by
  unfold backs hasNode
  rw [getNode_modifyNode, ← getNode]
  by_cases hm : m = n
  · subst hm
    cases g.getNode m <;> simp [WiredNode.writeBackEdges]
  · simp [hm]

@[simp] theorem attributes_writeChannel (w : List GraphEdge → List GraphEdge) :
    (g.modifyNode n (·.writeChannel c w)).attributes m = g.attributes m :=
  map_getNode_modifyNode fun _ => rfl

@[simp] theorem attributes_writeBackEdges (w : List String → List String) :
    (g.modifyNode n (·.writeBackEdges w)).attributes m = g.attributes m :=
  map_getNode_modifyNode fun _ => rfl

@[simp] theorem attributes_eraseChannel :
    (g.modifyNode n (·.eraseChannel c)).attributes m = g.attributes m :=
  map_getNode_modifyNode fun _ => rfl

theorem hasNode_eq (n : String) : g.hasNode n = (g.attributes n).isSome := by
  rw [attributes, Option.isSome_map]
  rfl

theorem noEmptyChannel_modifyNode {f : WiredNode → WiredNode} (h : g.NoEmptyChannel)
    (hf : ∀ node, g.getNode n = some node → ∀ c es, (f node).forwardEdges.lookup c = some es →
      node.forwardEdges.lookup c = some es ∨ es ≠ []) : (g.modifyNode n f).NoEmptyChannel := by
  intro m node c es hnode hes
  rw [getNode_modifyNode] at hnode
  split at hnode
  · obtain ⟨old, hold, rfl⟩ := Option.map_eq_some_iff.1 hnode
    exact (hf old hold c es hes).elim (h _ old c es hold) id
  · exact h m node c es hnode hes

theorem NoEmptyChannel.writeChannel {w : List GraphEdge → List GraphEdge} (h : g.NoEmptyChannel)
    (hw : w (g.edges n c) ≠ []) : (g.modifyNode n (·.writeChannel c w)).NoEmptyChannel := by
  refine noEmptyChannel_modifyNode h fun node hnode c' es hes => ?_
  rw [WiredNode.writeChannel, UnorderedMap.lookup_put] at hes
  split at hes
  · rw [edges_of_getNode hnode] at hes
    exact .inr (Option.some.inj hes ▸ hw)
  · exact .inl hes

theorem NoEmptyChannel.eraseChannel (h : g.NoEmptyChannel) :
    (g.modifyNode n (·.eraseChannel c)).NoEmptyChannel := by
  refine noEmptyChannel_modifyNode h fun node _ c' es hes => .inl ?_
  by_cases hc : c' = c
  · rw [hc, WiredNode.eraseChannel, AList.lookup_erase] at hes
    cases hes
  · rwa [WiredNode.eraseChannel, AList.lookup_erase_ne hc] at hes

theorem NoEmptyChannel.writeBackEdges (h : g.NoEmptyChannel) (w : List String → List String) :
    (g.modifyNode n (·.writeBackEdges w)).NoEmptyChannel :=
  noEmptyChannel_modifyNode h fun _ _ _ _ hes => .inl hes

theorem addBackEdge_congr {g' : Graph} (h : ∀ n, g'.hasNode n = g.hasNode n) (s : String)
    (bs : List String) : g'.addBackEdge s bs = g.addBackEdge s bs := by
  unfold addBackEdge
  rw [funext h]

end Graph

end Maplang
