import Maplang.Cpp.UnorderedMap
import Maplang.Stream.Buffer

/-!
# The data graph

The part of a `DataGraph` that does not change while packets are in flight.  Nodes, instances and
thread groups are known by their names (a `Graph` and a `DataGraphImpl` keep each under its name),
a thread by its id.

* `GraphNode`, `GraphEdge` : nodes and the edges that leave them, per channel.
* `Instance` : an instance runs on the loop thread of its thread group.
* `DataGraphImpl` : the graph, its instances, and the id of the loop thread of every thread group.
  A thread group is created when it is first asked for, and its loop thread is fixed from then on,
  so the group of a name is a total function here.
* `DataGraphImpl.groupOf` : the name of the thread group whose loop handles the packets of a node.
-/

namespace Maplang

/-- `thread::id`. -/
abbrev ThreadId := ℕ

/-- What an edge does with a packet pushed on the thread of its target. -/
inductive PacketDeliveryType where
  | pushDirectlyToTarget
  | alwaysQueue
  deriving DecidableEq, Repr

/-- `struct GraphEdge`; `next` is the name of the target. -/
structure GraphEdge where
  channel : String
  next : String
  sameThreadQueueToTargetType : PacketDeliveryType := .pushDirectlyToTarget
  deriving DecidableEq, Repr

/-- `struct GraphNode`, less what it is only given while packets are in flight. -/
structure GraphNode where
  name : String
  instanceName : String
  forwardEdges : UnorderedMap String (List GraphEdge) := ∅

/-- An implementation, seen through `asPathable()`. -/
structure Implementation where
  isPathable : Bool
  deriving DecidableEq, Repr

/-- `class Instance`. -/
structure Instance where
  mImplementation : Option Implementation
  mThreadGroupName : String
  deriving DecidableEq, Repr

/-- `class DataGraphImpl`. -/
structure DataGraphImpl where
  /-- `Graph::mNameToNodeMap`. -/
  mGraph : UnorderedMap String GraphNode
  mInstances : UnorderedMap String Instance
  /-- `getOrCreateThreadGroup(name)->mUvLoopThreadId`. -/
  mUvLoopThreadId : String → ThreadId

namespace DataGraphImpl

variable (G : DataGraphImpl)

/-- `DataGraphImpl::getInstanceForGraphNode`. -/
def getInstanceForGraphNode (node : GraphNode) : Code Instance :=
  if node.instanceName = "" then
    throwRuntimeError ("No instance assigned to GraphNode '" ++ node.name ++ "'.")
  else match G.mInstances.lookup node.instanceName with
    | none => throwRuntimeError ("Instance '" ++ node.instanceName
        ++ "' does not exist. Needed by GraphNode '" ++ node.name ++ "'.")
    | some inst => .ok inst

/-- The instance of the node with this name, `none` when looking it up throws. -/
def instanceOf (node : String) : Option Instance :=
  (G.mGraph.lookup node).bind fun n => (G.getInstanceForGraphNode n).toOption

/-- The thread group that handles the packets of a node. -/
def groupOf (node : String) : Option String := (G.instanceOf node).map Instance.mThreadGroupName

/-- The thread that handles the packets of a node. -/
def threadOf (node : String) : Option ThreadId := (G.groupOf node).map G.mUvLoopThreadId

/-- `fromNode->forwardEdges.find(channel)`. -/
def channelEdges (node channel : String) : Option (List GraphEdge) :=
  (G.mGraph.lookup node).bind fun n => n.forwardEdges.lookup channel

/-- All edges of a node with their channels, in the order two nested loops over `forwardEdges`
visit them. -/
def allEdges (node : String) : List (String × GraphEdge) :=
  match G.mGraph.lookup node with
  | none => []
  | some n => n.forwardEdges.entries.flatMap fun entry => entry.2.map fun e => (entry.1, e)

/-- Two nested loops over entries with distinct keys find the same elements under a key as a
lookup. -/
theorem filter_entries {entries : List (Sigma fun _ : String => List GraphEdge)}
    (h : entries.NodupKeys) (channel : String) (p : GraphEdge → Bool) :
    ((entries.flatMap fun entry => entry.2.map fun e => (entry.1, e)).filter
      fun x => x.1 == channel && p x.2).map Prod.snd =
      ((entries.dlookup channel).getD []).filter p := by
  induction entries with
  | nil => simp
  | cons entry entries ih =>
    obtain ⟨key, edges⟩ := entry
    obtain ⟨hkey, hrest⟩ := List.nodupKeys_cons.1 h
    rw [List.flatMap_cons, List.filter_append, List.map_append, ih hrest]
    by_cases hc : key = channel
    · subst hc
      have hnone : entries.dlookup key = none := List.dlookup_eq_none.2 hkey
      simp [hnone, List.filter_map, Function.comp_def]
    · have hfirst : (edges.map fun e => (key, e)).filter
          (fun x => x.1 == channel && p x.2) = [] := by
        simp [hc]
      rw [hfirst, List.dlookup_cons_ne _ _ (Ne.symm hc)]
      simp

variable {G} in
/-- The edges a loop over all edges finds on a channel are the edges of that channel. -/
theorem filter_allEdges (node channel : String) (p : GraphEdge → Bool) :
    ((G.allEdges node).filter fun x => x.1 == channel && p x.2).map Prod.snd =
      ((G.channelEdges node channel).getD []).filter p := by
  unfold allEdges channelEdges
  cases G.mGraph.lookup node with
  | none => simp
  | some n => exact filter_entries n.forwardEdges.nodupKeys channel p

end DataGraphImpl

end Maplang
