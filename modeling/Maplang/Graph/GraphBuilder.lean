import Maplang.Cpp.Loops
import Maplang.Graph.Building
import Maplang.Json.Basic

/-!
# Building a graph from a text

`buildDataGraph` has cgraph read a text in the DOT language and builds a data graph from what was
read: a node for each subgraph and each node, with the instance and the connections that its
attributes say, and an edge for each edge, on the channel that is its label.  It throws at the first
thing that does not fit, so a graph is only returned if everything fits.

What cgraph reads is a parameter.  An attribute that is set for one object is declared for all
objects of its kind, and has the empty text where it is not set.  So if one node has
`initParameters`, each node needs them.

## Main definitions

* `Cgraph` : a graph that cgraph has read, as it is traversed.
* `buildDataGraph` : the code.
* `Cgraph.Buildable` : everything fits.
* `Cgraph.Describes` : a data graph is the one that is described.

## Main results

* `buildNode_round`, `buildEdge_round` : what one round of the loops does.
* `buildDataGraph_ok` : the texts a data graph is built from, and that it is the one described.
-/

namespace Maplang

open Maplang.Graph

/-- An object of cgraph: its name, and its attributes, as `agattrsym` and `agxget` give them. -/
structure CgraphObject where
  name : String := ""
  agxget : String → Option String

/-- An edge, with the name of the node it leads to. -/
structure CgraphEdge extends CgraphObject where
  toNode : String

/-- A graph that was read: the subgraphs, and the nodes with the edges that leave them. -/
structure Cgraph where
  subgraphs : List CgraphObject
  nodes : List (CgraphObject × List CgraphEdge)

/-- `class DataGraphImpl`, with what building a graph reads and changes: of an instance the initial
parameters. -/
structure LoadedGraph where
  mGraph : Graph := {}
  mInstances : UnorderedMap String Json := ∅

/-! ### The code -/

/-- `getOptionalBoolAttribute`.  No caller asks why it is not set. -/
def getOptionalBoolAttribute (object : CgraphObject) (attributeName : String) : Option Bool :=
  match object.agxget attributeName with
  | none => none
  | some value =>
    if value = "true" then some true
    else if value = "false" then some false
    else none

/-- `getStringAttribute`. -/
def getStringAttribute (object : CgraphObject) (attributeName : String) : Code String :=
  match object.agxget attributeName with
  | none => throwRuntimeError ("Could not find attribute '" ++ attributeName ++ "'")
  | some value =>
    if value = "" then throwRuntimeError ("Could not find attribute '" ++ attributeName ++ "'")
    else .ok value

/-- What is thrown is thrown again, with a text before it. -/
def withContext {α : Type} (context : String) : Code α → Code α
  | .error (.exception what) => throwRuntimeError (context ++ what)
  | code => code

/-- `getNodeStringAttribute`. -/
def getNodeStringAttribute (node : CgraphObject) (attributeName : String) : Code String :=
  withContext ("Error getting attribute from node '" ++ node.name ++ "': ")
    (getStringAttribute node attributeName)

/-- `getEdgeStringAttribute`. -/
def getEdgeStringAttribute (fromNodeName : String) (edge : CgraphEdge) (attributeName : String) :
    Code String :=
  withContext ("Error getting attribute edge connecting from node '" ++ fromNodeName ++
      "' to node '" ++ edge.toNode ++ "': ")
    (getStringAttribute edge.toCgraphObject attributeName)

section

variable (parse : String → Code Json) (getDefaultThreadGroup : Code Unit)

/-- `DataGraph::setInstanceInitParameters`.  Making an instance needs the default thread group. -/
def LoadedGraph.setInstanceInitParameters (g : LoadedGraph) (instanceName : String)
    (initParameters : Json) : Code LoadedGraph :=
  if initParameters.isObject then do
    if (g.mInstances.lookup instanceName).isNone then getDefaultThreadGroup
    return { g with mInstances := UnorderedMap.put g.mInstances instanceName initParameters }
  else throwRuntimeError "initParameters must be an object."

/-- What the loops over the subgraphs and the nodes have in common. -/
def buildObject (g : LoadedGraph) (object : CgraphObject) (instanceName : String) :
    Code LoadedGraph := do
  let allowIncoming := (getOptionalBoolAttribute object "allowIncoming").getD false
  let allowOutgoing := (getOptionalBoolAttribute object "allowOutgoing").getD false
  let mGraph ← g.mGraph.createGraphNode object.name allowIncoming allowOutgoing
  let mGraph ← DataGraph.setNodeInstance mGraph object.name instanceName
  return { g with mGraph }

/-- The loop over the subgraphs. -/
def buildSubgraph (g : LoadedGraph) (subgraph : CgraphObject) : Code LoadedGraph := do
  let instanceName ← getStringAttribute subgraph "instance"
  buildObject g subgraph instanceName

/-- The loop over the nodes. -/
def buildNode (g : LoadedGraph) (node : CgraphObject) : Code LoadedGraph := do
  let instanceName ← getNodeStringAttribute node "instance"
  let g ← buildObject g node instanceName
  match node.agxget "initParameters" with
  | none => return g
  | some initParameters =>
    let initParameters ← parse initParameters
    g.setInstanceInitParameters getDefaultThreadGroup instanceName initParameters

/-- The loop over the edges of a node. -/
def buildEdge (g : LoadedGraph) (edge : String × CgraphEdge) : Code LoadedGraph := do
  let channel ← getEdgeStringAttribute edge.1 edge.2 "label"
  if channel = "" then
    throwRuntimeError ("label (i.e. output channel) cannot be empty in edge from node '" ++
      edge.1 ++ "' to '" ++ edge.2.toNode ++ "'")
  else
    let mGraph ← DataGraph.connect g.mGraph edge.1 channel edge.2.toNode .pushDirectlyToTarget
    return { g with mGraph }

/-- `buildDataGraph`.  `agErrors` is what cgraph has reported by then. -/
def buildDataGraph (agmemread : String → Option Cgraph) (agErrors dotGraphString : String) :
    Code LoadedGraph :=
  match agmemread dotGraphString with
  | none => throwRuntimeError ("Error parsing graph: '" ++ agErrors ++ "' Graph:\n" ++
      dotGraphString ++ "\n")
  | some cgraph => do
    let g ← cgraph.subgraphs.foldlM buildSubgraph {}
    let g ← cgraph.nodes.foldlM (fun g node => buildNode parse getDefaultThreadGroup g node.1) g
    cgraph.nodes.foldlM
      (fun g fromNode => fromNode.2.foldlM (fun g edge => buildEdge g (fromNode.1.name, edge)) g) g

end

/-! ### What a text describes -/

namespace CgraphObject

variable (object : CgraphObject)

/-- The attributes of the node that is made. -/
def attributes (object : CgraphObject) : String × String × Bool × Bool :=
  (object.name, (object.agxget "instance").getD "",
    (getOptionalBoolAttribute object "allowIncoming").getD false,
    (getOptionalBoolAttribute object "allowOutgoing").getD false)

/-- An instance is named. -/
def Assigned : Prop := ∃ instanceName, object.agxget "instance" = some instanceName ∧
  instanceName ≠ ""

/-- Initial parameters, if they are declared, are an object, and there can be a thread group for
their instance. -/
def Initialized (parse : String → Code Json) (getDefaultThreadGroup : Code Unit) : Prop :=
  ∀ text, object.agxget "initParameters" = some text →
    (∃ initParameters, parse text = .ok initParameters ∧ initParameters.isObject = true) ∧
      getDefaultThreadGroup = .ok ()

end CgraphObject

namespace Cgraph

variable (D : Cgraph)

/-- What nodes are made from. -/
def objects : List CgraphObject := D.subgraphs ++ D.nodes.map Prod.fst

/-- The edges, with the names of the nodes they leave. -/
def edges : List (String × CgraphEdge) :=
  D.nodes.flatMap fun node => node.2.map fun edge => (node.1.name, edge)

end Cgraph

/-- An edge can be made: it has a label, and joins two of the nodes that allow it. -/
structure Connectable (objects : List CgraphObject) (edge : String × CgraphEdge) : Prop where
  labelled : ∃ channel, edge.2.agxget "label" = some channel ∧ channel ≠ ""
  named : edge.1 ≠ "" ∧ edge.2.toNode ≠ ""
  outgoing : ∃ object ∈ objects, object.name = edge.1 ∧
    getOptionalBoolAttribute object "allowOutgoing" = some true
  incoming : ∃ object ∈ objects, object.name = edge.2.toNode ∧
    getOptionalBoolAttribute object "allowIncoming" = some true

/-- Everything fits. -/
structure Cgraph.Buildable (parse : String → Code Json) (getDefaultThreadGroup : Code Unit)
    (D : Cgraph) : Prop where
  named : (D.objects.map CgraphObject.name).Nodup
  assigned : ∀ object ∈ D.objects, object.Assigned
  initialized : ∀ node ∈ D.nodes, node.1.Initialized parse getDefaultThreadGroup
  connectable : ∀ edge ∈ D.edges, Connectable D.objects edge

/-- The initial parameters that a node gives an instance. -/
def CgraphObject.gives (parse : String → Code Json) (instanceName : String)
    (node : CgraphObject) : Option Json :=
  if node.agxget "instance" = some instanceName then
    (node.agxget "initParameters").bind fun text => (parse text).toOption
  else none

/-- A data graph is the one that is described: its nodes and edges are those of the text, each edge
once and pushed along directly, the back edges mirror them, and an instance has the initial
parameters of the last node that gives it some. -/
structure Cgraph.Describes (parse : String → Code Json) (D : Cgraph) (g : LoadedGraph) : Prop where
  nodes : ∀ n, g.mGraph.attributes n =
    (D.objects.find? fun object => object.name = n).map CgraphObject.attributes
  edges : ∀ f c t, g.mGraph.HasEdge f c t ↔ ∃ edge ∈ D.edges,
    edge.1 = f ∧ edge.2.agxget "label" = some c ∧ edge.2.toNode = t
  once : ∀ f c, ((g.mGraph.edges f c).map GraphEdge.next).Nodup
  directly : ∀ f c, ∀ e ∈ g.mGraph.edges f c,
    e.sameThreadQueueToTargetType = .pushDirectlyToTarget
  mirrored : g.mGraph.Mirrored
  instances : ∀ instanceName, g.mInstances.lookup instanceName =
    ((D.nodes.map Prod.fst).filterMap (·.gives parse instanceName)).getLast?

variable {parse : String → Code Json} {getDefaultThreadGroup : Code Unit} {g g' : LoadedGraph}
  {D : Cgraph}

/-! ### Attributes -/

theorem getStringAttribute_ok {object : CgraphObject} {attributeName value : String} :
    getStringAttribute object attributeName = .ok value ↔
      object.agxget attributeName = some value ∧ value ≠ "" := by
  rw [getStringAttribute]
  cases object.agxget attributeName with
  | none => exact iff_of_false (fun h => by cases h) fun h => by cases h.1
  | some found =>
    simp only
    by_cases hempty : found = ""
    · rw [if_pos hempty]
      exact iff_of_false (fun h => by cases h) fun h => h.2 (Option.some.inj h.1 ▸ hempty)
    · rw [if_neg hempty]
      constructor
      · intro h
        obtain rfl := Except.ok.inj h
        exact ⟨rfl, hempty⟩
      · exact fun h => congrArg Except.ok (Option.some.inj h.1)

/-- A text before what is thrown does not change what is returned. -/
theorem withContext_ok {α : Type} {context : String} {code : Code α} {a : α} :
    withContext context code = .ok a ↔ code = .ok a := by
  unfold withContext
  split
  · exact iff_of_false (fun h => by cases h) fun h => by cases h
  · exact Iff.rfl

theorem nodup_concat {names : List CgraphObject} {object : CgraphObject}
    (h : (names.map CgraphObject.name).Nodup)
    (hnew : object.name ∉ names.map CgraphObject.name) :
    ((names ++ [object]).map CgraphObject.name).Nodup := by
  rw [List.map_append, List.map_singleton]
  exact h.append (List.nodup_singleton _) (List.disjoint_singleton.2 hnew)

theorem new_of_nodup {names : List CgraphObject} {object : CgraphObject}
    (h : ((names ++ [object]).map CgraphObject.name).Nodup) :
    object.name ∉ names.map CgraphObject.name := by
  rw [List.map_append, List.map_singleton] at h
  exact List.disjoint_singleton.1 (List.disjoint_of_nodup_append h)

theorem forall_mem_concat {α : Type} {p : α → Prop} {l : List α} {a : α} (h : ∀ x ∈ l, p x)
    (ha : p a) : ∀ x ∈ l ++ [a], p x := fun x hx =>
  (List.mem_append.1 hx).elim (h x) fun hsame => List.mem_singleton.1 hsame ▸ ha

/-! ### Nodes -/

/-- The nodes that are made so far, and no edges. -/
structure NodesMade (objects : List CgraphObject) (mGraph : Graph) : Prop where
  attributes : ∀ n, mGraph.attributes n =
    (objects.find? fun object => object.name = n).map CgraphObject.attributes
  built : Built [] mGraph

theorem Built.of_sameWiring {calls : List BuildCall} {mGraph mGraph' : Graph}
    (h : Built calls mGraph) (hsame : SameWiring mGraph mGraph') : Built calls mGraph' :=
  ⟨h.shape.sameWiring hsame, h.mirrored.sameWiring hsame, fun f c e => by
    rw [hsame.edges, h.edges]⟩

theorem NodesMade.hasNode {objects : List CgraphObject} {mGraph : Graph}
    (h : NodesMade objects mGraph) {n : String} :
    mGraph.hasNode n = true ↔ n ∈ objects.map CgraphObject.name := by
  rw [hasNode_eq, h.attributes, Option.isSome_map, List.find?_isSome, List.mem_map]
  simp

/-- A node is created if its name is new. -/
theorem createGraphNode_new {mGraph : Graph} {name : String} (allowIncoming allowOutgoing : Bool)
    (h : mGraph.hasNode name = false) :
    ∃ mGraph', mGraph.createGraphNode name allowIncoming allowOutgoing = .ok mGraph' := by
  have hnone : mGraph.mNameToNodeMap.lookup name = none :=
    Option.isNone_iff_eq_none.1 (Option.isSome_eq_false_iff.1 h)
  rw [createGraphNode, hnone]
  exact ⟨_, rfl⟩

/-- The instance of a node that is there is set. -/
theorem setNodeInstance_of_getNode {mGraph : Graph} {name : String} {node : WiredNode}
    (h : mGraph.getNode name = some node) (instanceName : String) :
    DataGraph.setNodeInstance mGraph name instanceName =
      .ok (mGraph.modifyNode name fun node => { node with instanceName }) := by
  rw [DataGraph.setNodeInstance, getNodeOrThrow, ← getNode, h]
  rfl

/-- A name that is new is made, with the attributes of the object. -/
theorem NodesMade.buildObject {objects : List CgraphObject} (h : NodesMade objects g.mGraph)
    {object : CgraphObject} {instanceName : String}
    (hassigned : object.agxget "instance" = some instanceName)
    (hnew : object.name ∉ objects.map CgraphObject.name) :
    ∃ mGraph, Maplang.buildObject g object instanceName = .ok { g with mGraph } ∧
      NodesMade (objects ++ [object]) mGraph := by
  have hunknown : g.mGraph.hasNode object.name = false := by
    rw [← Bool.not_eq_true, h.hasNode]
    exact hnew
  obtain ⟨created, hcreate⟩ := createGraphNode_new
    ((getOptionalBoolAttribute object "allowIncoming").getD false)
    ((getOptionalBoolAttribute object "allowOutgoing").getD false) hunknown
  obtain ⟨-, hget⟩ := getNode_of_create hcreate
  have hset := setNodeInstance_of_getNode ((hget object.name).trans (if_pos rfl)) instanceName
  refine ⟨created.modifyNode object.name fun node => { node with instanceName }, ?_, ?_, ?_⟩
  · rw [Maplang.buildObject, hcreate]
    change (DataGraph.setNodeInstance created object.name instanceName).bind _ = _
    rw [hset]
    rfl
  · intro n
    rw [List.find?_append, Graph.attributes, getNode_modifyNode, hget, hget]
    by_cases hn : n = object.name
    · subst hn
      have hnone : objects.find? (fun other => decide (other.name = object.name)) = none :=
        List.find?_eq_none.2 fun other hother heq =>
          hnew (List.mem_map.2 ⟨other, hother, of_decide_eq_true heq⟩)
      rw [hnone]
      simp [CgraphObject.attributes, hassigned]
    · have hne : object.name ≠ n := fun heq => hn heq.symm
      simp only [if_neg hn, List.find?_singleton, hne, decide_false, Bool.false_eq_true, if_false,
        Option.or_none]
      exact h.attributes n
  · exact (h.built.of_sameWiring (createGraphNode_spec hcreate)).of_sameWiring
      (setNodeInstance_spec hset)

/-- A name that is there throws. -/
theorem NodesMade.new_of_buildObject {objects : List CgraphObject}
    (h : NodesMade objects g.mGraph) {object : CgraphObject} {instanceName : String}
    (hok : Maplang.buildObject g object instanceName = .ok g') :
    object.name ∉ objects.map CgraphObject.name := by
  obtain ⟨created, hcreate, -⟩ := bind_eq_ok.1 hok
  obtain ⟨hnone, -⟩ := getNode_of_create hcreate
  rw [← h.hasNode, Graph.hasNode, ← getNode, hnone]
  simp

theorem mInstances_of_buildObject {object : CgraphObject} {instanceName : String}
    (hok : buildObject g object instanceName = .ok g') : g'.mInstances = g.mInstances := by
  obtain ⟨_, -, hok⟩ := bind_eq_ok.1 hok
  obtain ⟨_, -, hok⟩ := bind_eq_ok.1 hok
  rw [← Except.ok.inj hok]

/-- The loop over the subgraphs makes nodes of new names with an instance. -/
theorem buildSubgraph_round : Round buildSubgraph
    (fun done => (done.map CgraphObject.name).Nodup ∧ ∀ object ∈ done, object.Assigned)
    (fun done g => NodesMade done g.mGraph ∧ g.mInstances = ∅) where
  initial done rest := by
    rintro ⟨hnodup, hassigned⟩
    rw [List.map_append] at hnodup
    exact ⟨hnodup.of_append_left, fun object h => hassigned object (List.mem_append_left _ h)⟩
  passes done object g := by
    rintro ⟨hmade, hinstances⟩ ⟨hnodup, hassigned⟩
    obtain ⟨instanceName, hinstance, hne⟩ := hassigned object (by simp)
    obtain ⟨mGraph, hbuild, hmade'⟩ := hmade.buildObject (g := g) hinstance (new_of_nodup hnodup)
    refine ⟨{ g with mGraph }, ?_, hmade', hinstances⟩
    rw [buildSubgraph, getStringAttribute_ok.2 ⟨hinstance, hne⟩]
    exact hbuild
  stops done object g g' := by
    rintro ⟨hmade, -⟩ ⟨hnodup, hassigned⟩ hok
    obtain ⟨instanceName, hget, hbuild⟩ := bind_eq_ok.1 hok
    exact ⟨nodup_concat hnodup (hmade.new_of_buildObject hbuild),
      forall_mem_concat hassigned ⟨instanceName, getStringAttribute_ok.1 hget⟩⟩

/-- The initial parameters of an instance are set. -/
theorem setInstanceInitParameters_ok {instanceName : String} {initParameters : Json} :
    g.setInstanceInitParameters getDefaultThreadGroup instanceName initParameters = .ok g' ↔
      initParameters.isObject = true ∧
        (g.mInstances.lookup instanceName = none → getDefaultThreadGroup = .ok ()) ∧
        { g with
          mInstances := UnorderedMap.put g.mInstances instanceName initParameters } = g' := by
  rw [LoadedGraph.setInstanceInitParameters]
  by_cases hobject : initParameters.isObject = true
  swap
  · rw [if_neg hobject]
    exact iff_of_false (fun h => by cases h) fun h => hobject h.1
  rw [if_pos hobject]
  cases hlookup : g.mInstances.lookup instanceName with
  | some old => exact ⟨fun h => ⟨hobject, fun hnone => (by cases hnone), Except.ok.inj h⟩,
      fun h => congrArg Except.ok h.2.2⟩
  | none =>
    cases hgroup : getDefaultThreadGroup with
    | error fault => exact iff_of_false (fun h => by cases h) fun h => by cases h.2.1 rfl
    | ok => exact ⟨fun h => ⟨hobject, fun _ => rfl, Except.ok.inj h⟩,
        fun h => congrArg Except.ok h.2.2⟩

/-- The instances that the nodes have given initial parameters. -/
def InstancesSet (parse : String → Code Json) (nodes : List CgraphObject) (g : LoadedGraph) :
    Prop :=
  ∀ instanceName, g.mInstances.lookup instanceName =
    (nodes.filterMap (·.gives parse instanceName)).getLast?

theorem gives_eq_some {node : CgraphObject} {instanceName : String} {initParameters : Json} :
    node.gives parse instanceName = some initParameters ↔
      node.agxget "instance" = some instanceName ∧ ∃ text,
        node.agxget "initParameters" = some text ∧ parse text = .ok initParameters := by
  have hparsed : ∀ text, (parse text).toOption = some initParameters ↔
      parse text = .ok initParameters := fun text => by cases parse text <;> simp [Except.toOption]
  rw [CgraphObject.gives]
  split
  · rename_i hinstance
    rw [Option.bind_eq_some_iff]
    simp only [hparsed, hinstance, true_and]
  · rename_i hinstance
    exact iff_of_false (fun h => by cases h) fun h => hinstance h.1

/-- A node that gives no initial parameters changes no instance. -/
theorem InstancesSet.concat_none {nodes : List CgraphObject} (h : InstancesSet parse nodes g)
    {node : CgraphObject} (hnone : node.agxget "initParameters" = none) (mGraph : Graph) :
    InstancesSet parse (nodes ++ [node]) { g with mGraph } := by
  intro instanceName
  have hgives : node.gives parse instanceName = none := by
    rw [Option.eq_none_iff_forall_not_mem]
    intro initParameters hmem
    obtain ⟨-, text, htext, -⟩ := gives_eq_some.1 hmem
    cases hnone.symm.trans htext
  rw [List.filterMap_append, List.filterMap_cons_none hgives, List.filterMap_nil, List.append_nil]
  exact h instanceName

/-- A node that gives initial parameters gives them to its instance. -/
theorem InstancesSet.concat_some {nodes : List CgraphObject} (h : InstancesSet parse nodes g)
    {node : CgraphObject} {instanceName text : String} {initParameters : Json}
    (hassigned : node.agxget "instance" = some instanceName)
    (htext : node.agxget "initParameters" = some text) (hparse : parse text = .ok initParameters)
    (mGraph : Graph) :
    InstancesSet parse (nodes ++ [node]) { g with
      mGraph
      mInstances := UnorderedMap.put g.mInstances instanceName initParameters } := by
  intro other
  rw [UnorderedMap.lookup_put, List.filterMap_append]
  by_cases hother : other = instanceName
  · have hgives : node.gives parse other = some initParameters :=
      gives_eq_some.2 ⟨hother ▸ hassigned, text, htext, hparse⟩
    rw [if_pos hother, List.filterMap_cons_some hgives, List.filterMap_nil,
      List.getLast?_concat]
  · have hgives : node.gives parse other = none := by
      rw [Option.eq_none_iff_forall_not_mem]
      intro given hmem
      obtain ⟨hsame, -⟩ := gives_eq_some.1 hmem
      exact hother (Option.some.inj (hsame.symm.trans hassigned))
    rw [if_neg hother, List.filterMap_cons_none hgives, List.filterMap_nil, List.append_nil]
    exact h other

/-- An instance that is there has a thread group. -/
theorem InstancesSet.thread {nodes : List CgraphObject} (h : InstancesSet parse nodes g)
    (hinitialized : ∀ object ∈ nodes, object.Initialized parse getDefaultThreadGroup)
    {instanceName : String} (hthere : g.mInstances.lookup instanceName ≠ none) :
    getDefaultThreadGroup = .ok () := by
  obtain ⟨initParameters, hsome⟩ := Option.ne_none_iff_exists'.1 hthere
  rw [h instanceName] at hsome
  obtain ⟨node, hnode, hgives⟩ := List.mem_filterMap.1 (List.mem_of_getLast? hsome)
  obtain ⟨-, text, htext, -⟩ := gives_eq_some.1 hgives
  exact (hinitialized node hnode text htext).2

/-- **The loop over the nodes** makes nodes of new names with an instance, and sets the initial
parameters of the instances. -/
theorem buildNode_round (subgraphs : List CgraphObject) :
    Round (buildNode parse getDefaultThreadGroup)
      (fun done => ((subgraphs ++ done).map CgraphObject.name).Nodup ∧
        (∀ object ∈ done, object.Assigned) ∧
        ∀ object ∈ done, object.Initialized parse getDefaultThreadGroup)
      (fun done g => NodesMade (subgraphs ++ done) g.mGraph ∧ InstancesSet parse done g) where
  initial done rest := by
    rintro ⟨hnodup, hassigned, hinitialized⟩
    rw [← List.append_assoc, List.map_append] at hnodup
    exact ⟨hnodup.of_append_left, fun object h => hassigned object (List.mem_append_left _ h),
      fun object h => hinitialized object (List.mem_append_left _ h)⟩
  passes done object g := by
    rintro ⟨hmade, hinstances⟩ ⟨hnodup, hassigned, hinitialized⟩
    rw [← List.append_assoc] at hnodup ⊢
    obtain ⟨instanceName, hinstance, hne⟩ := hassigned object (by simp)
    obtain ⟨mGraph, hbuild, hmade'⟩ := hmade.buildObject (g := g) hinstance (new_of_nodup hnodup)
    have hget : getNodeStringAttribute object "instance" = .ok instanceName :=
      withContext_ok.2 (getStringAttribute_ok.2 ⟨hinstance, hne⟩)
    rw [buildNode, hget]
    change ∃ b', (buildObject g object instanceName).bind _ = _ ∧ _
    rw [hbuild]
    cases htext : object.agxget "initParameters" with
    | none => exact ⟨_, rfl, hmade', hinstances.concat_none htext mGraph⟩
    | some text =>
      obtain ⟨⟨initParameters, hparse, hobject⟩, hgroup⟩ := hinitialized object (by simp) text htext
      refine ⟨_, ?_, hmade', hinstances.concat_some hinstance htext hparse mGraph⟩
      change (parse text).bind _ = _
      rw [hparse]
      exact setInstanceInitParameters_ok.2 ⟨hobject, fun _ => hgroup, rfl⟩
  stops done object g g' := by
    rintro ⟨hmade, hinstances⟩ ⟨hnodup, hassigned, hinitialized⟩ hok
    obtain ⟨instanceName, hget, hok⟩ := bind_eq_ok.1 hok
    obtain ⟨g₁, hbuild, hok⟩ := bind_eq_ok.1 hok
    rw [← List.append_assoc]
    refine ⟨nodup_concat hnodup (hmade.new_of_buildObject hbuild), forall_mem_concat hassigned
      ⟨instanceName, getStringAttribute_ok.1 (withContext_ok.1 hget)⟩,
      forall_mem_concat hinitialized fun text htext => ?_⟩
    rw [htext] at hok
    obtain ⟨initParameters, hparse, hset⟩ := bind_eq_ok.1 hok
    obtain ⟨hobject, hgroup, -⟩ := setInstanceInitParameters_ok.1 hset
    refine ⟨⟨initParameters, hparse, hobject⟩, ?_⟩
    by_cases hthere : g.mInstances.lookup instanceName = none
    · exact hgroup ((mInstances_of_buildObject hbuild).symm ▸ hthere)
    · exact hinstances.thread hinitialized hthere

/-! ### Edges -/

/-- The calls of `connect` for edges. -/
def connects (edges : List (String × CgraphEdge)) : List BuildCall :=
  edges.map fun edge =>
    .connect edge.1 ((edge.2.agxget "label").getD "") edge.2.toNode .pushDirectlyToTarget

/-- The edges that are made so far, between the nodes. -/
structure EdgesMade (objects : List CgraphObject) (edges : List (String × CgraphEdge))
    (mGraph : Graph) : Prop where
  attributes : ∀ n, mGraph.attributes n =
    (objects.find? fun object => object.name = n).map CgraphObject.attributes
  built : Built (connects edges) mGraph

theorem getNodeOrThrow_ok {mGraph : Graph} {n : String} {node : WiredNode} :
    mGraph.getNodeOrThrow n = .ok node ↔ mGraph.getNode n = some node := by
  rw [getNodeOrThrow, getNode]
  cases mGraph.mNameToNodeMap.lookup n with
  | none => exact iff_of_false (fun h => by cases h) fun h => by cases h
  | some found => exact ⟨fun h => congrArg some (Except.ok.inj h),
      fun h => congrArg Except.ok (Option.some.inj h)⟩

/-- The tests of `connect` pass. -/
theorem checkConnection_ok_iff {mGraph : Graph} {f c t : String} :
    DataGraph.checkConnection mGraph f c t = .ok () ↔
      (f ≠ "" ∧ c ≠ "" ∧ t ≠ "") ∧
      (∃ node, mGraph.getNode f = some node ∧ node.allowsOutgoingConnections = true ∧
        node.instanceName ≠ "") ∧
      ∃ node, mGraph.getNode t = some node ∧ node.allowsIncomingConnections = true ∧
        node.instanceName ≠ "" := by
  rw [DataGraph.checkConnection]
  constructor
  · intro h
    split at h
    · cases h
    split at h
    · cases h
    split at h
    · cases h
    rename_i hf hc ht
    obtain ⟨fromNode, hfrom, h⟩ := bind_eq_ok.1 h
    obtain ⟨toNode, hto, h⟩ := bind_eq_ok.1 h
    split at h
    · cases h
    split at h
    · cases h
    split at h
    · cases h
    split at h
    · cases h
    rename_i houtgoing hincoming hassigned hassigned'
    exact ⟨⟨hf, hc, ht⟩, ⟨fromNode, getNodeOrThrow_ok.1 hfrom, by simpa using houtgoing, hassigned⟩,
      toNode, getNodeOrThrow_ok.1 hto, by simpa using hincoming, hassigned'⟩
  · rintro ⟨⟨hf, hc, ht⟩, ⟨fromNode, hfrom, houtgoing, hassigned⟩, toNode, hto, hincoming,
      hassigned'⟩
    rw [if_neg hf, if_neg hc, if_neg ht]
    refine bind_eq_ok.2 ⟨fromNode, getNodeOrThrow_ok.2 hfrom, bind_eq_ok.2
      ⟨toNode, getNodeOrThrow_ok.2 hto, ?_⟩⟩
    simp [houtgoing, hincoming, hassigned, hassigned', pure, Except.pure]

/-- An object is found by its name. -/
theorem find?_of_nodup {objects : List CgraphObject}
    (hnodup : (objects.map CgraphObject.name).Nodup) {object : CgraphObject} {n : String} :
    objects.find? (fun object => object.name = n) = some object ↔
      object ∈ objects ∧ object.name = n := by
  constructor
  · intro h
    exact ⟨List.mem_of_find?_eq_some h, by simpa using List.find?_some h⟩
  · rintro ⟨hobject, hname⟩
    cases hfind : objects.find? fun object => object.name = n with
    | none => exact absurd (List.find?_eq_none.1 hfind object hobject) (by simpa using hname)
    | some other =>
      have hother : other.name = n := by simpa using List.find?_some hfind
      exact congrArg some (List.inj_on_of_nodup_map hnodup (List.mem_of_find?_eq_some hfind) hobject
        (hother.trans hname.symm))

/-- A node has the attributes of the object it was made from. -/
theorem exists_getNode_iff {objects : List CgraphObject} {mGraph : Graph}
    (hattributes : ∀ n, mGraph.attributes n =
      (objects.find? fun object => object.name = n).map CgraphObject.attributes)
    (hnodup : (objects.map CgraphObject.name).Nodup) (n : String)
    (P : String → Bool → Bool → Prop) :
    (∃ node, mGraph.getNode n = some node ∧
      P node.instanceName node.allowsIncomingConnections node.allowsOutgoingConnections) ↔
    ∃ object ∈ objects, object.name = n ∧ P ((object.agxget "instance").getD "")
      ((getOptionalBoolAttribute object "allowIncoming").getD false)
      ((getOptionalBoolAttribute object "allowOutgoing").getD false) := by
  have hn := hattributes n
  rw [Graph.attributes] at hn
  constructor
  · rintro ⟨node, hnode, hP⟩
    rw [hnode, Option.map_some, eq_comm, Option.map_eq_some_iff] at hn
    obtain ⟨object, hfind, hsame⟩ := hn
    obtain ⟨hobject, hname⟩ := (find?_of_nodup hnodup).1 hfind
    simp only [CgraphObject.attributes, Prod.mk.injEq] at hsame
    obtain ⟨-, hinstance, hincoming, houtgoing⟩ := hsame
    exact ⟨object, hobject, hname, by rwa [hinstance, hincoming, houtgoing]⟩
  · rintro ⟨object, hobject, hname, hP⟩
    rw [(find?_of_nodup hnodup).2 ⟨hobject, hname⟩, Option.map_some, Option.map_eq_some_iff] at hn
    obtain ⟨node, hnode, hsame⟩ := hn
    simp only [CgraphObject.attributes, Prod.mk.injEq] at hsame
    obtain ⟨-, hinstance, hincoming, houtgoing⟩ := hsame
    exact ⟨node, hnode, by rwa [hinstance, hincoming, houtgoing]⟩

/-- The tests of `connect` pass for edges that can be made. -/
theorem EdgesMade.check_iff {objects : List CgraphObject} {edges : List (String × CgraphEdge)}
    {mGraph : Graph} (h : EdgesMade objects edges mGraph)
    (hnodup : (objects.map CgraphObject.name).Nodup)
    (hassigned : ∀ object ∈ objects, object.Assigned) {edge : String × CgraphEdge} :
    (∃ channel, edge.2.agxget "label" = some channel ∧
      DataGraph.checkConnection mGraph edge.1 channel edge.2.toNode = .ok ()) ↔
    Connectable objects edge := by
  have hallows : ∀ b : Option Bool, b.getD false = true ↔ b = some true :=
    fun b => by cases b <;> simp
  have hinstance : ∀ object ∈ objects, (object.agxget "instance").getD "" ≠ "" := by
    intro object hobject
    obtain ⟨instanceName, hinstance, hne⟩ := hassigned object hobject
    rwa [hinstance]
  have hfrom := exists_getNode_iff h.attributes hnodup edge.1 fun instanceName _ outgoing =>
    outgoing = true ∧ instanceName ≠ ""
  have hto := exists_getNode_iff h.attributes hnodup edge.2.toNode fun instanceName incoming _ =>
    incoming = true ∧ instanceName ≠ ""
  constructor
  · rintro ⟨channel, hlabel, hcheck⟩
    obtain ⟨⟨hf, hc, ht⟩, hfromNode, htoNode⟩ := checkConnection_ok_iff.1 hcheck
    obtain ⟨object, hobject, hname, houtgoing, -⟩ := hfrom.1 hfromNode
    obtain ⟨object', hobject', hname', hincoming, -⟩ := hto.1 htoNode
    exact ⟨⟨channel, hlabel, hc⟩, ⟨hf, ht⟩, ⟨object, hobject, hname, (hallows _).1 houtgoing⟩,
      object', hobject', hname', (hallows _).1 hincoming⟩
  · rintro ⟨⟨channel, hlabel, hc⟩, ⟨hf, ht⟩, ⟨object, hobject, hname, houtgoing⟩, object',
      hobject', hname', hincoming⟩
    exact ⟨channel, hlabel, checkConnection_ok_iff.2 ⟨⟨hf, hc, ht⟩,
      hfrom.2 ⟨object, hobject, hname, (hallows _).2 houtgoing, hinstance object hobject⟩,
      hto.2 ⟨object', hobject', hname', (hallows _).2 hincoming, hinstance object' hobject'⟩⟩⟩

/-- **The loop over the edges** makes edges that have a label and whose nodes allow them. -/
theorem buildEdge_round {objects : List CgraphObject}
    (hnodup : (objects.map CgraphObject.name).Nodup)
    (hassigned : ∀ object ∈ objects, object.Assigned) (mInstances : UnorderedMap String Json) :
    Round buildEdge (fun done => ∀ edge ∈ done, Connectable objects edge)
      (fun done g => EdgesMade objects done g.mGraph ∧ g.mInstances = mInstances) where
  initial done rest hall edge hedge := hall edge (List.mem_append_left _ hedge)
  passes done edge g := by
    rintro ⟨hmade, hinstances⟩ hall
    obtain ⟨channel, hlabel, hcheck⟩ := (hmade.check_iff hnodup hassigned).2 (hall edge (by simp))
    obtain ⟨⟨-, hne, -⟩, -⟩ := checkConnection_ok_iff.1 hcheck
    obtain ⟨mGraph, hconnect⟩ := connect_ok .pushDirectlyToTarget hcheck
    have hget : getEdgeStringAttribute edge.1 edge.2 "label" = .ok channel :=
      withContext_ok.2 (getStringAttribute_ok.2 ⟨hlabel, hne⟩)
    have hconnected := connect_spec hconnect
    refine ⟨{ g with mGraph }, ?_, ⟨fun n => ?_, ?_⟩, hinstances⟩
    · rw [buildEdge, hget]
      change (if channel = "" then _ else _) = _
      rw [if_neg hne, hconnect]
      rfl
    · rw [hconnected.attributes, hmade.attributes]
    · have hbuilt := hmade.built.connect hconnected
      rw [connects, List.map_append, List.map_singleton, hlabel]
      exact hbuilt
  stops done edge g g' := by
    rintro ⟨hmade, -⟩ hall hok
    obtain ⟨channel, hget, hok⟩ := bind_eq_ok.1 hok
    obtain ⟨hlabel, hne⟩ := getStringAttribute_ok.1 (withContext_ok.1 hget)
    rw [if_neg hne] at hok
    obtain ⟨mGraph, hconnect, -⟩ := bind_eq_ok.1 hok
    exact forall_mem_concat hall
      ((hmade.check_iff hnodup hassigned).1 ⟨channel, hlabel, check_of_connect hconnect⟩)

/-! ### The whole text -/

theorem mem_connects {edges : List (String × CgraphEdge)} {f c t : String}
    {type : PacketDeliveryType} :
    .connect f c t type ∈ connects edges ↔ type = .pushDirectlyToTarget ∧ ∃ edge ∈ edges,
      edge.1 = f ∧ (edge.2.agxget "label").getD "" = c ∧ edge.2.toNode = t := by
  rw [connects, List.mem_map]
  constructor
  · rintro ⟨edge, hedge, heq⟩
    cases heq
    exact ⟨rfl, edge, hedge, rfl, rfl, rfl⟩
  · rintro ⟨rfl, edge, hedge, rfl, rfl, rfl⟩
    exact ⟨edge, hedge, rfl⟩

/-- What has been built is what is described. -/
theorem EdgesMade.describes (h : EdgesMade D.objects D.edges g.mGraph)
    (hconnectable : ∀ edge ∈ D.edges, Connectable D.objects edge)
    (hinstances : InstancesSet parse (D.nodes.map Prod.fst) g) : D.Describes parse g where
  nodes := h.attributes
  edges f c t := by
    have hlabel : ∀ edge ∈ D.edges, (edge.2.agxget "label").getD "" = c ↔
        edge.2.agxget "label" = some c := by
      intro edge hedge
      obtain ⟨channel, hlabel, -⟩ := (hconnectable edge hedge).labelled
      rw [hlabel, Option.getD_some, Option.some.injEq]
    rw [h.built.hasEdge]
    constructor
    · rintro ⟨type, hcall⟩
      obtain ⟨-, edge, hedge, hf, hc, ht⟩ := mem_connects.1 hcall
      exact ⟨edge, hedge, hf, (hlabel edge hedge).1 hc, ht⟩
    · rintro ⟨edge, hedge, hf, hc, ht⟩
      exact ⟨_, mem_connects.2 ⟨rfl, edge, hedge, hf, (hlabel edge hedge).2 hc, ht⟩⟩
  once := h.built.shape.once
  directly f c e he := by
    have hlast := ((h.built.edges f c e).1 he).2
    obtain ⟨call, hcall, hgiven⟩ := List.mem_filterMap.1 (List.mem_of_getLast? hlast)
    exact (mem_connects.1 (typeGiven_eq_some.1 hgiven ▸ hcall)).1
  mirrored := h.built.mirrored
  instances := hinstances

/-- A data graph is returned if the three loops end. -/
theorem buildDataGraph_eq_ok (parse : String → Code Json) (getDefaultThreadGroup : Code Unit)
    {agmemread : String → Option Cgraph} {dotGraphString : String}
    (hread : agmemread dotGraphString = some D) (agErrors : String) :
    buildDataGraph parse getDefaultThreadGroup agmemread agErrors dotGraphString = .ok g ↔
      ∃ g₁, D.subgraphs.foldlM buildSubgraph {} = .ok g₁ ∧
      ∃ g₂, (D.nodes.map Prod.fst).foldlM (buildNode parse getDefaultThreadGroup) g₁ = .ok g₂ ∧
        D.edges.foldlM buildEdge g₂ = .ok g := by
  have hedges : ∀ g₂, D.nodes.foldlM (fun g fromNode =>
      fromNode.2.foldlM (fun g edge => buildEdge g (fromNode.1.name, edge)) g) g₂ =
        D.edges.foldlM buildEdge g₂ := by
    intro g₂
    rw [Cgraph.edges, ← foldlM_flatMap]
    simp only [List.foldlM_map]
  rw [buildDataGraph, hread]
  simp only [hedges, List.foldlM_map]
  exact bind_eq_ok.trans (exists_congr fun g₁ => and_congr_right fun _ => bind_eq_ok)

theorem nodesMade_nil : NodesMade [] {} := ⟨fun _ => rfl, built_of_run (.nil _)⟩

/-- The nodes of the subgraphs are made. -/
theorem subgraphs_loop (subgraphs : List CgraphObject) :
    ((∃ g, subgraphs.foldlM buildSubgraph {} = .ok g) ↔
      (subgraphs.map CgraphObject.name).Nodup ∧ ∀ object ∈ subgraphs, object.Assigned) ∧
    ∀ g, subgraphs.foldlM buildSubgraph {} = .ok g →
      NodesMade subgraphs g.mGraph ∧ g.mInstances = ∅ :=
  foldlM_ok buildSubgraph_round [] subgraphs ⟨nodesMade_nil, rfl⟩
    ⟨by exact List.nodup_nil, fun _ h => absurd h List.not_mem_nil⟩

/-- The nodes are made after those of the subgraphs. -/
theorem nodes_loop (parse : String → Code Json) (getDefaultThreadGroup : Code Unit)
    {subgraphs : List CgraphObject} (nodes : List CgraphObject)
    (hmade : NodesMade subgraphs g.mGraph)
    (hempty : g.mInstances = ∅) (hnodup : (subgraphs.map CgraphObject.name).Nodup) :
    ((∃ g', nodes.foldlM (buildNode parse getDefaultThreadGroup) g = .ok g') ↔
      ((subgraphs ++ nodes).map CgraphObject.name).Nodup ∧ (∀ object ∈ nodes, object.Assigned) ∧
        ∀ object ∈ nodes, object.Initialized parse getDefaultThreadGroup) ∧
    ∀ g', nodes.foldlM (buildNode parse getDefaultThreadGroup) g = .ok g' →
      NodesMade (subgraphs ++ nodes) g'.mGraph ∧ InstancesSet parse nodes g' := by
  have hinstances : InstancesSet parse [] g := fun instanceName => by rw [hempty]; rfl
  refine foldlM_ok (buildNode_round subgraphs) [] nodes ⟨?_, hinstances⟩
    ⟨?_, fun _ h => absurd h List.not_mem_nil, fun _ h => absurd h List.not_mem_nil⟩
  · rwa [List.append_nil]
  · rwa [List.append_nil]

/-- The edges are made between the nodes. -/
theorem edges_loop {objects : List CgraphObject} (edges : List (String × CgraphEdge))
    (hmade : NodesMade objects g.mGraph) (hnodup : (objects.map CgraphObject.name).Nodup)
    (hassigned : ∀ object ∈ objects, object.Assigned) :
    ((∃ g', edges.foldlM buildEdge g = .ok g') ↔ ∀ edge ∈ edges, Connectable objects edge) ∧
    ∀ g', edges.foldlM buildEdge g = .ok g' →
      EdgesMade objects edges g'.mGraph ∧ g'.mInstances = g.mInstances :=
  foldlM_ok (buildEdge_round hnodup hassigned g.mInstances) [] edges
    ⟨⟨hmade.attributes, hmade.built⟩, rfl⟩ fun _ h => absurd h List.not_mem_nil

/-- **A data graph is built** from a text that cgraph reads exactly if everything in it fits, and it
is the one that the text describes. -/
theorem buildDataGraph_ok {agmemread : String → Option Cgraph} {dotGraphString : String}
    (hread : agmemread dotGraphString = some D) (agErrors : String) :
    ((∃ g, buildDataGraph parse getDefaultThreadGroup agmemread agErrors dotGraphString = .ok g) ↔
      D.Buildable parse getDefaultThreadGroup) ∧
    ∀ g, buildDataGraph parse getDefaultThreadGroup agmemread agErrors dotGraphString = .ok g →
      D.Describes parse g := by
  have heq := fun g => buildDataGraph_eq_ok (g := g) parse getDefaultThreadGroup hread agErrors
  obtain ⟨hends₁, hmade₁⟩ := subgraphs_loop D.subgraphs
  -- a graph that is returned has come through the three loops
  have hreturned : ∀ g, buildDataGraph parse getDefaultThreadGroup agmemread agErrors
      dotGraphString = .ok g → D.Buildable parse getDefaultThreadGroup ∧ D.Describes parse g := by
    intro g hg
    obtain ⟨g₁, h₁, g₂, h₂, h₃⟩ := (heq g).1 hg
    obtain ⟨hnodup₁, hassigned₁⟩ := hends₁.1 ⟨g₁, h₁⟩
    obtain ⟨hnodes₁, hempty⟩ := hmade₁ g₁ h₁
    obtain ⟨hends₂, hmade₂⟩ := nodes_loop parse getDefaultThreadGroup (D.nodes.map Prod.fst)
      hnodes₁ hempty hnodup₁
    obtain ⟨hnodup, hassigned₂, hinitialized⟩ := hends₂.1 ⟨g₂, h₂⟩
    obtain ⟨hnodes₂, hinstances⟩ := hmade₂ g₂ h₂
    have hassigned : ∀ object ∈ D.objects, object.Assigned := fun object h =>
      (List.mem_append.1 h).elim (hassigned₁ object) (hassigned₂ object)
    obtain ⟨hends₃, hmade₃⟩ := edges_loop D.edges hnodes₂ hnodup hassigned
    have hconnectable := hends₃.1 ⟨g, h₃⟩
    obtain ⟨hedges, hsame⟩ := hmade₃ g h₃
    exact ⟨⟨hnodup, hassigned, fun node h => hinitialized _ (List.mem_map_of_mem h), hconnectable⟩,
      hedges.describes hconnectable fun instanceName => by rw [hsame, hinstances]⟩
  refine ⟨⟨fun ⟨g, hg⟩ => (hreturned g hg).1, fun h => ?_⟩, fun g hg => (hreturned g hg).2⟩
  have hnodup₁ : (D.subgraphs.map CgraphObject.name).Nodup := by
    have hnodup := h.named
    rw [Cgraph.objects, List.map_append] at hnodup
    exact hnodup.of_append_left
  obtain ⟨g₁, h₁⟩ := hends₁.2 ⟨hnodup₁, fun object hobject =>
    h.assigned object (List.mem_append_left _ hobject)⟩
  obtain ⟨hnodes₁, hempty⟩ := hmade₁ g₁ h₁
  obtain ⟨hends₂, hmade₂⟩ := nodes_loop parse getDefaultThreadGroup (D.nodes.map Prod.fst)
    hnodes₁ hempty hnodup₁
  obtain ⟨g₂, h₂⟩ := hends₂.2 ⟨h.named, fun object hobject =>
    h.assigned object (List.mem_append_right _ hobject), List.forall_mem_map.2 h.initialized⟩
  obtain ⟨hnodes₂, -⟩ := hmade₂ g₂ h₂
  obtain ⟨g, h₃⟩ := (edges_loop D.edges hnodes₂ h.named h.assigned).1.2 h.connectable
  exact ⟨g, (heq g).2 ⟨g₁, h₁, g₂, h₂, h₃⟩⟩

/-- What cgraph reads of two nodes, `A` with the instance `a` and `B` with `b`, and an edge from `A`
to `B` with the label `out`. -/
def pairRead : Cgraph where
  subgraphs := []
  nodes :=
    [(⟨"A", ([("instance", "a"), ("allowIncoming", ""), ("allowOutgoing", "true")].lookup ·)⟩,
        [⟨⟨"", ([("label", "out")].lookup ·)⟩, "B"⟩]),
      (⟨"B", ([("instance", "b"), ("allowIncoming", "true"), ("allowOutgoing", "")].lookup ·)⟩, [])]

theorem buildDataGraph_ok_pairRead : ∃ g,
    buildDataGraph (fun _ => .ok .null) (.ok ()) (fun _ => some pairRead) "" "" = .ok g ∧
      pairRead.Describes (fun _ => .ok .null) g := by
  have hbuilt : ∃ g, buildDataGraph (fun _ => .ok .null) (.ok ()) (fun _ => some pairRead) "" "" =
      .ok g := ⟨_, rfl⟩
  obtain ⟨g, hg⟩ := hbuilt
  exact ⟨g, hg, (buildDataGraph_ok rfl "").2 g hg⟩

/-- One node with initial parameters asks all nodes for them: where the attribute is not set it is
the empty text, which is no JSON. -/
theorem not_buildable_of_unset {node : CgraphObject × List CgraphEdge} (hnode : node ∈ D.nodes)
    (hunset : node.1.agxget "initParameters" = some "") {fault : Fault}
    (hparse : parse "" = .error fault) : ¬ D.Buildable parse getDefaultThreadGroup := by
  intro h
  obtain ⟨⟨initParameters, hok, -⟩, -⟩ := h.initialized node hnode "" hunset
  cases hparse.symm.trans hok

end Maplang
