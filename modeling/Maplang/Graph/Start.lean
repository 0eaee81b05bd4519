import Maplang.Graph.Wiring

/-!
# Starting a graph

`DataGraph::startGraph` visits the nodes, in the order of the map they are in, tests that the
instance of each node has a fitting implementation, and gives the packet pusher of the node to the
instance.  An instance takes one pusher only.  That is right for a source, which pushes through it;
it is also so for an instance that several paths lead through, which needs none.

## Main definitions

* `StartedInstance`, `StartState` : what starting a graph reads and changes.
* `DataGraph.startGraph` : the code.
* `ValidGraph` : the graphs that should be started.
* `StartsExactly` : they are the ones that are, and each source has the pusher of its node.
* `NoSharedInstance` : no two nodes name the same instance.

## Main results

* `startGraph_ok_iff` : the graphs that are started.
* `not_startsExactly_shared` : a pathable instance in two paths.
* `startsExactly_iff` : when the graphs that are started are those that should be.
-/

namespace Maplang

/-- An implementation, seen through `asSource()` and `asPathable()`. -/
structure SourceImplementation extends Implementation where
  isSource : Bool
  /-- Tells implementations apart. -/
  object : ℕ
  deriving DecidableEq, Repr

/-- `class Instance`, with what starting a graph reads and changes.  A pusher is known by the name
of the node `createNode` made it for. -/
structure StartedInstance where
  mImplementation : Option SourceImplementation
  mTypeName : String
  mPacketPusherForISources : Option String
  deriving DecidableEq, Repr

/-- What starting a graph changes. -/
structure StartState where
  mInstances : UnorderedMap String StartedInstance
  /-- The calls of `ISource::setPacketPusher`. -/
  given : List (SourceImplementation × String) := []

/-- `Instance::setPacketPusherForISources`, with the call of `setPacketPusher` it makes. -/
def StartedInstance.setPacketPusherForISources (inst : StartedInstance)
    (packetPusher : Option String) :
    Code (StartedInstance × List (SourceImplementation × String)) :=
  let currentPacketPusher := inst.mPacketPusherForISources
  if currentPacketPusher ≠ none ∧ currentPacketPusher ≠ packetPusher ∧ packetPusher ≠ none then
    throwRuntimeError ("Setting multiple packet pushers for an ISource is not supported. An "
      ++ "Instance with an ISource implementation is probably referenced in "
      ++ "more than one GraphNode.")
  else
    let inst := { inst with mPacketPusherForISources := packetPusher }
    match inst.mImplementation, packetPusher with
    | some implementation, some pusher =>
      .ok (inst, if implementation.isSource then [(implementation, pusher)] else [])
    | _, _ => .ok (inst, [])

namespace DataGraph

/-- `DataGraphImpl::getInstanceForGraphNode`. -/
def getInstanceForGraphNode (mInstances : UnorderedMap String StartedInstance)
    (node : GraphNode) : Code StartedInstance :=
  if node.instanceName = "" then
    throwRuntimeError ("No instance assigned to GraphNode '" ++ node.name ++ "'.")
  else match mInstances.lookup node.instanceName with
    | none => throwRuntimeError ("Instance '" ++ node.instanceName
        ++ "' does not exist. Needed by GraphNode '" ++ node.name ++ "'.")
    | some inst => .ok inst

/-- The visitor of `startGraph`. -/
def startNode (s : StartState) (packetPusher : String) (node : WiredNode) : Code StartState := do
  let inst ← getInstanceForGraphNode s.mInstances node.toGraphNode
  match inst.mImplementation with
  | none =>
    throwRuntimeError ("Instance '" ++ node.instanceName
      ++ "' was not implemented. Referenced by node '" ++ node.name ++ "'.")
  | some implementation =>
    if node.allowsIncomingConnections && !implementation.isPathable then
      throwRuntimeError ("Graph node '" ++ node.name ++ "' requires inputs, but instance's '"
        ++ node.instanceName ++ "' type '" ++ inst.mTypeName ++ "' is not an IPathable.")
    else if node.allowsOutgoingConnections && !implementation.isSource
        && !implementation.isPathable then
      throwRuntimeError ("Graph node '" ++ node.name ++ "' requires outputs, but instance's '"
        ++ node.instanceName ++ "' type '" ++ inst.mTypeName
        ++ "' is not an ISource or an IPathable.")
    else
      let (inst, calls) ← inst.setPacketPusherForISources (some packetPusher)
      return { mInstances := UnorderedMap.put s.mInstances node.instanceName inst
               given := s.given ++ calls }

/-- The loop of `visitNodes`. -/
def startNodes (s : StartState) (nodes : List (Sigma fun _ : String => WiredNode)) :
    Code StartState :=
  nodes.foldlM (fun s entry => startNode s entry.1 entry.2) s

/-- `DataGraph::startGraph`. -/
def startGraph (mGraph : Graph) (s : StartState) : Code StartState :=
  startNodes s mGraph.mNameToNodeMap.entries

end DataGraph

/-- The implementation an instance has. -/
def StartState.implementationOf (s : StartState) (inst : String) : Option SourceImplementation :=
  (s.mInstances.lookup inst).bind StartedInstance.mImplementation

/-- The pusher an instance has. -/
def StartState.pusherOf (s : StartState) (inst : String) : Option String :=
  (s.mInstances.lookup inst).bind StartedInstance.mPacketPusherForISources

/-- What `startGraph` asks of a node. -/
structure FittingNode (implementationOf : String → Option SourceImplementation) (node : WiredNode) :
    Prop where
  assigned : node.instanceName ≠ ""
  implemented : (implementationOf node.instanceName).isSome = true
  incoming : node.allowsIncomingConnections = true →
    ∀ implementation, implementationOf node.instanceName = some implementation →
      implementation.isPathable = true
  outgoing : node.allowsOutgoingConnections = true →
    ∀ implementation, implementationOf node.instanceName = some implementation →
      implementation.isSource = true ∨ implementation.isPathable = true

/-- The graphs that should be started. -/
structure ValidGraph (mGraph : Graph) (s : StartState) : Prop where
  fitting : ∀ n node, mGraph.getNode n = some node → FittingNode s.implementationOf node
  /-- An instance that is a source is the instance of one node. -/
  source : ∀ n node n' node' implementation, mGraph.getNode n = some node →
    mGraph.getNode n' = some node' → node.instanceName = node'.instanceName →
    s.implementationOf node.instanceName = some implementation →
    implementation.isSource = true → n = n'

/-- The valid graphs are started, and only they; and each source is then given the pusher of the
node that names its instance. -/
def StartsExactly (mGraph : Graph) (s : StartState) : Prop :=
  ((∃ s', DataGraph.startGraph mGraph s = .ok s') ↔ ValidGraph mGraph s) ∧
  ∀ s', DataGraph.startGraph mGraph s = .ok s' →
    ∀ n node implementation, mGraph.getNode n = some node →
      s.implementationOf node.instanceName = some implementation →
      implementation.isSource = true → (implementation, n) ∈ s'.given

/-- No two nodes name the same instance. -/
def NoSharedInstance (mGraph : Graph) : Prop :=
  ∀ n node n' node', mGraph.getNode n = some node → mGraph.getNode n' = some node' →
    node.instanceName = node'.instanceName → n = n'

/-- The graph has not been started: no instance has a pusher. -/
def StartState.Fresh (s : StartState) : Prop := ∀ inst, s.pusherOf inst = none

open DataGraph

variable {s s' : StartState} {n : String} {node : WiredNode}

/-! ### One node -/

/-- What starting a node does. -/
structure NodeStarted (s s' : StartState) (n : String) (node : WiredNode) : Prop where
  fitting : FittingNode s.implementationOf node
  unclaimed : s.pusherOf node.instanceName = none ∨ s.pusherOf node.instanceName = some n
  implementationOf : s'.implementationOf = s.implementationOf
  pusherOf : s'.pusherOf = Function.update s.pusherOf node.instanceName (some n)
  grows : s.given <+: s'.given
  given : ∀ implementation, s.implementationOf node.instanceName = some implementation →
    implementation.isSource = true → (implementation, n) ∈ s'.given

/-- The state after a node is started. -/
def startedState (s : StartState) (n : String) (node : WiredNode) (inst : StartedInstance)
    (implementation : SourceImplementation) : StartState where
  mInstances := UnorderedMap.put s.mInstances node.instanceName
    { inst with mPacketPusherForISources := some n }
  given := s.given ++ if implementation.isSource then [(implementation, n)] else []

/-- The instance that a fitting node names, and its implementation. -/
structure Names (s : StartState) (node : WiredNode) (inst : StartedInstance)
    (implementation : SourceImplementation) : Prop where
  assigned : node.instanceName ≠ ""
  instance_ : s.mInstances.lookup node.instanceName = some inst
  implemented : inst.mImplementation = some implementation
  incoming : (node.allowsIncomingConnections && !implementation.isPathable) = false
  outgoing : (node.allowsOutgoingConnections && !implementation.isSource
    && !implementation.isPathable) = false

theorem Names.implementationOf {inst : StartedInstance} {implementation : SourceImplementation}
    (h : Names s node inst implementation) :
    s.implementationOf node.instanceName = some implementation := by
  rw [StartState.implementationOf, h.instance_, Option.bind_some, h.implemented]

theorem Names.pusherOf {inst : StartedInstance} {implementation : SourceImplementation}
    (h : Names s node inst implementation) :
    s.pusherOf node.instanceName = inst.mPacketPusherForISources := by
  rw [StartState.pusherOf, h.instance_, Option.bind_some]

theorem Names.fitting {inst : StartedInstance} {implementation : SourceImplementation}
    (h : Names s node inst implementation) : FittingNode s.implementationOf node where
  assigned := h.assigned
  implemented := Option.isSome_of_eq_some h.implementationOf
  incoming hincoming implementation' h' := by
    obtain rfl : implementation = implementation' :=
      Option.some.inj (h.implementationOf.symm.trans h')
    simpa [hincoming] using h.incoming
  outgoing houtgoing implementation' h' := by
    obtain rfl : implementation = implementation' :=
      Option.some.inj (h.implementationOf.symm.trans h')
    have hkind := h.outgoing
    rw [houtgoing, Bool.true_and] at hkind
    cases hsource : implementation.isSource <;> simp_all

theorem FittingNode.names (h : FittingNode s.implementationOf node) :
    ∃ inst implementation, Names s node inst implementation := by
  obtain ⟨implementation, himplementation⟩ := Option.isSome_iff_exists.1 h.implemented
  obtain ⟨inst, hinst, himplemented⟩ := Option.bind_eq_some_iff.1 himplementation
  refine ⟨inst, implementation, h.assigned, hinst, himplemented, ?_, ?_⟩
  · cases hincoming : node.allowsIncomingConnections with
    | false => rfl
    | true => simp [h.incoming hincoming implementation himplementation]
  · cases houtgoing : node.allowsOutgoingConnections with
    | false => rfl
    | true => rcases h.outgoing houtgoing implementation himplementation with hk | hk <;> simp [hk]

theorem setPacketPusher_ok {inst : StartedInstance} {implementation : SourceImplementation}
    (himplemented : inst.mImplementation = some implementation)
    (hunclaimed : inst.mPacketPusherForISources = none ∨ inst.mPacketPusherForISources = some n) :
    inst.setPacketPusherForISources (some n) =
      .ok ({ inst with mPacketPusherForISources := some n },
        if implementation.isSource then [(implementation, n)] else []) := by
  rcases hunclaimed with h | h <;>
    simp [StartedInstance.setPacketPusherForISources, h, himplemented]

theorem setPacketPusher_claimed {inst : StartedInstance}
    (hclaimed : ¬ (inst.mPacketPusherForISources = none ∨ inst.mPacketPusherForISources = some n)) :
    ∃ fault, inst.setPacketPusherForISources (some n) = .error fault := by
  rw [not_or] at hclaimed
  simp [StartedInstance.setPacketPusherForISources, hclaimed, throwRuntimeError]

/-- A node is started if it fits and its instance has no pusher of another node. -/
theorem startNode_names {inst : StartedInstance} {implementation : SourceImplementation}
    (h : Names s node inst implementation)
    (hunclaimed : s.pusherOf node.instanceName = none ∨ s.pusherOf node.instanceName = some n) :
    startNode s n node = .ok (startedState s n node inst implementation) := by
  rw [h.pusherOf] at hunclaimed
  simp [startNode, DataGraph.getInstanceForGraphNode, h.assigned, h.instance_, h.implemented,
    h.incoming, h.outgoing, setPacketPusher_ok h.implemented hunclaimed, bind, Except.bind, pure,
    Except.pure, startedState]

/-- What a node that is started names. -/
theorem names_of_startNode (h : startNode s n node = .ok s') :
    ∃ inst implementation, Names s node inst implementation ∧
      (s.pusherOf node.instanceName = none ∨ s.pusherOf node.instanceName = some n) := by
  unfold startNode DataGraph.getInstanceForGraphNode at h
  by_cases hassigned : node.instanceName = ""
  · simp [hassigned, throwRuntimeError, bind, Except.bind] at h
  rw [if_neg hassigned] at h
  cases hinst : s.mInstances.lookup node.instanceName with
  | none => simp [hinst, throwRuntimeError, bind, Except.bind] at h
  | some inst =>
    cases himplemented : inst.mImplementation with
    | none => simp [hinst, himplemented, throwRuntimeError, bind, Except.bind] at h
    | some implementation =>
      simp only [hinst, himplemented, bind, Except.bind] at h
      split at h
      · cases h
      split at h
      · cases h
      rename_i hincoming houtgoing
      have hnames : Names s node inst implementation :=
        ⟨hassigned, hinst, himplemented, by simpa using hincoming, by simpa using houtgoing⟩
      refine ⟨inst, implementation, hnames, ?_⟩
      by_contra hclaimed
      rw [hnames.pusherOf] at hclaimed
      obtain ⟨fault, hfault⟩ := setPacketPusher_claimed hclaimed
      simp [hfault] at h

theorem startNode_spec (h : startNode s n node = .ok s') : NodeStarted s s' n node := by
  obtain ⟨inst, implementation, hnames, hunclaimed⟩ := names_of_startNode h
  rw [startNode_names hnames hunclaimed, Except.ok.injEq] at h
  subst h
  constructor
  case fitting => exact hnames.fitting
  case unclaimed => exact hunclaimed
  case implementationOf =>
    funext i
    by_cases hi : i = node.instanceName
    · subst hi
      rw [hnames.implementationOf]
      simp [startedState, StartState.implementationOf, hnames.implemented]
    · simp [startedState, StartState.implementationOf, hi]
  case pusherOf =>
    funext i
    by_cases hi : i = node.instanceName
    · subst hi
      simp [startedState, StartState.pusherOf]
    · simp [startedState, StartState.pusherOf, hi]
  case grows => exact List.prefix_append _ _
  case given =>
    intro implementation' h' hsource
    obtain rfl : implementation = implementation' :=
      Option.some.inj (hnames.implementationOf.symm.trans h')
    simp [startedState, hsource]

theorem startNode_ok (hfitting : FittingNode s.implementationOf node)
    (hunclaimed : s.pusherOf node.instanceName = none ∨ s.pusherOf node.instanceName = some n) :
    ∃ s', startNode s n node = .ok s' := by
  obtain ⟨inst, implementation, hnames⟩ := hfitting.names
  exact ⟨_, startNode_names hnames hunclaimed⟩

/-! ### All nodes -/

/-- What starting nodes one after the other does. -/
structure NodesStarted (s s' : StartState) (nodes : List (Sigma fun _ : String => WiredNode)) :
    Prop where
  fitting : ∀ entry ∈ nodes, FittingNode s.implementationOf entry.2
  unclaimed : ∀ entry ∈ nodes, s.pusherOf entry.2.instanceName = none ∨
    s.pusherOf entry.2.instanceName = some entry.1
  distinct : nodes.Pairwise fun a b => a.2.instanceName ≠ b.2.instanceName
  grows : s.given <+: s'.given
  given : ∀ entry ∈ nodes, ∀ implementation,
    s.implementationOf entry.2.instanceName = some implementation →
    implementation.isSource = true → (implementation, entry.1) ∈ s'.given

theorem startNodes_spec {nodes : List (Sigma fun _ : String => WiredNode)}
    (hkeys : nodes.NodupKeys) (h : startNodes s nodes = .ok s') : NodesStarted s s' nodes := by
  induction nodes generalizing s with
  | nil =>
    obtain rfl : s = s' := Except.ok.inj h
    exact ⟨by simp, by simp, .nil, List.prefix_rfl, by simp⟩
  | cons entry nodes ih =>
    obtain ⟨n, node⟩ := entry
    obtain ⟨hkey, hrest⟩ : n ∉ nodes.keys ∧ nodes.NodupKeys := List.nodupKeys_cons.1 hkeys
    rw [startNodes, List.foldlM_cons] at h
    obtain ⟨s₁, hstart, h⟩ := bind_eq_ok.1 h
    have hone := startNode_spec hstart
    have hall := ih hrest (show startNodes s₁ nodes = .ok s' from h)
    -- the instance now has the pusher of this node, which no later node can replace
    have hother : ∀ entry ∈ nodes, entry.2.instanceName ≠ node.instanceName := by
      intro entry hentry heq
      have hpusher := hall.unclaimed entry hentry
      rw [hone.pusherOf, heq, Function.update_self] at hpusher
      have hname : n = entry.1 := by simpa using hpusher
      exact hkey (hname ▸ List.mem_keys_of_mem hentry)
    constructor
    case fitting =>
      rw [List.forall_mem_cons]
      exact ⟨hone.fitting, hone.implementationOf ▸ hall.fitting⟩
    case unclaimed =>
      rw [List.forall_mem_cons]
      refine ⟨hone.unclaimed, fun entry hentry => ?_⟩
      have hpusher := hall.unclaimed entry hentry
      rwa [hone.pusherOf, Function.update_of_ne (hother entry hentry)] at hpusher
    case distinct =>
      exact List.pairwise_cons.2 ⟨fun entry hentry => (hother entry hentry).symm, hall.distinct⟩
    case grows => exact hone.grows.trans hall.grows
    case given =>
      rw [List.forall_mem_cons]
      refine ⟨fun implementation h' hsource => hall.grows.subset (hone.given _ h' hsource), ?_⟩
      exact hone.implementationOf ▸ hall.given

theorem startNodes_ok {nodes : List (Sigma fun _ : String => WiredNode)}
    (hfitting : ∀ entry ∈ nodes, FittingNode s.implementationOf entry.2)
    (hunclaimed : ∀ entry ∈ nodes, s.pusherOf entry.2.instanceName = none)
    (hdistinct : nodes.Pairwise fun a b => a.2.instanceName ≠ b.2.instanceName) :
    ∃ s', startNodes s nodes = .ok s' := by
  induction nodes generalizing s with
  | nil => exact ⟨s, rfl⟩
  | cons entry nodes ih =>
    obtain ⟨hfirst, hfitting⟩ := List.forall_mem_cons.1 hfitting
    obtain ⟨hfirst', hunclaimed⟩ := List.forall_mem_cons.1 hunclaimed
    obtain ⟨hother, hdistinct⟩ := List.pairwise_cons.1 hdistinct
    obtain ⟨s₁, hstart⟩ := startNode_ok (n := entry.1) hfirst (.inl hfirst')
    have hone := startNode_spec hstart
    obtain ⟨s', hs'⟩ := ih (s := s₁) (hone.implementationOf ▸ hfitting)
      (fun entry' hentry' => by
        rw [hone.pusherOf, Function.update_of_ne (hother entry' hentry').symm]
        exact hunclaimed entry' hentry') hdistinct
    refine ⟨s', ?_⟩
    rw [startNodes, List.foldlM_cons, hstart]
    exact hs'

/-! ### The graph -/

theorem mem_entries {mGraph : Graph} :
    ⟨n, node⟩ ∈ mGraph.mNameToNodeMap.entries ↔ mGraph.getNode n = some node :=
  List.mem_dlookup_iff mGraph.mNameToNodeMap.nodupKeys |>.symm

/-- Entries with different keys name different instances if no two nodes share one. -/
theorem pairwise_iff_noSharedInstance {mGraph : Graph} :
    (mGraph.mNameToNodeMap.entries.Pairwise fun a b => a.2.instanceName ≠ b.2.instanceName) ↔
      NoSharedInstance mGraph := by
  have hkeys := List.nodupKeys_iff_pairwise.1 mGraph.mNameToNodeMap.nodupKeys
  constructor
  · intro hpairwise n node n' node' hn hn' hsame
    rw [← mem_entries] at hn hn'
    have himp := hpairwise.imp fun {a b} h (heq : a.2.instanceName = b.2.instanceName) =>
      show a.1 = b.1 from absurd heq h
    have hflip := hpairwise.imp fun {a b} h (heq : b.2.instanceName = a.2.instanceName) =>
      show b.1 = a.1 from absurd heq.symm h
    exact List.Pairwise.forall_of_forall_of_flip (fun _ _ _ => rfl) himp hflip hn hn' hsame
  · intro hnone
    refine hkeys.imp_of_mem fun ha hb hne hsame => hne ?_
    exact hnone _ _ _ _ (mem_entries.1 ha) (mem_entries.1 hb) hsame

/-- **The graphs that are started**, in whatever order the nodes are visited. -/
theorem startGraph_ok_iff {mGraph : Graph} (hfresh : s.Fresh) :
    (∃ s', startGraph mGraph s = .ok s') ↔
      (∀ n node, mGraph.getNode n = some node → FittingNode s.implementationOf node) ∧
        NoSharedInstance mGraph := by
  constructor
  · rintro ⟨s', hs'⟩
    have hstarted := startNodes_spec mGraph.mNameToNodeMap.nodupKeys hs'
    exact ⟨fun n node hn => hstarted.fitting ⟨n, node⟩ (mem_entries.2 hn),
      pairwise_iff_noSharedInstance.1 hstarted.distinct⟩
  · rintro ⟨hfitting, hnone⟩
    exact startNodes_ok (fun entry hentry => hfitting entry.1 entry.2 (mem_entries.1 hentry))
      (fun entry _ => hfresh _) (pairwise_iff_noSharedInstance.2 hnone)

/-- A source is given the pusher of its node. -/
theorem given_of_startGraph {mGraph : Graph} (h : startGraph mGraph s = .ok s')
    {implementation : SourceImplementation} (hn : mGraph.getNode n = some node)
    (himplementation : s.implementationOf node.instanceName = some implementation)
    (hsource : implementation.isSource = true) : (implementation, n) ∈ s'.given :=
  (startNodes_spec mGraph.mNameToNodeMap.nodupKeys h).given ⟨n, node⟩ (mem_entries.2 hn)
    implementation himplementation hsource

theorem validGraph_iff {mGraph : Graph} (hnone : NoSharedInstance mGraph) :
    ValidGraph mGraph s ↔
      ∀ n node, mGraph.getNode n = some node → FittingNode s.implementationOf node :=
  ⟨ValidGraph.fitting, fun h => ⟨h, fun _ _ _ _ _ hn hn' hsame _ _ => hnone _ _ _ _ hn hn' hsame⟩⟩

/-! ### An instance in two paths -/

/-- A node in a path, with this instance. -/
def pathNode (name instanceName : String) : WiredNode where
  name := name
  instanceName := instanceName
  allowsIncomingConnections := true
  allowsOutgoingConnections := true

/-- `a` and `b` name the same instance. -/
def sharedGraph : Graph where
  mNameToNodeMap := (∅ : UnorderedMap String WiredNode)
    |>.insert "b" (pathNode "b" "p")
    |>.insert "a" (pathNode "a" "p")

/-- The instances, before the graph is started.  `p` is pathable and not a source. -/
def sharedInstances : StartState where
  mInstances := (∅ : UnorderedMap String StartedInstance)
    |>.insert "p"
      ⟨some { isPathable := true, isSource := false, object := 0 }, "Pass-through", none⟩

theorem fresh_of_entries
    (h : ∀ entry ∈ s.mInstances.entries, entry.2.mPacketPusherForISources = none) : s.Fresh := by
  intro inst
  rw [StartState.pusherOf, Option.bind_eq_none_iff]
  exact fun instance_ hinst => h ⟨inst, instance_⟩ (List.of_mem_dlookup hinst)

theorem sharedInstances_fresh : sharedInstances.Fresh := fresh_of_entries (by decide)

theorem sharedInstances_fitting (name : String) :
    FittingNode sharedInstances.implementationOf (pathNode name "p") where
  assigned := by simp [pathNode]
  implemented := rfl
  incoming := by
    rintro - implementation ⟨⟩
    rfl
  outgoing := by
    rintro - implementation ⟨⟩
    exact .inr rfl

/-- **A pathable instance in two paths is rejected**, with an error about sources. -/
theorem not_startsExactly_shared : ¬ ∀ mGraph s, s.Fresh → StartsExactly mGraph s := by
  intro h
  have hnode : ∀ n node, sharedGraph.getNode n = some node → ∃ name, node = pathNode name "p" := by
    intro n node hn
    have hentries : sharedGraph.mNameToNodeMap.entries =
        [⟨"a", pathNode "a" "p"⟩, ⟨"b", pathNode "b" "p"⟩] := rfl
    have hmem := mem_entries.2 hn
    rw [hentries] at hmem
    simp only [List.mem_cons, Sigma.mk.injEq, heq_eq_eq, List.not_mem_nil, or_false] at hmem
    rcases hmem with ⟨-, rfl⟩ | ⟨-, rfl⟩
    · exact ⟨"a", rfl⟩
    · exact ⟨"b", rfl⟩
  have hvalid : ValidGraph sharedGraph sharedInstances := by
    constructor
    · intro n node hn
      obtain ⟨name, rfl⟩ := hnode n node hn
      exact sharedInstances_fitting name
    · intro n node _ _ implementation hn _ _ himplementation hsource
      obtain ⟨name, rfl⟩ := hnode n node hn
      obtain rfl := Option.some.inj himplementation
      cases hsource
  obtain ⟨s', hs'⟩ := (h sharedGraph sharedInstances sharedInstances_fresh).1.2 hvalid
  have hthrows : (startGraph sharedGraph sharedInstances).toOption.isSome = false := by decide
  rw [hs'] at hthrows
  cases hthrows

/-- **When the graphs that are started are the valid ones.** -/
theorem startsExactly_iff (mGraph : Graph) (s : StartState) (hfresh : s.Fresh) :
    StartsExactly mGraph s ↔ (ValidGraph mGraph s → NoSharedInstance mGraph) := by
  constructor
  · intro h hvalid
    exact ((startGraph_ok_iff hfresh).1 (h.1.2 hvalid)).2
  · refine fun h => ⟨⟨fun hs' => ?_, fun hvalid => ?_⟩, fun s' hs' n node implementation => ?_⟩
    · obtain ⟨hfitting, hnone⟩ := (startGraph_ok_iff hfresh).1 hs'
      exact (validGraph_iff hnone).2 hfitting
    · exact (startGraph_ok_iff hfresh).2 ⟨hvalid.fitting, h hvalid⟩
    · exact given_of_startGraph hs'

theorem startsExactly_iff_path :
    StartsExactly ⟨.singleton "a" (pathNode "a" "p")⟩ sharedInstances :=
  (startsExactly_iff _ _ sharedInstances_fresh).2 fun _ =>
    pairwise_iff_noSharedInstance.1 (List.pairwise_singleton _ _)

end Maplang
