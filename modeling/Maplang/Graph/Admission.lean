import Maplang.Graph.Building

/-!
# What `connect` admits

`DataGraph::connect` tests its arguments and the two nodes first, and then changes both nodes, one
after the other.  `connectInPlace` is that code with the graph after each of its statements, so that
it says what is left of a call that throws.  None does so after the first change; the edge is
added, or assigned a delivery type, and no other edge is touched.

## Main definitions

* `Graph.connectInPlace`, `DataGraph.connectInPlace` : the code, with the graph after it, also when
  it throws.
* `attemptMachine` : a graph under calls that return or throw, in any order.
* `ConnectsAtomically` : a call of `connect` makes its edge and nothing else, or changes nothing.
* `Graph.Admitted` : edges are named, and go from nodes that allow them to nodes that allow them.

## Main results

* `DataGraph.connectInPlace_eq` : what is changed in place is what `DataGraph.connect` returns.
* `connect_admits` : every call of `connect` is atomic, and all edges are admitted.
-/

namespace Maplang

open Maplang.Graph

/-! ### The code -/

/-- `forwardEdges.try_emplace(channel)`. -/
def WiredNode.touchChannel (node : WiredNode) (channel : String) : WiredNode :=
  { node with forwardEdges := UnorderedMap.touch node.forwardEdges channel [] }

/-- `Graph::connect`, with the position of the edge it returns and the graph after the call. -/
def Graph.connectInPlace (g : Graph) (fromNodeName fromChannel toNodeName : String) :
    Code ℕ × Graph :=
  match g.getNode fromNodeName, g.getNode toNodeName with
  | some _, some _ =>
    let g := g.modifyNode fromNodeName (·.touchChannel fromChannel)
    let channelEdges := g.edges fromNodeName fromChannel
    match channelEdges.findIdx? fun edge => edge.next = toNodeName with
    | some i => (.ok i, g)
    | none =>
      let g := g.modifyNode fromNodeName (·.writeChannel fromChannel
        (· ++ [{ channel := fromChannel, next := toNodeName }]))
      let g := g.modifyNode toNodeName (·.writeBackEdges (g.addBackEdge fromNodeName))
      (.ok channelEdges.length, g)
  | _, _ => (.error .undefinedBehaviour, g)

/-- `DataGraph::connect`, with the graph after the call.  What has been changed stays when an
exception is thrown. -/
def DataGraph.connectInPlace (g : Graph) (fromNodeName fromChannel toNodeName : String)
    (sameThreadQueueToTargetType : PacketDeliveryType) : Code Unit × Graph :=
  match checkConnection g fromNodeName fromChannel toNodeName with
  | .error fault => (.error fault, g)
  | .ok () =>
    match g.connectInPlace fromNodeName fromChannel toNodeName with
    | (.error fault, g) => (.error fault, g)
    | (.ok i, g) => (.ok (), g.modifyNode fromNodeName
        (·.writeChannel fromChannel (assignType i sameThreadQueueToTargetType)))

/-- The graph after code that changes nothing before it throws. -/
def orUnchanged (g : Graph) : Code Graph → Code Unit × Graph
  | .ok g' => (.ok (), g')
  | .error fault => (.error fault, g)

/-- Make a call, with the graph after it. -/
def BuildCall.attempt (g : Graph) : BuildCall → Code Unit × Graph
  | .connect fromNodeName fromChannel toNodeName sameThreadQueueToTargetType =>
    DataGraph.connectInPlace g fromNodeName fromChannel toNodeName sameThreadQueueToTargetType
  | call => orUnchanged g (call.perform g)

/-- A graph under calls that return or throw. -/
def attemptMachine : Machine Graph BuildCall where
  step g call :=
    match call.attempt g with
    | (.ok (), g') => some g'
    | (.error (.exception _), g') => some g'
    | (.error _, _) => none

/-- A call of `disconnect` is for nodes that exist. -/
def BuildCall.disconnectsExisting (g : Graph) : BuildCall → Bool
  | .disconnect fromNodeName _ toNodeName => g.hasNode fromNodeName && g.hasNode toNodeName
  | _ => true

/-! ### What is admitted -/

/-- The node allows outgoing connections. -/
def Graph.AllowsOutgoing (g : Graph) (n : String) : Prop :=
  ∃ node, g.getNode n = some node ∧ node.allowsOutgoingConnections = true

/-- The node allows incoming connections. -/
def Graph.AllowsIncoming (g : Graph) (n : String) : Prop :=
  ∃ node, g.getNode n = some node ∧ node.allowsIncomingConnections = true

/-- Every edge has the name of its channel, which is not empty, and goes from a node that allows
outgoing connections to one that allows incoming ones. -/
def Graph.Admitted (g : Graph) : Prop :=
  ∀ f c, ∀ e ∈ g.edges f c,
    c ≠ "" ∧ e.channel = c ∧ g.AllowsOutgoing f ∧ g.AllowsIncoming e.next

/-- The edges of a channel other than the one that is connected. -/
def Graph.otherEdges (g : Graph) (f c t f' c' : String) : List GraphEdge :=
  (g.edges f' c').filter fun e => ¬ (f' = f ∧ c' = c ∧ e.next = t)

/-- A call of `connect` returns or throws.  If it throws, nothing has changed.  If it returns, the
edge is there once and has the delivery type, and the other edges are those that were there. -/
structure ConnectsAtomically (g : Graph) (f c t : String) (type : PacketDeliveryType) : Prop where
  ends : (DataGraph.connectInPlace g f c t type).1 = .ok () ∨
    ∃ what, (DataGraph.connectInPlace g f c t type).1 = .error (.exception what)
  throws : ∀ fault g', DataGraph.connectInPlace g f c t type = (.error fault, g') → g' = g
  connected : ∀ g', DataGraph.connectInPlace g f c t type = (.ok (), g') →
    ((g'.edges f c).filter fun e => e.next = t) = [⟨c, t, type⟩]
  others : ∀ g', DataGraph.connectInPlace g f c t type = (.ok (), g') →
    ∀ f' c', g'.otherEdges f c t f' c' = g.otherEdges f c t f' c'

variable {g g' : Graph} {f c t n : String} {type : PacketDeliveryType}

/-! ### What is changed in place -/

theorem touchChannel_of_some {node : WiredNode} {es : List GraphEdge}
    (h : node.forwardEdges.lookup c = some es) : node.touchChannel c = node := by
  rw [WiredNode.touchChannel, UnorderedMap.touch_of_some [] h]

theorem writeChannel_touchChannel (node : WiredNode) (w : List GraphEdge → List GraphEdge) :
    (node.touchChannel c).writeChannel c w = node.writeChannel c w := by
  rw [WiredNode.touchChannel, WiredNode.writeChannel, UnorderedMap.put_touch,
    UnorderedMap.lookup_touch, if_pos rfl, Option.getD_some]
  rfl

theorem modifyNode_modifyNode (w w' : WiredNode → WiredNode) :
    (g.modifyNode n w).modifyNode n w' = g.modifyNode n fun node => w' (w node) := by
  unfold modifyNode
  cases h : g.mNameToNodeMap.lookup n with
  | none => simp [h]
  | some node => simp [UnorderedMap.put_put]

theorem edges_touchChannel {node : WiredNode} (h : g.getNode f = some node) :
    (g.modifyNode f (·.touchChannel c)).edges f c = g.edges f c := by
  rw [Graph.edges, getNode_modifyNode, if_pos rfl, h, ← edges_of_getNode h]
  simp [WiredNode.touchChannel]

/-- The channel that is made for a new edge is not seen without it. -/
theorem Graph.connectInPlace_eq : g.connectInPlace f c t =
    match g.connect f c t with
    | .ok (g', i) => (.ok i, g')
    | .error fault => (.error fault, g) := by
  unfold Graph.connectInPlace Graph.connect
  cases hfrom : g.getNode f with
  | none => rfl
  | some fromNode =>
    cases hto : g.getNode t with
    | none => rfl
    | some toNode =>
      simp only [edges_touchChannel hfrom, edges_of_getNode hfrom]
      cases hfind : (g.edges f c).findIdx? fun edge => edge.next = t with
      | some i =>
        -- an edge was found, so the channel was there
        obtain ⟨es, hes⟩ : ∃ es, fromNode.forwardEdges.lookup c = some es := by
          refine Option.ne_none_iff_exists'.1 fun hnone => ?_
          rw [← edges_of_getNode hfrom, hnone] at hfind
          cases hfind
        rw [modifyNode_self hfrom (touchChannel_of_some hes)]
      | none =>
        simp only [modifyNode_modifyNode, writeChannel_touchChannel]

/-- A call that passes the tests finds both nodes. -/
theorem connect_not_error {fault : Fault} (h : DataGraph.checkConnection g f c t = .ok ()) :
    g.connect f c t ≠ .error fault := by
  intro herror
  obtain ⟨g', hg'⟩ := connect_ok .pushDirectlyToTarget h
  simp [DataGraph.connect, h, herror, bind, Except.bind] at hg'

/-- **What is changed in place is what `DataGraph.connect` returns.**  A call that throws has
changed nothing. -/
theorem DataGraph.connectInPlace_eq :
    DataGraph.connectInPlace g f c t type = orUnchanged g (DataGraph.connect g f c t type) := by
  unfold DataGraph.connectInPlace DataGraph.connect
  rw [Graph.connectInPlace_eq]
  cases hcheck : DataGraph.checkConnection g f c t with
  | error fault => rfl
  | ok u =>
    cases hconnect : g.connect f c t with
    | error fault => exact absurd hconnect (connect_not_error hcheck)
    | ok result => rfl

theorem attempt_eq (call : BuildCall) : call.attempt g = orUnchanged g (call.perform g) := by
  cases call with
  | connect f c t type => exact DataGraph.connectInPlace_eq
  | createNode | setNodeInstance | disconnect => rfl

/-- A call that is made has been made by the machine without the calls that throw, or has changed
nothing. -/
theorem attemptMachine_step {call : BuildCall} (h : attemptMachine.step g call = some g') :
    buildMachine.step g call = some g' ∨ g' = g := by
  unfold attemptMachine at h
  unfold buildMachine
  simp only [attempt_eq] at h
  cases hperform : call.perform g with
  | ok g'' => exact .inl (by simpa [hperform, orUnchanged, Except.toOption] using h)
  | error fault =>
    cases fault with
    | exception what => exact .inr (by simpa [hperform, orUnchanged] using h.symm)
    | nontermination => simp [hperform, orUnchanged] at h
    | undefinedBehaviour => simp [hperform, orUnchanged] at h

/-- Calls that throw lead to no other graphs. -/
theorem reachable_of_attempts {ok : Graph → BuildCall → Prop}
    (h : attemptMachine.Reachable ok {} g) : buildMachine.Reachable Machine.free {} g := by
  refine h.invariant ⟨[], .nil _⟩ fun u call u' hu _ hs => ?_
  rcases attemptMachine_step hs with hbuild | rfl
  · exact hu.trans ⟨_, .snoc (.nil u) trivial hbuild⟩
  · exact hu

/-! ### Atomicity -/

/-- The tests pass, and then the edge may be made; or they throw. -/
theorem checkConnection_cases :
    (DataGraph.checkConnection g f c t = .ok () ∧ c ≠ "" ∧ g.AllowsOutgoing f ∧
      g.AllowsIncoming t) ∨
    ∃ what, DataGraph.checkConnection g f c t = .error (.exception what) := by
  have hnode : ∀ n, (∃ node, g.getNode n = some node ∧ g.getNodeOrThrow n = .ok node) ∨
      ∃ what, g.getNodeOrThrow n = .error (.exception what) := by
    intro n
    unfold getNode getNodeOrThrow
    cases g.mNameToNodeMap.lookup n with
    | none => exact .inr ⟨_, rfl⟩
    | some node => exact .inl ⟨node, rfl, rfl⟩
  unfold DataGraph.checkConnection
  split
  · exact .inr ⟨_, rfl⟩
  split
  · exact .inr ⟨_, rfl⟩
  split
  · exact .inr ⟨_, rfl⟩
  rename_i hchannel _
  obtain ⟨fromNode, hfrom, hgetFrom⟩ | ⟨what, hfrom⟩ := hnode f
  swap
  · exact .inr ⟨what, by simp only [hfrom, bind, Except.bind]⟩
  obtain ⟨toNode, hto, hgetTo⟩ | ⟨what, hto⟩ := hnode t
  swap
  · exact .inr ⟨what, by simp only [hgetFrom, hto, bind, Except.bind]⟩
  simp only [hgetFrom, hgetTo, bind, Except.bind]
  split
  · exact .inr ⟨_, rfl⟩
  split
  · exact .inr ⟨_, rfl⟩
  split
  · exact .inr ⟨_, rfl⟩
  split
  · exact .inr ⟨_, rfl⟩
  rename_i houtgoing hincoming _ _
  refine .inl ⟨rfl, hchannel, ⟨fromNode, hfrom, ?_⟩, toNode, hto, ?_⟩
  · simpa using houtgoing
  · simpa using hincoming

/-- `connect` throws, or connects. -/
theorem connect_ends : (∃ g', DataGraph.connect g f c t type = .ok g') ∨
    ∃ what, DataGraph.connect g f c t type = .error (.exception what) := by
  obtain ⟨hcheck, -⟩ | ⟨what, hcheck⟩ :=
    checkConnection_cases (g := g) (f := f) (c := c) (t := t)
  · exact .inl (connect_ok type hcheck)
  · exact .inr ⟨what, by simp only [DataGraph.connect, hcheck, bind, Except.bind]⟩

/-- Among edges with different targets, the new one is there once. -/
theorem filter_withEdge {es : List GraphEdge} {e : GraphEdge}
    (honce : (es.map GraphEdge.next).Nodup) (hchannel : ∀ x ∈ es, x.channel = e.channel) :
    (withEdge es e).filter (fun x => x.next = e.next) = [e] ∧
      (withEdge es e).filter (fun x => ¬ x.next = e.next) =
        es.filter fun x => ¬ x.next = e.next := by
  rcases withEdge_once honce hchannel with
    ⟨pre, old, post, rfl, hnext, hothers, hwith⟩ | ⟨hnone, hwith⟩
  · rw [hwith]
    have hnil : (pre ++ post).filter (fun x => x.next = e.next) = [] :=
      List.filter_eq_nil_iff.2 fun y hy => by simpa using hothers y hy
    rw [List.filter_append, List.append_eq_nil_iff] at hnil
    constructor
    · simp [hnil]
    · simp [hnext]
  · have hnil : es.filter (fun x => x.next = e.next) = [] := by
      simpa [List.filter_eq_nil_iff] using hnone
    constructor
    · simp [hwith, hnil]
    · simp [hwith]

theorem Graph.Connected.otherEdges (h : Connected g g' f c t type) (hshape : g.Shape)
    (f' c' : String) : g'.otherEdges f c t f' c' = g.otherEdges f c t f' c' := by
  unfold Graph.otherEdges
  rw [h.edges]
  split
  · rename_i heq
    obtain ⟨rfl, rfl⟩ := heq
    simpa using (filter_withEdge (hshape.once f' c')
      (e := ⟨c', t, type⟩) (hshape.channel f' c')).2
  · rfl

/-- **`connect` is atomic.** -/
theorem connectsAtomically (hshape : g.Shape) (f c t : String) (type : PacketDeliveryType) :
    ConnectsAtomically g f c t type := by
  have hconnected : ∀ g', DataGraph.connectInPlace g f c t type = (.ok (), g') →
      Connected g g' f c t type := by
    intro g' h
    rw [DataGraph.connectInPlace_eq] at h
    cases hconnect : DataGraph.connect g f c t type with
    | error fault => simp [hconnect, orUnchanged] at h
    | ok g'' =>
      obtain rfl : g'' = g' := by simpa [hconnect, orUnchanged] using h
      exact connect_spec hconnect
  constructor
  case ends =>
    rw [DataGraph.connectInPlace_eq]
    rcases connect_ends with ⟨g', h⟩ | ⟨what, h⟩
    · exact .inl (by rw [h, orUnchanged])
    · exact .inr ⟨what, by rw [h, orUnchanged]⟩
  case throws =>
    intro fault g' h
    rw [DataGraph.connectInPlace_eq] at h
    cases hconnect : DataGraph.connect g f c t type with
    | error fault' => simpa [hconnect, orUnchanged, eq_comm] using (congrArg Prod.snd h)
    | ok g'' => simp [hconnect, orUnchanged] at h
  case connected =>
    intro g' h
    rw [(hconnected g' h).edges, if_pos ⟨rfl, rfl⟩]
    exact (filter_withEdge (e := ⟨c, t, type⟩) (hshape.once f c) (hshape.channel f c)).1
  case others => exact fun g' h => (hconnected g' h).otherEdges hshape

/-! ### Admission -/

/-- A node that is there stays, and allows the connections that it allowed. -/
def KeepsAllowed (g g' : Graph) : Prop :=
  ∀ n node, g.getNode n = some node → ∃ node', g'.getNode n = some node' ∧
    node'.allowsIncomingConnections = node.allowsIncomingConnections ∧
    node'.allowsOutgoingConnections = node.allowsOutgoingConnections

theorem KeepsAllowed.outgoing (h : KeepsAllowed g g') (hn : g.AllowsOutgoing n) :
    g'.AllowsOutgoing n := by
  obtain ⟨node, hnode, hallows⟩ := hn
  obtain ⟨node', hnode', -, houtgoing⟩ := h n node hnode
  exact ⟨node', hnode', houtgoing.trans hallows⟩

theorem KeepsAllowed.incoming (h : KeepsAllowed g g') (hn : g.AllowsIncoming n) :
    g'.AllowsIncoming n := by
  obtain ⟨node, hnode, hallows⟩ := hn
  obtain ⟨node', hnode', hincoming, -⟩ := h n node hnode
  exact ⟨node', hnode', hincoming.trans hallows⟩

theorem keepsAllowed_of_attributes (h : ∀ n, g'.attributes n = g.attributes n) :
    KeepsAllowed g g' := by
  intro n node hnode
  have hn := h n
  rw [Graph.attributes, Graph.attributes, hnode, Option.map_some, Option.map_eq_some_iff] at hn
  obtain ⟨node', hnode', heq⟩ := hn
  simp only [Prod.mk.injEq] at heq
  exact ⟨node', hnode', heq.2.2.1, heq.2.2.2⟩

theorem keepsAllowed_createGraphNode {name : String} {allowIncoming allowOutgoing : Bool}
    (h : g.createGraphNode name allowIncoming allowOutgoing = .ok g') : KeepsAllowed g g' := by
  obtain ⟨hnone, hget⟩ := getNode_of_create h
  intro n node hnode
  have hne : n ≠ name := by
    rintro rfl
    rw [hnone] at hnode
    cases hnode
  exact ⟨node, by rw [hget, if_neg hne, hnode], rfl, rfl⟩

theorem keepsAllowed_setNodeInstance {nodeName instanceName : String}
    (h : DataGraph.setNodeInstance g nodeName instanceName = .ok g') : KeepsAllowed g g' := by
  obtain rfl := modifyNode_of_setInstance h
  intro n node hnode
  by_cases hn : n = nodeName
  · subst hn
    exact ⟨{ node with instanceName }, by simp [hnode], rfl, rfl⟩
  · exact ⟨node, by simp [hn, hnode], rfl, rfl⟩

/-- Edges that were there stay admitted. -/
theorem Graph.Admitted.mono (hadmitted : g.Admitted) (hkeeps : KeepsAllowed g g')
    (hedges : ∀ f c, ∀ e ∈ g'.edges f c, e ∈ g.edges f c) : g'.Admitted := by
  intro f c e he
  obtain ⟨hchannel, hname, houtgoing, hincoming⟩ := hadmitted f c e (hedges f c e he)
  exact ⟨hchannel, hname, hkeeps.outgoing houtgoing, hkeeps.incoming hincoming⟩

theorem Graph.Admitted.connect (hadmitted : g.Admitted) (hshape : g.Shape)
    (h : DataGraph.connect g f c t type = .ok g') : g'.Admitted := by
  have hconnected := connect_spec h
  have hkeeps := keepsAllowed_of_attributes hconnected.attributes
  obtain ⟨-, hchannel, houtgoing, hincoming⟩ | ⟨what, hcheck⟩ :=
    checkConnection_cases (g := g) (f := f) (c := c) (t := t)
  · intro f' c' e he
    rcases (hconnected.mem_edges hshape).1 he with ⟨rfl, rfl, rfl⟩ | ⟨hold, -⟩
    · exact ⟨hchannel, rfl, hkeeps.outgoing houtgoing, hkeeps.incoming hincoming⟩
    · obtain ⟨hchannel', hname, houtgoing', hincoming'⟩ := hadmitted f' c' e hold
      exact ⟨hchannel', hname, hkeeps.outgoing houtgoing', hkeeps.incoming hincoming'⟩
  · rw [check_of_connect h] at hcheck
    cases hcheck

theorem Graph.Admitted.step (hadmitted : g.Admitted) (hshape : g.Shape) {call : BuildCall}
    (h : buildMachine.step g call = some g') : g'.Admitted := by
  have hok : call.perform g = .ok g' := perform_of_step h
  cases call with
  | createNode name allowIncoming allowOutgoing =>
    have hsame := createGraphNode_spec hok
    exact hadmitted.mono (keepsAllowed_createGraphNode hok) fun f c e he => hsame.edges f c ▸ he
  | setNodeInstance nodeName instanceName =>
    have hsame := setNodeInstance_spec hok
    exact hadmitted.mono (keepsAllowed_setNodeInstance hok) fun f c e he => hsame.edges f c ▸ he
  | connect f c t type => exact hadmitted.connect hshape hok
  | disconnect f c t =>
    cases buildStep_cases hshape.nonempty h with
    | nothing => exact hadmitted
    | disconnect _ _ _ hdisconnected =>
      refine hadmitted.mono (keepsAllowed_of_attributes hdisconnected.attributes) ?_
      intro f' c' e he
      rw [hdisconnected.edges] at he
      split at he
      · cases he
      · exact he

theorem admitted_of_reachable (h : buildMachine.Reachable Machine.free {} g) : g.Admitted := by
  refine invariant_of_reachable h (fun f c e he => ?_) fun _ _ _ hshape hadmitted _ hs =>
    hadmitted.step hshape hs
  simp [edges, getNode] at he

/-- **What `connect` admits.**  In a graph that is reached by any calls, also by calls that throw,
every call of `connect` makes its edge and nothing else, or changes nothing; and every edge is
admitted. -/
theorem connect_admits
    (h : attemptMachine.Reachable (fun g call => call.disconnectsExisting g = true) {} g) :
    (∀ f c t type, ConnectsAtomically g f c t type) ∧ g.Admitted := by
  have hbuild := reachable_of_attempts h
  exact ⟨connectsAtomically (shape_of_reachable hbuild), admitted_of_reachable hbuild⟩

/-- Some calls throw: `b` allows no outgoing connections, a channel has no name, and a node is
made twice. -/
def attemptCalls : List BuildCall :=
  [.createNode "a" false true, .createNode "b" true false, .setNodeInstance "a" "i",
    .connect "a" "out" "b" .alwaysQueue, .setNodeInstance "b" "j",
    .connect "b" "out" "a" .alwaysQueue, .connect "a" "" "b" .alwaysQueue,
    .connect "a" "out" "b" .pushDirectlyToTarget, .createNode "a" true true,
    .connect "a" "out" "b" .alwaysQueue, .disconnect "b" "out" "a"]

/-- The graph the calls lead to. -/
def attemptGraph : Graph :=
  (attemptMachine.exec (fun g call => call.disconnectsExisting g) {} attemptCalls).getD {}

theorem connect_admits_attempts :
    (∀ f c t type, ConnectsAtomically attemptGraph f c t type) ∧ attemptGraph.Admitted :=
  connect_admits (Machine.reachable_exec (by decide))

end Maplang
