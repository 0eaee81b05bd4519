import Maplang.Graph.WiringSteps

/-!
# The edges of a graph that is built

A graph that is built by connecting nodes has exactly the edges that `connect` was called for, and
the back edges mirror them.  `disconnect` should take back one call of `connect`; it takes back the
whole channel, forgets the source even if another channel leads to the target, and does not test
that the target exists.

## Main definitions

* `lastConnect` : the delivery type that the last call of `connect` for an edge gives it.
* `ExactEdges` : a graph has the edges of the calls it was built by.
* `Graph.Equiv` : graphs that differ in the order of their lists only.
* `RemovesExactly` : what `disconnect` should do.
* `DisconnectExact` : when it does that.

## Main results

* `exactEdges_of_run` : a graph has the edges it was built with; `connect` is idempotent and calls
  for different edges commute.
* `not_removesExactly_fanOut` : removing an edge removes the channel.
* `removesExactly_iff` : when `disconnect` removes exactly one edge.
-/

namespace Maplang

open Maplang.Graph

/-- A call that adds to the graph. -/
def BuildCall.builds : BuildCall → Bool
  | .disconnect .. => false
  | _ => true

/-- The delivery type a call gives an edge. -/
def BuildCall.typeGiven (f c t : String) : BuildCall → Option PacketDeliveryType
  | .connect f' c' t' type => if f' = f ∧ c' = c ∧ t' = t then some type else none
  | _ => none

/-- The delivery type the last `connect` for an edge gives it. -/
def lastConnect (calls : List BuildCall) (f c t : String) : Option PacketDeliveryType :=
  (calls.filterMap (BuildCall.typeGiven f c t)).getLast?

/-- A graph has the edges that `connect` was called for, and no others. -/
structure ExactEdges (calls : List BuildCall) (g : Graph) : Prop where
  stored : ∀ f c t, g.HasEdge f c t ↔ ∃ type, .connect f c t type ∈ calls
  once : ∀ f c, ((g.edges f c).map GraphEdge.next).Nodup
  channel : ∀ f c, ∀ e ∈ g.edges f c, e.channel = c
  lastType : ∀ f c, ∀ e ∈ g.edges f c,
    lastConnect calls f c e.next = some e.sameThreadQueueToTargetType
  backs : ∀ s t, s ∈ g.backs t ↔ ∃ c type, .connect s c t type ∈ calls
  backOnce : ∀ t, (g.backs t).Nodup

/-- Two graphs are the same up to the order of edges and back edges. -/
structure Graph.Equiv (g g' : Graph) : Prop where
  attributes : ∀ n, g.attributes n = g'.attributes n
  edges : ∀ f c, (g.edges f c).Perm (g'.edges f c)
  backs : ∀ t, (g.backs t).Perm (g'.backs t)

/-- Connecting twice is the same as connecting once. -/
def Idempotent (g : Graph) : Prop :=
  ∀ f c t type g₁, DataGraph.connect g f c t type = .ok g₁ →
    DataGraph.connect g₁ f c t type = .ok g₁

/-- Calls for different edges can be exchanged. -/
def Commutes (g : Graph) : Prop :=
  ∀ f c t type f' c' t' type' g₁ g₂, (f, c, t) ≠ (f', c', t') →
    DataGraph.connect g f c t type = .ok g₁ → DataGraph.connect g₁ f' c' t' type' = .ok g₂ →
    ∃ g₁' g₂', DataGraph.connect g f' c' t' type' = .ok g₁' ∧
      DataGraph.connect g₁' f c t type = .ok g₂' ∧ g₂.Equiv g₂'

/-- `disconnect` removes one edge, if it is there, and nothing else. -/
def RemovesExactly (g : Graph) (f c t : String) : Prop :=
  ∃ g', g.disconnect f c t = .ok g' ∧
    (∀ f' c', g'.edges f' c' =
      (g.edges f' c').filter fun e => ¬ (f' = f ∧ c' = c ∧ e.next = t)) ∧
    (g.hasNode f = false ∨ g.hasNode t = false ∨ ¬ g.HasEdge f c t → g' = g) ∧
    g'.Mirrored

/-- The source is unknown; or the target is known, and if the channel has edges then it has only
the one to the target, and no other channel of the source leads there. -/
def DisconnectExact (g : Graph) (f c t : String) : Prop :=
  g.hasNode f = true → g.hasNode t = true ∧
    (g.edges f c = [] ∨
      (g.edges f c).map GraphEdge.next = [t] ∧ ∀ c', c' ≠ c → ¬ g.HasEdge f c' t)

variable {g g' : Graph} {f c t : String} {type : PacketDeliveryType}

/-! ### What is in a graph after `connect` -/

theorem Graph.Connected.mem_edges (h : Connected g g' f c t type) (hshape : g.Shape)
    {f' c' : String} {e : GraphEdge} :
    e ∈ g'.edges f' c' ↔ (f' = f ∧ c' = c ∧ e = ⟨c, t, type⟩) ∨
      e ∈ g.edges f' c' ∧ ¬ (f' = f ∧ c' = c ∧ e.next = t) := by
  rw [h.edges]
  split
  · rename_i heq
    obtain ⟨rfl, rfl⟩ := heq
    rw [mem_withEdge (hshape.once f' c') (hshape.channel f' c')]
    simp
  · rename_i hne
    constructor
    · exact fun he => .inr ⟨he, fun hall => hne ⟨hall.1, hall.2.1⟩⟩
    · rintro (⟨hf, hc, -⟩ | ⟨he, -⟩)
      · exact absurd ⟨hf, hc⟩ hne
      · exact he

theorem Graph.Connected.hasEdge (h : Connected g g' f c t type) (hshape : g.Shape)
    {f' c' t' : String} :
    g'.HasEdge f' c' t' ↔ (f' = f ∧ c' = c ∧ t' = t) ∨ g.HasEdge f' c' t' := by
  constructor
  · rintro ⟨e, he, rfl⟩
    rcases (h.mem_edges hshape).1 he with ⟨rfl, rfl, rfl⟩ | ⟨hold, -⟩
    · exact .inl ⟨rfl, rfl, rfl⟩
    · exact .inr ⟨e, hold, rfl⟩
  · intro hcases
    by_cases hnew : f' = f ∧ c' = c ∧ t' = t
    · obtain ⟨rfl, rfl, rfl⟩ := hnew
      exact ⟨_, (h.mem_edges hshape).2 (.inl ⟨rfl, rfl, rfl⟩), rfl⟩
    · obtain ⟨e, he, rfl⟩ := hcases.resolve_left hnew
      exact ⟨e, (h.mem_edges hshape).2 (.inr ⟨he, hnew⟩), rfl⟩

theorem Graph.Connected.mem_backs (h : Connected g g' f c t type) (hshape : g.Shape)
    (hmirrored : g.Mirrored) {s u : String} : s ∈ g'.backs u ↔ s = f ∧ u = t ∨ s ∈ g.backs u := by
  rw [h.backs]
  split
  · rename_i hnew
    obtain ⟨rfl, -⟩ := hnew
    rw [mem_addBackEdge (hshape.live u)]
    simp [or_comm]
  · rename_i hold
    refine ⟨.inr, ?_⟩
    rintro (⟨rfl, rfl⟩ | hs)
    · -- the edge is there already, and so is the back edge
      have hedge : g.HasEdge s c u := by simpa using hold
      exact (hmirrored s u).2 ⟨c, hedge⟩
    · exact hs

theorem Graph.Mirrored.connect (hmirrored : g.Mirrored) (h : Connected g g' f c t type)
    (hshape : g.Shape) : g'.Mirrored := by
  intro s u
  rw [h.mem_backs hshape hmirrored, hmirrored s u]
  simp only [h.hasEdge hshape]
  constructor
  · rintro (⟨rfl, rfl⟩ | ⟨c', hc'⟩)
    · exact ⟨c, .inl ⟨rfl, rfl, rfl⟩⟩
    · exact ⟨c', .inr hc'⟩
  · rintro ⟨c', ⟨rfl, -, rfl⟩ | hc'⟩
    · exact .inl ⟨rfl, rfl⟩
    · exact .inr ⟨c', hc'⟩

theorem Graph.SameWiring.hasEdge (h : SameWiring g g') : g'.HasEdge f c t ↔ g.HasEdge f c t := by
  rw [HasEdge, h.edges, HasEdge]

theorem Graph.Mirrored.sameWiring (hmirrored : g.Mirrored) (h : SameWiring g g') :
    g'.Mirrored := by
  intro s u
  rw [h.backs, hmirrored s u]
  simp only [h.hasEdge]

theorem mirrored_empty : ({} : Graph).Mirrored := by
  intro s u
  simp [backs, HasEdge, edges, getNode]

/-! ### The last call for an edge -/

theorem lastConnect_snoc (calls : List BuildCall) (call : BuildCall) (f c t : String) :
    lastConnect (calls ++ [call]) f c t =
      (call.typeGiven f c t).or (lastConnect calls f c t) := by
  rw [lastConnect, List.filterMap_append, List.getLast?_append, lastConnect]
  congr 1
  cases h : call.typeGiven f c t <;> simp [h]

theorem typeGiven_eq_some {call : BuildCall} :
    call.typeGiven f c t = some type ↔ call = .connect f c t type := by
  cases call <;> simp [BuildCall.typeGiven, and_assoc]

/-- There is a last call for an edge if there is one at all. -/
theorem lastConnect_isSome {calls : List BuildCall} :
    (lastConnect calls f c t).isSome = true ↔ ∃ type, .connect f c t type ∈ calls := by
  rw [lastConnect, List.getLast?_isSome, ← List.length_pos_iff, List.length_pos_iff_exists_mem]
  simp only [List.mem_filterMap, typeGiven_eq_some]
  constructor
  · rintro ⟨type, _, hcall, rfl⟩
    exact ⟨type, hcall⟩
  · rintro ⟨type, hcall⟩
    exact ⟨type, _, hcall, rfl⟩

/-! ### A graph has the edges it was built with -/

/-- The edges are those of the last calls. -/
structure Built (calls : List BuildCall) (g : Graph) : Prop where
  shape : g.Shape
  mirrored : g.Mirrored
  edges : ∀ f c e, e ∈ g.edges f c ↔
    e.channel = c ∧ lastConnect calls f c e.next = some e.sameThreadQueueToTargetType

theorem Built.hasEdge {calls : List BuildCall} (h : Built calls g) :
    g.HasEdge f c t ↔ ∃ type, .connect f c t type ∈ calls := by
  rw [← lastConnect_isSome, Option.isSome_iff_exists]
  constructor
  · rintro ⟨e, he, rfl⟩
    exact ⟨_, ((h.edges f c e).1 he).2⟩
  · rintro ⟨type, hlast⟩
    exact ⟨⟨c, t, type⟩, (h.edges f c ⟨c, t, type⟩).2 ⟨rfl, hlast⟩, rfl⟩

theorem Built.exactEdges {calls : List BuildCall} (h : Built calls g) : ExactEdges calls g where
  stored _ _ _ := h.hasEdge
  once := h.shape.once
  channel := h.shape.channel
  lastType f c e he := ((h.edges f c e).1 he).2
  backs s t := by
    rw [h.mirrored s t]
    simp only [h.hasEdge]
  backOnce := h.shape.backOnce

theorem Built.sameWiring {calls : List BuildCall} (h : Built calls g) (hsame : SameWiring g g')
    {call : BuildCall} (hcall : ∀ f c t, call.typeGiven f c t = none) :
    Built (calls ++ [call]) g' where
  shape := h.shape.sameWiring hsame
  mirrored := h.mirrored.sameWiring hsame
  edges f c e := by
    rw [hsame.edges, h.edges, lastConnect_snoc, hcall, Option.none_or]

theorem Built.connect {calls : List BuildCall} (h : Built calls g)
    (hconnected : Connected g g' f c t type) : Built (calls ++ [.connect f c t type]) g' where
  shape := h.shape.connect hconnected
  mirrored := h.mirrored.connect hconnected h.shape
  edges f' c' e := by
    rw [hconnected.mem_edges h.shape, h.edges, lastConnect_snoc]
    by_cases hnew : f' = f ∧ c' = c ∧ e.next = t
    · obtain ⟨rfl, rfl, rfl⟩ := hnew
      obtain ⟨channel, next, given⟩ := e
      simp [BuildCall.typeGiven, eq_comm]
    · have hold : (BuildCall.connect f c t type).typeGiven f' c' e.next = none :=
        if_neg fun ⟨hf, hc, ht⟩ => hnew ⟨hf.symm, hc.symm, ht.symm⟩
      rw [hold, Option.none_or]
      constructor
      · rintro (⟨rfl, rfl, rfl⟩ | ⟨hlast, -⟩)
        · exact absurd ⟨rfl, rfl, rfl⟩ hnew
        · exact hlast
      · exact fun hlast => .inr ⟨hlast, hnew⟩

theorem Built.step {calls : List BuildCall} (h : Built calls g) {call : BuildCall}
    (hbuilds : call.builds = true) (hstep : BuildStep g call g') : Built (calls ++ [call]) g' := by
  cases hstep with
  | createNode hsame => exact h.sameWiring hsame fun _ _ _ => rfl
  | setNodeInstance hsame => exact h.sameWiring hsame fun _ _ _ => rfl
  | connect hconnected => exact h.connect hconnected
  | nothing => cases hbuilds
  | disconnect => cases hbuilds

theorem built_of_run {calls : List BuildCall}
    (h : buildMachine.Run (fun _ call => call.builds = true) {} calls g) : Built calls g := by
  induction h with
  | nil => exact ⟨shape_empty, mirrored_empty, by simp [edges, getNode, lastConnect]⟩
  | snoc _ hbuilds hstep ih => exact ih.step hbuilds (buildStep_cases ih.shape.nonempty hstep)

/-! ### Connecting again -/

theorem check_of_connect (h : DataGraph.connect g f c t type = .ok g') :
    DataGraph.checkConnection g f c t = .ok () := by
  unfold DataGraph.connect at h
  obtain ⟨_, hcheck, -⟩ := bind_eq_ok.1 h
  exact hcheck

/-- The tests look at the attributes of the nodes only. -/
theorem checkConnection_congr (h : ∀ n, g'.attributes n = g.attributes n) :
    DataGraph.checkConnection g' f c t = DataGraph.checkConnection g f c t := by
  have hnode : ∀ {α : Type} n (k k' : WiredNode → Code α),
      (∀ node node' : WiredNode, node'.instanceName = node.instanceName →
        node'.allowsIncomingConnections = node.allowsIncomingConnections →
        node'.allowsOutgoingConnections = node.allowsOutgoingConnections → k' node' = k node) →
      (g'.getNodeOrThrow n >>= k') = (g.getNodeOrThrow n >>= k) := by
    intro α n k k' hk
    have hattributes := h n
    unfold attributes getNode at hattributes
    unfold getNodeOrThrow
    cases hnew : g'.mNameToNodeMap.lookup n <;> cases hold : g.mNameToNodeMap.lookup n <;>
      simp only [hnew, hold, Option.map_some, Option.map_none, Option.some.injEq, Prod.mk.injEq,
        reduceCtorEq] at hattributes
    · rfl
    · obtain ⟨-, hinstance, hincoming, houtgoing⟩ := hattributes
      exact hk _ _ hinstance hincoming houtgoing
  unfold DataGraph.checkConnection
  split
  · rfl
  split
  · rfl
  split
  · rfl
  refine hnode f _ _ fun from_ from_' hfrom₁ hfrom₂ hfrom₃ => ?_
  refine hnode t _ _ fun to_ to_' hto₁ hto₂ hto₃ => ?_
  rw [hfrom₁, hfrom₃, hto₁, hto₂]

/-- A connection that passes the tests is made. -/
theorem connect_ok (type : PacketDeliveryType)
    (h : DataGraph.checkConnection g f c t = .ok ()) :
    ∃ g', DataGraph.connect g f c t type = .ok g' := by
  have hnodes : (∃ node, g.getNode f = some node) ∧ ∃ node, g.getNode t = some node := by
    unfold DataGraph.checkConnection getNodeOrThrow at h
    refine ⟨Option.isSome_iff_exists.1 ?_, Option.isSome_iff_exists.1 ?_⟩
    all_goals
      unfold getNode
      by_contra hnone
      rw [Bool.not_eq_true, Option.isSome_eq_false_iff, Option.isNone_iff_eq_none] at hnone
      simp only [hnone, throwRuntimeError, bind, Except.bind] at h
      repeat' (split at h <;> try cases h)
  obtain ⟨⟨fromNode, hfrom⟩, toNode, hto⟩ := hnodes
  unfold DataGraph.connect Graph.connect
  simp only [h, hfrom, hto, bind, Except.bind, pure, Except.pure]
  cases ((fromNode.forwardEdges.lookup c).getD []).findIdx? fun edge => edge.next = t with
  | some i => exact ⟨_, rfl⟩
  | none => exact ⟨_, rfl⟩

theorem assignType_self {es : List GraphEdge} {i : ℕ} (hi : i < es.length)
    (h : es[i].sameThreadQueueToTargetType = type) : assignType i type es = es := by
  have hsame : { es[i] with sameThreadQueueToTargetType := type } = es[i] := by rw [← h]
  rw [assignType, List.modify_eq_set_getElem?, List.getElem?_eq_getElem hi]
  exact (congrArg (es.set i) hsame).trans (List.set_getElem_self hi)

theorem writeChannel_self {node : WiredNode} {c : String} {es : List GraphEdge}
    {w : List GraphEdge → List GraphEdge} (hes : node.forwardEdges.lookup c = some es)
    (hw : w es = es) : node.writeChannel c w = node := by
  rw [WiredNode.writeChannel, hes, Option.getD_some, hw, UnorderedMap.put_self hes]

theorem modifyNode_self {n : String} {node : WiredNode} {w : WiredNode → WiredNode}
    (hnode : g.getNode n = some node) (hw : w node = node) : g.modifyNode n w = g := by
  unfold modifyNode
  rw [show g.mNameToNodeMap.lookup n = some node from hnode]
  simp only [hw]
  rw [UnorderedMap.put_self hnode]

theorem Graph.Connected.hasNode {g' : Graph} {f c t : String} (h : Connected g g' f c t type)
    (n : String) : g'.hasNode n = g.hasNode n := by
  rw [hasNode_eq, h.attributes, ← hasNode_eq]

/-- **`connect` is idempotent.** -/
theorem idempotent (hshape : g.Shape) : Idempotent g := by
  intro f c t type g₁ h
  have hconnected := connect_spec h
  have hshape₁ := hshape.connect hconnected
  have hmem : ⟨c, t, type⟩ ∈ g₁.edges f c := (hconnected.mem_edges hshape).2 (.inl ⟨rfl, rfl, rfl⟩)
  -- the edge is found, and its delivery type is the one that is assigned
  obtain ⟨fromNode, hfrom⟩ := getNode_of_hasNode ((hconnected.hasNode f).trans hconnected.source)
  obtain ⟨toNode, hto⟩ := getNode_of_hasNode ((hconnected.hasNode t).trans hconnected.known)
  obtain ⟨es, hes⟩ : ∃ es, fromNode.forwardEdges.lookup c = some es := by
    refine Option.ne_none_iff_exists'.1 fun hnone => ?_
    rw [← edges_of_getNode hfrom, hnone] at hmem
    cases hmem
  have hedges : g₁.edges f c = es := by rw [← edges_of_getNode hfrom, hes, Option.getD_some]
  obtain ⟨i, hi⟩ : ∃ i, es.findIdx? (fun edge => edge.next = t) = some i := by
    refine Option.ne_none_iff_exists'.1 fun hnone => ?_
    have hnot := List.findIdx?_eq_none_iff.1 hnone ⟨c, t, type⟩ (hedges ▸ hmem)
    simp at hnot
  have hassign : assignType i type es = es := by
    obtain ⟨hlt, hnext, -⟩ := List.findIdx?_eq_some_iff_getElem.1 hi
    refine assignType_self hlt ?_
    have hin : es[i] ∈ g₁.edges f c := hedges ▸ List.getElem_mem hlt
    rcases (hconnected.mem_edges hshape).1 hin with ⟨-, -, heq⟩ | ⟨-, hne⟩
    · rw [heq]
    · exact absurd ⟨rfl, rfl, by simpa using hnext⟩ hne
  have hcheck := check_of_connect h
  rw [← checkConnection_congr hconnected.attributes] at hcheck
  have hsame : g₁.modifyNode f (·.writeChannel c (assignType i type)) = g₁ :=
    modifyNode_self hfrom (writeChannel_self hes hassign)
  unfold DataGraph.connect Graph.connect
  simp only [hcheck, hfrom, hto, hes, Option.getD_some, hi, bind, Except.bind, pure, Except.pure,
    hsame]

/-- **Calls of `connect` for different edges commute.** -/
theorem commutes (hshape : g.Shape) (hmirrored : g.Mirrored) : Commutes g := by
  intro f c t type f' c' t' type' g₁ g₂ hne h₁ h₂
  have hconnected₁ := connect_spec h₁
  have hconnected₂ := connect_spec h₂
  have hcheck₁ := check_of_connect h₁
  have hcheck₂ := check_of_connect h₂
  rw [checkConnection_congr hconnected₁.attributes] at hcheck₂
  obtain ⟨g₁', h₁'⟩ := connect_ok type' hcheck₂
  have hconnected₁' := connect_spec h₁'
  rw [← checkConnection_congr hconnected₁'.attributes] at hcheck₁
  obtain ⟨g₂', h₂'⟩ := connect_ok type hcheck₁
  have hconnected₂' := connect_spec h₂'
  have hshape₁ := hshape.connect hconnected₁
  have hshape₁' := hshape.connect hconnected₁'
  have hshape₂ := hshape₁.connect hconnected₂
  have hshape₂' := hshape₁'.connect hconnected₂'
  refine ⟨g₁', g₂', h₁', h₂', ?_, ?_, ?_⟩
  · intro n
    rw [hconnected₂.attributes, hconnected₁.attributes, hconnected₂'.attributes,
      hconnected₁'.attributes]
  · intro a b
    rw [List.perm_ext_iff_of_nodup (hshape₂.once a b).of_map (hshape₂'.once a b).of_map]
    intro e
    rw [hconnected₂.mem_edges hshape₁, hconnected₁.mem_edges hshape,
      hconnected₂'.mem_edges hshape₁', hconnected₁'.mem_edges hshape]
    simp only [ne_eq, Prod.mk.injEq] at hne
    grind
  · intro u
    have hmirrored₂ := (hmirrored.connect hconnected₁ hshape).connect hconnected₂ hshape₁
    have hmirrored₂' := (hmirrored.connect hconnected₁' hshape).connect hconnected₂' hshape₁'
    rw [List.perm_ext_iff_of_nodup (hshape₂.backOnce u) (hshape₂'.backOnce u)]
    intro s
    rw [hmirrored₂ s u, hmirrored₂' s u]
    simp only [hconnected₂.hasEdge hshape₁, hconnected₁.hasEdge hshape,
      hconnected₂'.hasEdge hshape₁', hconnected₁'.hasEdge hshape]
    simp only [or_left_comm]

/-- **The exact edges of a graph.**  A graph that is built by creating and connecting nodes has the
edges that `connect` was called for, each once and with the delivery type of the last call, and the
back edges mirror them. -/
theorem exactEdges_of_run {calls : List BuildCall}
    (h : buildMachine.Run (fun _ call => call.builds = true) {} calls g) :
    ExactEdges calls g ∧ Idempotent g ∧ Commutes g := by
  have hbuilt := built_of_run h
  exact ⟨hbuilt.exactEdges, idempotent hbuilt.shape, commutes hbuilt.shape hbuilt.mirrored⟩

/-- `a` has two edges on `out`, and one of them is connected twice. -/
def fanOutCalls : List BuildCall :=
  [.createNode "a" false true, .createNode "b" true false, .createNode "c" true false,
    .setNodeInstance "a" "i", .setNodeInstance "b" "j", .setNodeInstance "c" "k",
    .connect "a" "out" "b" .pushDirectlyToTarget, .connect "a" "out" "c" .alwaysQueue,
    .connect "a" "out" "b" .alwaysQueue]

/-- The graph the calls build. -/
def fanOutGraph : Graph :=
  (buildMachine.exec (fun _ call => call.builds) {} fanOutCalls).getD {}

theorem fanOutGraph_run :
    buildMachine.Run (fun _ call => call.builds = true) {} fanOutCalls fanOutGraph :=
  Machine.run_exec (by decide)

theorem exactEdges_of_run_fanOut : ExactEdges fanOutCalls fanOutGraph :=
  (exactEdges_of_run fanOutGraph_run).1

/-! ### Disconnecting -/

theorem Graph.Disconnected.hasEdge (h : Disconnected g g' f c t) {f' c' t' : String} :
    g'.HasEdge f' c' t' ↔ g.HasEdge f' c' t' ∧ ¬ (f' = f ∧ c' = c) := by
  rw [HasEdge, h.edges, HasEdge]
  split
  · simp [*]
  · simp [*]

theorem Graph.Disconnected.mem_backs (h : Disconnected g g' f c t) (hshape : g.Shape)
    {s u : String} : s ∈ g'.backs u ↔ s ∈ g.backs u ∧ ¬ (s = f ∧ u = t) := by
  rw [h.backs]
  split
  · rename_i hu
    subst hu
    rw [List.mem_filter]
    constructor
    · rintro ⟨hs, hne⟩
      refine ⟨hs, fun heq => ?_⟩
      simp [heq.1] at hne
    · rintro ⟨hs, hne⟩
      refine ⟨hs, ?_⟩
      have hsf : s ≠ f := fun heq => hne ⟨heq, rfl⟩
      simp [hshape.live u s hs, hsf]
  · rename_i hu
    simp [hu]

/-- The channel has the edge alone, and no other channel leads there. -/
theorem Graph.Mirrored.disconnect (hmirrored : g.Mirrored) (hshape : g.Shape)
    (h : Disconnected g g' f c t) (halone : (g.edges f c).map GraphEdge.next = [t])
    (hother : ∀ c', c' ≠ c → ¬ g.HasEdge f c' t) : g'.Mirrored := by
  have honly : ∀ u, g.HasEdge f c u → u = t := by
    rintro u ⟨e, he, rfl⟩
    have hmem : e.next ∈ (g.edges f c).map GraphEdge.next := List.mem_map_of_mem he
    rwa [halone, List.mem_singleton] at hmem
  intro s u
  rw [h.mem_backs hshape, hmirrored s u]
  simp only [h.hasEdge]
  constructor
  · rintro ⟨⟨c', hc'⟩, hne⟩
    refine ⟨c', hc', ?_⟩
    rintro ⟨rfl, rfl⟩
    exact hne ⟨rfl, honly u hc'⟩
  · rintro ⟨c', hc', hne⟩
    refine ⟨⟨c', hc'⟩, ?_⟩
    rintro ⟨rfl, rfl⟩
    exact hother c' (fun heq => hne ⟨rfl, heq⟩) hc'

/-- A call that meets the condition keeps back edges and edges in step. -/
theorem Graph.Mirrored.step (hmirrored : g.Mirrored) (hshape : g.Shape) {call : BuildCall}
    (hexact : ∀ f c t, call = .disconnect f c t → DisconnectExact g f c t)
    (hstep : BuildStep g call g') : g'.Mirrored := by
  cases hstep with
  | createNode hsame => exact hmirrored.sameWiring hsame
  | setNodeInstance hsame => exact hmirrored.sameWiring hsame
  | connect hconnected => exact hmirrored.connect hconnected hshape
  | nothing => exact hmirrored
  | @disconnect f c t _ hf _ hedge hdisconnected =>
    obtain ⟨halone, hother⟩ := (hexact f c t rfl hf).2.resolve_left hedge
    exact hmirrored.disconnect hshape hdisconnected halone hother

/-- **Removing an edge removes the channel.**  `a` has edges to `b` and to `c` on `out`, and
disconnecting `b` takes away the one to `c` too. -/
theorem not_removesExactly_fanOut :
    ¬ ∀ g, buildMachine.Reachable Machine.free {} g → ∀ f c t, RemovesExactly g f c t := by
  intro h
  obtain ⟨g', hok, hedges, -⟩ :=
    h fanOutGraph ⟨_, fanOutGraph_run.mono fun _ _ _ => trivial⟩ "a" "out" "b"
  have hgone :
      (fanOutGraph.disconnect "a" "out" "b").toOption.map (·.edges "a" "out") = some [] := by
    decide +kernel
  have hkept : ((fanOutGraph.edges "a" "out").filter fun e =>
      ¬ ("a" = "a" ∧ "out" = "out" ∧ e.next = "b")) = [⟨"out", "c", .alwaysQueue⟩] := by
    decide +kernel
  rw [hok] at hgone
  have hnil : g'.edges "a" "out" = [] := Option.some.inj hgone
  rw [hedges "a" "out", hkept] at hnil
  cases hnil

/-- Every disconnect meets the condition in the graph it is called on. -/
def disconnectsExactly (g : Graph) (call : BuildCall) : Prop :=
  ∀ f c t, call = .disconnect f c t → DisconnectExact g f c t

theorem mirrored_of_reachable (h : buildMachine.Reachable disconnectsExactly {} g) :
    g.Mirrored :=
  invariant_of_reachable h mirrored_empty fun _ _ _ hshape hmirrored hok hs =>
    hmirrored.step hshape hok (buildStep_cases hshape.nonempty hs)

/-- The edges of a channel that has the edge alone. -/
theorem edges_alone (halone : (g.edges f c).map GraphEdge.next = [t]) {e : GraphEdge}
    (he : e ∈ g.edges f c) : e.next = t := by
  have hmem : e.next ∈ (g.edges f c).map GraphEdge.next := List.mem_map_of_mem he
  rwa [halone, List.mem_singleton] at hmem

/-- Different targets that are all the same are one target. -/
theorem map_next_singleton {es : List GraphEdge} (honce : (es.map GraphEdge.next).Nodup)
    (hne : es ≠ []) (hall : ∀ e ∈ es, e.next = t) : es.map GraphEdge.next = [t] := by
  match es, hne with
  | [e], _ => rw [List.map_singleton, hall e (List.mem_singleton_self e)]
  | e :: e' :: rest, _ =>
    have hsame : e.next = e'.next := by rw [hall e (by simp), hall e' (by simp)]
    simp [hsame] at honce

theorem removesExactly_of_nothing (hmirrored : g.Mirrored)
    (h : g.disconnect f c t = .ok g) (hedge : ¬ g.HasEdge f c t) : RemovesExactly g f c t := by
  refine ⟨g, h, fun f' c' => (List.filter_eq_self.2 fun e he => ?_).symm, fun _ => rfl, hmirrored⟩
  rw [decide_eq_true_eq]
  rintro ⟨rfl, rfl, hnext⟩
  exact hedge ⟨e, he, hnext⟩

theorem removesExactly_of_exact (hshape : g.Shape) (hmirrored : g.Mirrored)
    (hexact : DisconnectExact g f c t) : RemovesExactly g f c t := by
  cases hf : g.hasNode f with
  | false =>
    refine removesExactly_of_nothing hmirrored (disconnect_of_unknown hf) ?_
    rintro ⟨e, he, -⟩
    have hnone : g.getNode f = none :=
      Option.isSome_eq_false_iff.1 hf |> Option.isNone_iff_eq_none.1
    simp [edges, hnone] at he
  | true =>
    obtain ⟨ht, hempty | ⟨halone, hother⟩⟩ := hexact hf
    · refine removesExactly_of_nothing hmirrored
        (disconnect_of_empty hshape.nonempty hf ht hempty) ?_
      rintro ⟨e, he, -⟩
      simp [hempty] at he
    · have hne : g.edges f c ≠ [] := by
        rintro hnil
        simp [hnil] at halone
      have hedge : g.HasEdge f c t := by
        obtain ⟨e, he⟩ := List.exists_mem_of_ne_nil _ hne
        exact ⟨e, he, edges_alone halone he⟩
      obtain ⟨g', hok, hdisconnected⟩ := disconnect_of_edge hf ht hne
      refine ⟨g', hok, fun f' c' => ?_, ?_,
        hmirrored.disconnect hshape hdisconnected halone hother⟩
      · rw [hdisconnected.edges]
        split
        · rename_i heq
          obtain ⟨rfl, rfl⟩ := heq
          refine (List.filter_eq_nil_iff.2 fun e he => ?_).symm
          simp [edges_alone halone he]
        · rename_i hother
          refine (List.filter_eq_self.2 fun e _ => ?_).symm
          rw [decide_eq_true_eq]
          exact fun heq => hother ⟨heq.1, heq.2.1⟩
      · rintro (hunknown | hunknown | hnone)
        · rw [hf] at hunknown
          cases hunknown
        · rw [ht] at hunknown
          cases hunknown
        · exact absurd hedge hnone

theorem exact_of_removesExactly (hshape : g.Shape) (h : RemovesExactly g f c t) :
    DisconnectExact g f c t := by
  obtain ⟨g', hok, hedges, -, hmirrored⟩ := h
  intro hf
  have ht : g.hasNode t = true := by
    by_contra hunknown
    rw [disconnect_of_unknown_target hf (Bool.not_eq_true _ ▸ hunknown)] at hok
    cases hok
  refine ⟨ht, ?_⟩
  by_cases hempty : g.edges f c = []
  · exact .inl hempty
  obtain ⟨g'', hok', hdisconnected⟩ := disconnect_of_edge hf ht hempty
  obtain rfl : g' = g'' := Except.ok.inj (hok.symm.trans hok')
  -- the whole channel is gone, so all its edges were the one to remove
  have hall : ∀ e ∈ g.edges f c, e.next = t := by
    have hgone := hedges f c
    rw [hdisconnected.edges, if_pos ⟨rfl, rfl⟩, eq_comm, List.filter_eq_nil_iff] at hgone
    intro e he
    simpa using hgone e he
  refine .inr ⟨?_, fun c' hc' hedge => ?_⟩
  · exact map_next_singleton (hshape.once f c) hempty hall
  · -- the other channel keeps its edge, and the back edge is gone
    have hkept : g'.HasEdge f c' t := hdisconnected.hasEdge.2 ⟨hedge, fun heq => hc' heq.2⟩
    have hback := (hmirrored f t).2 ⟨c', hkept⟩
    exact ((hdisconnected.mem_backs hshape).1 hback).2 ⟨rfl, rfl⟩

/-- **When `disconnect` removes exactly one edge.** -/
theorem removesExactly_iff (h : buildMachine.Reachable disconnectsExactly {} g) (f c t : String) :
    RemovesExactly g f c t ↔ DisconnectExact g f c t := by
  have hshape := shape_of_reachable h
  exact ⟨exact_of_removesExactly hshape,
    removesExactly_of_exact hshape (mirrored_of_reachable h)⟩

/-- The edge from `a` to `b` alone. -/
def singleEdgeCalls : List BuildCall :=
  [.createNode "a" false true, .createNode "b" true false, .setNodeInstance "a" "i",
    .setNodeInstance "b" "j", .connect "a" "out" "b" .pushDirectlyToTarget]

/-- The graph the calls build. -/
def singleEdgeGraph : Graph :=
  (buildMachine.exec (fun _ call => call.builds) {} singleEdgeCalls).getD {}

theorem removesExactly_iff_singleEdge : ¬ RemovesExactly singleEdgeGraph "a" "out" "c" := by
  have hreachable : buildMachine.Reachable disconnectsExactly {} singleEdgeGraph :=
    (Machine.reachable_exec (by decide)).mono fun u call hbuilds f c t hcall => by
      rw [hcall] at hbuilds
      cases hbuilds
  refine fun h => ?_
  have hexact := (removesExactly_iff hreachable "a" "out" "c").1 h (by decide)
  exact absurd hexact.1 (by decide)

end Maplang
