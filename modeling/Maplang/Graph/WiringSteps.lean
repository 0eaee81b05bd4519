import Maplang.Graph.Wiring

/-!
# What the calls that build a graph can do

`BuildStep g call g'` lists what a call that returns can do, in terms of the edges and the back
edges of the graph.  `buildStep_cases` says the list is complete; what holds of every graph that is
built is proved by going through it.

## Main definitions

* `Graph.withEdge` : the edges of a channel after `connect`.
* `Graph.SameWiring`, `Graph.Connected`, `Graph.Disconnected` : what the calls make of a graph.

## Main results

* `Graph.connect_spec`, `Graph.disconnect_of_edge` : what `connect` and `disconnect` do.
* `buildStep_cases` : every call that returns does what is listed.
* `shape_of_reachable` : every graph that is built has the right shape.
-/

namespace Maplang

namespace Graph

variable {g : Graph}

/-! ### Connecting -/

/-- The edges of a channel after `connect`. -/
def withEdge (es : List GraphEdge) (e : GraphEdge) : List GraphEdge :=
  match es.findIdx? fun edge => edge.next = e.next with
  | some i => assignType i e.sameThreadQueueToTargetType es
  | none => es ++ [e]

theorem withEdge_cases (es : List GraphEdge) (e : GraphEdge) :
    (∃ pre old post, es = pre ++ old :: post ∧ old.next = e.next ∧ withEdge es e = pre ++
      { old with sameThreadQueueToTargetType := e.sameThreadQueueToTargetType } :: post) ∨
    (∀ x ∈ es, x.next ≠ e.next) ∧ withEdge es e = es ++ [e] := by
  unfold withEdge
  cases hfind : es.findIdx? fun edge => edge.next = e.next with
  | none => exact .inr ⟨by simpa [List.findIdx?_eq_none_iff] using hfind, rfl⟩
  | some i =>
    obtain ⟨hi, hnext, -⟩ := List.findIdx?_eq_some_iff_getElem.1 hfind
    obtain ⟨pre, old, post, heq, hlength, hmodify⟩ := List.exists_of_modify (fun edge : GraphEdge =>
      { edge with sameThreadQueueToTargetType := e.sameThreadQueueToTargetType }) hi
    refine .inl ⟨pre, old, post, heq, ?_, hmodify⟩
    subst heq hlength
    simpa using hnext

theorem map_next_withEdge (es : List GraphEdge) (e : GraphEdge) :
    (withEdge es e).map GraphEdge.next =
      if e.next ∈ es.map GraphEdge.next then es.map GraphEdge.next
      else es.map GraphEdge.next ++ [e.next] := by
  rcases withEdge_cases es e with ⟨pre, old, post, rfl, hnext, hwith⟩ | ⟨hnone, hwith⟩
  · simp [hwith, hnext]
  · have hnot : e.next ∉ es.map GraphEdge.next := by simpa using hnone
    simp [hwith, hnot]

theorem assigned_eq {old e : GraphEdge} (hchannel : old.channel = e.channel)
    (hnext : old.next = e.next) :
    { old with sameThreadQueueToTargetType := e.sameThreadQueueToTargetType } = e := by
  cases old
  cases e
  cases hchannel
  cases hnext
  rfl

/-- Among edges with different targets, the new edge replaces the one with the same target, or is
added behind them. -/
theorem withEdge_once {es : List GraphEdge} {e : GraphEdge} (honce : (es.map GraphEdge.next).Nodup)
    (hchannel : ∀ x ∈ es, x.channel = e.channel) :
    (∃ pre old post, es = pre ++ old :: post ∧ old.next = e.next ∧
      (∀ x ∈ pre ++ post, x.next ≠ e.next) ∧ withEdge es e = pre ++ e :: post) ∨
    (∀ x ∈ es, x.next ≠ e.next) ∧ withEdge es e = es ++ [e] := by
  rcases withEdge_cases es e with ⟨pre, old, post, rfl, hnext, hwith⟩ | hnew
  · rw [assigned_eq (hchannel old (by simp)) hnext] at hwith
    rw [List.map_append, List.map_cons, List.nodup_middle, List.nodup_cons, hnext,
      ← List.map_append] at honce
    exact .inl ⟨pre, old, post, rfl, hnext,
      fun x hx heq => honce.1 (List.mem_map.2 ⟨x, hx, heq⟩), hwith⟩
  · exact .inr hnew

theorem mem_withEdge {es : List GraphEdge} {e x : GraphEdge} (honce : (es.map GraphEdge.next).Nodup)
    (hchannel : ∀ x ∈ es, x.channel = e.channel) :
    x ∈ withEdge es e ↔ x = e ∨ x ∈ es ∧ x.next ≠ e.next := by
  rcases withEdge_once honce hchannel with
    ⟨pre, old, post, rfl, hnext, hothers, hwith⟩ | ⟨hnone, hwith⟩
  · rw [hwith]
    simp only [List.mem_append, List.mem_cons] at hothers ⊢
    constructor
    · rintro (hx | rfl | hx)
      · exact .inr ⟨.inl hx, hothers x (.inl hx)⟩
      · exact .inl rfl
      · exact .inr ⟨.inr (.inr hx), hothers x (.inr hx)⟩
    · rintro (rfl | ⟨hx | rfl | hx, hne⟩)
      · exact .inr (.inl rfl)
      · exact .inl hx
      · exact absurd hnext hne
      · exact .inr (.inr hx)
  · rw [hwith, List.mem_append, List.mem_singleton]
    constructor
    · rintro (hx | rfl)
      · exact .inr ⟨hx, hnone x hx⟩
      · exact .inl rfl
    · rintro (rfl | ⟨hx, -⟩)
      · exact .inr rfl
      · exact .inl hx

theorem assignType_concat (es : List GraphEdge) (e : GraphEdge) (type : PacketDeliveryType) :
    assignType es.length type (es ++ [e]) =
      es ++ [{ e with sameThreadQueueToTargetType := type }] := by
  unfold assignType
  induction es with
  | nil => rfl
  | cons x es ih => rw [List.length_cons, List.cons_append, List.modify_succ_cons, ih]; rfl

/-- What `DataGraph::connect` makes of a graph. -/
structure Connected (g g' : Graph) (f c t : String) (type : PacketDeliveryType) : Prop where
  source : g.hasNode f = true
  known : g.hasNode t = true
  attributes : ∀ n, g'.attributes n = g.attributes n
  edges : ∀ f' c', g'.edges f' c' =
    if f' = f ∧ c' = c then withEdge (g.edges f c) ⟨c, t, type⟩ else g.edges f' c'
  backs : ∀ u, g'.backs u =
    if u = t ∧ ¬ g.HasEdge f c t then g.addBackEdge f (g.backs t) else g.backs u
  nonempty : g.NoEmptyChannel → g'.NoEmptyChannel

/-- The edge is there, and its delivery type is assigned. -/
theorem connected_of_found {f c t : String} {type : PacketDeliveryType} (hf : g.hasNode f = true)
    (ht : g.hasNode t = true) {i : ℕ}
    (hfind : (g.edges f c).findIdx? (fun edge => edge.next = t) = some i) :
    Connected g (g.modifyNode f (·.writeChannel c (assignType i type))) f c t type := by
  obtain ⟨hi, hnext, -⟩ := List.findIdx?_eq_some_iff_getElem.1 hfind
  have hedge : g.HasEdge f c t := ⟨_, List.getElem_mem hi, by simpa using hnext⟩
  constructor
  case source => exact hf
  case known => exact ht
  case attributes => simp
  case edges => simp [hf, withEdge, hfind]
  case backs => simp [hedge]
  case nonempty =>
    refine fun h => h.writeChannel (List.ne_nil_of_length_pos ?_)
    rw [assignType, List.length_modify]
    omega

/-- The edge is new. -/
theorem connected_of_new {f c t : String} {type : PacketDeliveryType} (hf : g.hasNode f = true)
    (ht : g.hasNode t = true)
    (hfind : (g.edges f c).findIdx? (fun edge => edge.next = t) = none) :
    let g₁ := g.modifyNode f (·.writeChannel c (· ++ [{ channel := c, next := t }]))
    let g₂ := g₁.modifyNode t (·.writeBackEdges (g₁.addBackEdge f))
    Connected g (g₂.modifyNode f (·.writeChannel c (assignType (g.edges f c).length type)))
      f c t type := by
  intro g₁ g₂
  have hnew : ¬ g.HasEdge f c t := by
    rintro ⟨e, he, hnext⟩
    have hnone := List.findIdx?_eq_none_iff.1 hfind e he
    simp [hnext] at hnone
  constructor
  case source => exact hf
  case known => exact ht
  case attributes => simp [g₁, g₂]
  case edges =>
    intro f' c'
    by_cases h : f' = f ∧ c' = c
    · simp [g₁, g₂, h, hf, assignType_concat, withEdge, hfind]
    · simp only [g₁, g₂, edges_writeChannel, edges_writeBackEdges, hasNode_modifyNode, hf, and_true,
        if_neg h]
  case backs =>
    have hback : g₁.addBackEdge f = g.addBackEdge f := by
      funext bs
      exact addBackEdge_congr (fun n => hasNode_modifyNode _) f bs
    simp [g₁, g₂, ht, hnew, ← hback]
  case nonempty =>
    refine fun h => ((h.writeChannel ?_).writeBackEdges _).writeChannel ?_
    · simp
    · refine List.ne_nil_of_length_pos ?_
      simp [g₁, hf, assignType]

/-- **What `DataGraph::connect` does.** -/
theorem connect_spec {g' : Graph} {f c t : String} {type : PacketDeliveryType}
    (h : DataGraph.connect g f c t type = .ok g') : Connected g g' f c t type := by
  unfold DataGraph.connect at h
  obtain ⟨_, -, h⟩ := bind_eq_ok.1 h
  obtain ⟨⟨g₁, i⟩, hconnect, h⟩ := bind_eq_ok.1 h
  obtain rfl := Except.ok.inj h
  unfold Graph.connect at hconnect
  cases hfrom : g.getNode f with
  | none => simp [hfrom] at hconnect
  | some fromNode =>
    cases hto : g.getNode t with
    | none => simp [hfrom, hto] at hconnect
    | some toNode =>
      have hf : g.hasNode f = true := Option.isSome_of_eq_some hfrom
      have ht : g.hasNode t = true := Option.isSome_of_eq_some hto
      simp only [hfrom, hto, edges_of_getNode hfrom] at hconnect
      cases hfind : (g.edges f c).findIdx? fun edge => edge.next = t with
      | some j =>
        simp only [hfind, Except.ok.injEq, Prod.mk.injEq] at hconnect
        obtain ⟨rfl, rfl⟩ := hconnect
        exact connected_of_found hf ht hfind
      | none =>
        simp only [hfind, Except.ok.injEq, Prod.mk.injEq] at hconnect
        obtain ⟨rfl, rfl⟩ := hconnect
        exact connected_of_new hf ht hfind

/-! ### The other calls -/

/-- No edge and no back edge changes, and no node is lost. -/
structure SameWiring (g g' : Graph) : Prop where
  known : ∀ n, g.hasNode n = true → g'.hasNode n = true
  edges : ∀ f c, g'.edges f c = g.edges f c
  backs : ∀ t, g'.backs t = g.backs t
  nonempty : g.NoEmptyChannel → g'.NoEmptyChannel

/-- A node that is made was not there. -/
theorem getNode_of_create {g' : Graph} {name : String} {allowIncoming allowOutgoing : Bool}
    (h : g.createGraphNode name allowIncoming allowOutgoing = .ok g') : g.getNode name = none ∧
    ∀ m, g'.getNode m = if m = name then
      some { name, instanceName := "", allowsIncomingConnections := allowIncoming,
             allowsOutgoingConnections := allowOutgoing } else g.getNode m := by
  unfold createGraphNode at h
  cases hnode : g.mNameToNodeMap.lookup name with
  | some node => simp [hnode, throwRuntimeError] at h
  | none =>
    simp only [hnode, Except.ok.injEq] at h
    refine ⟨hnode, fun m => ?_⟩
    rw [← h, getNode]
    by_cases hm : m = name
    · subst hm
      rw [if_pos rfl, AList.lookup_insert]
    · rw [if_neg hm, AList.lookup_insert_ne hm, getNode]

theorem createGraphNode_spec {g' : Graph} {name : String} {allowIncoming allowOutgoing : Bool}
    (h : g.createGraphNode name allowIncoming allowOutgoing = .ok g') : SameWiring g g' := by
  obtain ⟨hnone, hget⟩ := getNode_of_create h
  constructor
  case known =>
    intro n hn
    rw [hasNode, ← getNode, hget]
    split
    · rfl
    · exact hn
  case edges =>
    intro f c
    rw [Graph.edges, Graph.edges, hget]
    split
    · rename_i hf
      rw [hf, hnone]
      rfl
    · rfl
  case backs =>
    intro t
    rw [Graph.backs, Graph.backs, hget]
    split
    · rename_i ht
      rw [ht, hnone]
      rfl
    · rfl
  case nonempty =>
    intro hnonempty n node c es hn hes
    rw [hget] at hn
    split at hn
    · obtain rfl := Option.some.inj hn
      cases hes
    · exact hnonempty n node c es hn hes

theorem modifyNode_of_setInstance {g' : Graph} {nodeName instanceName : String}
    (h : DataGraph.setNodeInstance g nodeName instanceName = .ok g') :
    g' = g.modifyNode nodeName fun node => { node with instanceName } := by
  unfold DataGraph.setNodeInstance at h
  obtain ⟨node, -, h⟩ := bind_eq_ok.1 h
  exact (Except.ok.inj h).symm

theorem setNodeInstance_spec {g' : Graph} {nodeName instanceName : String}
    (h : DataGraph.setNodeInstance g nodeName instanceName = .ok g') : SameWiring g g' := by
  obtain rfl := modifyNode_of_setInstance h
  constructor
  case known => simp
  case edges =>
    intro f c
    rw [Graph.edges, Graph.edges, getNode_modifyNode]
    split
    · rename_i hf
      subst hf
      cases g.getNode f <;> rfl
    · rfl
  case backs =>
    intro t
    rw [Graph.backs, Graph.backs, getNode_modifyNode]
    split
    · rename_i ht
      subst ht
      cases g.getNode t <;> rfl
    · rfl
  case nonempty => exact fun hnonempty => noEmptyChannel_modifyNode hnonempty fun _ _ _ _ => .inl

/-! ### Disconnecting -/

/-- What `disconnect` makes of a graph in which the channel has an edge. -/
structure Disconnected (g g' : Graph) (f c t : String) : Prop where
  attributes : ∀ n, g'.attributes n = g.attributes n
  edges : ∀ f' c', g'.edges f' c' = if f' = f ∧ c' = c then [] else g.edges f' c'
  backs : ∀ u, g'.backs u =
    if u = t then (g.backs t).filter fun b => g.hasNode b && b != f else g.backs u
  nonempty : g.NoEmptyChannel → g'.NoEmptyChannel

theorem disconnect_of_unknown {f c t : String} (hf : g.hasNode f = false) :
    g.disconnect f c t = .ok g := by
  simp [disconnect, hf]

/-- Only the source is tested; the target is not. -/
theorem disconnect_of_unknown_target {f c t : String} (hf : g.hasNode f = true)
    (ht : g.hasNode t = false) : g.disconnect f c t = .error .undefinedBehaviour := by
  have hnone : g.getNode t = none := Option.isSome_eq_false_iff.1 ht |> Option.isNone_iff_eq_none.1
  simp [disconnect, hf, hnone]

theorem disconnect_of_empty (hnonempty : g.NoEmptyChannel) {f c t : String}
    (hf : g.hasNode f = true) (ht : g.hasNode t = true) (hempty : g.edges f c = []) :
    g.disconnect f c t = .ok g := by
  obtain ⟨fromNode, hfrom⟩ := getNode_of_hasNode hf
  obtain ⟨toNode, hto⟩ := getNode_of_hasNode ht
  cases hes : fromNode.forwardEdges.lookup c with
  | none => simp [disconnect, hf, hfrom, hto, hes]
  | some es =>
    rw [← edges_of_getNode hfrom, hes, Option.getD_some] at hempty
    exact absurd hempty (hnonempty f fromNode c es hfrom hes)

theorem disconnect_of_edge {f c t : String} (hf : g.hasNode f = true) (ht : g.hasNode t = true)
    (hedge : g.edges f c ≠ []) : ∃ g', g.disconnect f c t = .ok g' ∧ Disconnected g g' f c t := by
  obtain ⟨fromNode, hfrom⟩ := getNode_of_hasNode hf
  obtain ⟨toNode, hto⟩ := getNode_of_hasNode ht
  cases hes : fromNode.forwardEdges.lookup c with
  | none =>
    rw [← edges_of_getNode hfrom, hes] at hedge
    exact absurd rfl hedge
  | some es =>
    have hdisconnect : g.disconnect f c t = .ok ((g.modifyNode t
        (·.writeBackEdges (·.filter fun b => g.hasNode b && b != f))).modifyNode f
          (·.eraseChannel c)) := by
      simp [disconnect, hf, hfrom, hto, hes]
    refine ⟨_, hdisconnect, ?_, ?_, ?_, ?_⟩
    · simp
    · simp
    · simp [ht]
    · exact fun h => (h.writeBackEdges _).eraseChannel

end Graph

/-! ### Steps -/

open Maplang.Graph

/-- What a call can do. -/
inductive BuildStep (g : Graph) : BuildCall → Graph → Prop
  | createNode {name : String} {allowIncoming allowOutgoing : Bool} {g' : Graph} :
      SameWiring g g' → BuildStep g (.createNode name allowIncoming allowOutgoing) g'
  | setNodeInstance {nodeName instanceName : String} {g' : Graph} :
      SameWiring g g' → BuildStep g (.setNodeInstance nodeName instanceName) g'
  | connect {f c t : String} {type : PacketDeliveryType} {g' : Graph} :
      Connected g g' f c t type → BuildStep g (.connect f c t type) g'
  | nothing {f c t : String} :
      g.hasNode f = false ∨ g.hasNode t = true ∧ g.edges f c = [] →
      BuildStep g (.disconnect f c t) g
  | disconnect {f c t : String} {g' : Graph} :
      g.hasNode f = true → g.hasNode t = true → g.edges f c ≠ [] → Disconnected g g' f c t →
      BuildStep g (.disconnect f c t) g'

variable {g g' : Graph}

theorem perform_of_step {call : BuildCall} (h : buildMachine.step g call = some g') :
    call.perform g = .ok g' := by
  unfold buildMachine at h
  cases hperform : call.perform g with
  | error fault => simp [hperform, Except.toOption] at h
  | ok g'' => simpa [hperform, Except.toOption] using h

/-- **Every call that returns does one of these.** -/
theorem buildStep_cases (hnonempty : g.NoEmptyChannel) {call : BuildCall}
    (h : buildMachine.step g call = some g') : BuildStep g call g' := by
  have hok := perform_of_step h
  cases call with
  | createNode name allowIncoming allowOutgoing => exact .createNode (createGraphNode_spec hok)
  | setNodeInstance nodeName instanceName => exact .setNodeInstance (setNodeInstance_spec hok)
  | connect f c t type => exact .connect (connect_spec hok)
  | disconnect f c t =>
    rw [BuildCall.perform] at hok
    cases hf : g.hasNode f with
    | false =>
      rw [disconnect_of_unknown hf, Except.ok.injEq] at hok
      exact hok ▸ .nothing (.inl hf)
    | true =>
      cases ht : g.hasNode t with
      | false =>
        rw [disconnect_of_unknown_target hf ht] at hok
        cases hok
      | true =>
        by_cases hempty : g.edges f c = []
        · rw [disconnect_of_empty hnonempty hf ht hempty, Except.ok.injEq] at hok
          exact hok ▸ .nothing (.inr ⟨ht, hempty⟩)
        · obtain ⟨g'', hg'', hdisconnected⟩ := disconnect_of_edge hf ht hempty
          rw [hg'', Except.ok.injEq] at hok
          exact .disconnect hf ht hempty (hok ▸ hdisconnected)

/-! ### The shape of a graph -/

theorem mem_addBackEdge {bs : List String} (hlive : ∀ b ∈ bs, g.hasNode b = true) {s b : String} :
    b ∈ g.addBackEdge s bs ↔ b ∈ bs ∨ b = s := by
  rw [addBackEdge, List.filter_eq_self.2 hlive]
  split
  · rename_i hs
    exact ⟨.inl, fun h => h.elim id fun hb => hb ▸ hs⟩
  · simp

theorem nodup_addBackEdge {bs : List String} (hnodup : bs.Nodup) (s : String) :
    (g.addBackEdge s bs).Nodup := by
  rw [addBackEdge]
  split
  · exact hnodup.filter _
  · rw [← List.concat_eq_append]
    exact (hnodup.filter _).concat ‹_›

theorem Graph.Shape.sameWiring (h : g.Shape) (hsame : SameWiring g g') : g'.Shape where
  nonempty := hsame.nonempty h.nonempty
  channel f c e he := h.channel f c e (hsame.edges f c ▸ he)
  target f c e he := hsame.known _ (h.target f c e (hsame.edges f c ▸ he))
  once f c := by
    rw [hsame.edges]
    exact h.once f c
  backOnce t := by
    rw [hsame.backs]
    exact h.backOnce t
  live t b hb := hsame.known _ (h.live t b (hsame.backs t ▸ hb))

theorem Graph.Shape.connect (h : g.Shape) {f c t : String} {type : PacketDeliveryType}
    (hconnected : Connected g g' f c t type) : g'.Shape := by
  have hknown : ∀ n, g'.hasNode n = g.hasNode n := fun n => by
    rw [hasNode_eq, hasNode_eq, hconnected.attributes]
  have hmem : ∀ {f' c' e}, e ∈ g'.edges f' c' →
      e ∈ g.edges f' c' ∨ f' = f ∧ c' = c ∧ e = ⟨c, t, type⟩ := by
    intro f' c' e he
    rw [hconnected.edges] at he
    split at he
    · rename_i heq
      obtain ⟨rfl, rfl⟩ := heq
      rcases (mem_withEdge (h.once f' c') (h.channel f' c')).1 he with rfl | ⟨hold, -⟩
      · exact .inr ⟨rfl, rfl, rfl⟩
      · exact .inl hold
    · exact .inl he
  constructor
  case nonempty => exact hconnected.nonempty h.nonempty
  case channel =>
    intro f' c' e he
    rcases hmem he with hold | ⟨rfl, rfl, rfl⟩
    · exact h.channel f' c' e hold
    · rfl
  case target =>
    intro f' c' e he
    rw [hknown]
    rcases hmem he with hold | ⟨rfl, rfl, rfl⟩
    · exact h.target f' c' e hold
    · exact hconnected.known
  case once =>
    intro f' c'
    rw [hconnected.edges]
    split
    · rw [map_next_withEdge]
      split
      · exact h.once f c
      · rw [← List.concat_eq_append]
        exact (h.once f c).concat ‹_›
    · exact h.once f' c'
  case backOnce =>
    intro u
    rw [hconnected.backs]
    split
    · exact nodup_addBackEdge (h.backOnce t) f
    · exact h.backOnce u
  case live =>
    intro u b hb
    rw [hknown]
    rw [hconnected.backs] at hb
    split at hb
    · rcases (mem_addBackEdge (h.live t)).1 hb with hold | rfl
      · exact h.live t b hold
      · exact hconnected.source
    · exact h.live u b hb

theorem Graph.Shape.disconnect (h : g.Shape) {f c t : String}
    (hdisconnected : Disconnected g g' f c t) : g'.Shape := by
  have hknown : ∀ n, g'.hasNode n = g.hasNode n := fun n => by
    rw [hasNode_eq, hasNode_eq, hdisconnected.attributes]
  have hedges : ∀ f' c', g'.edges f' c' = [] ∨ g'.edges f' c' = g.edges f' c' := fun f' c' => by
    rw [hdisconnected.edges]
    split
    · exact .inl rfl
    · exact .inr rfl
  have hbacks : ∀ u, (g'.backs u).Sublist (g.backs u) := fun u => by
    rw [hdisconnected.backs]
    split
    · rename_i hu
      rw [hu]
      exact List.filter_sublist
    · exact List.Sublist.refl _
  constructor
  case nonempty => exact hdisconnected.nonempty h.nonempty
  case channel =>
    intro f' c' e he
    rcases hedges f' c' with hnil | hsame
    · simp [hnil] at he
    · exact h.channel f' c' e (hsame ▸ he)
  case target =>
    intro f' c' e he
    rw [hknown]
    rcases hedges f' c' with hnil | hsame
    · simp [hnil] at he
    · exact h.target f' c' e (hsame ▸ he)
  case once =>
    intro f' c'
    rcases hedges f' c' with hnil | hsame
    · simp [hnil]
    · exact hsame ▸ h.once f' c'
  case backOnce => exact fun u => (hbacks u).nodup (h.backOnce u)
  case live => exact fun u b hb => (hknown b).trans (h.live u b ((hbacks u).subset hb))

theorem shape_empty : ({} : Graph).Shape := by
  constructor <;> simp [NoEmptyChannel, edges, backs, getNode]

theorem Graph.Shape.step (h : g.Shape) {call : BuildCall} (hstep : BuildStep g call g') :
    g'.Shape := by
  cases hstep with
  | createNode hsame => exact h.sameWiring hsame
  | setNodeInstance hsame => exact h.sameWiring hsame
  | connect hconnected => exact h.connect hconnected
  | nothing => exact h
  | disconnect _ _ _ hdisconnected => exact h.disconnect hdisconnected

/-- **Every graph that is built has the right shape**, whatever the calls. -/
theorem shape_of_reachable {ok : Graph → BuildCall → Prop} (h : buildMachine.Reachable ok {} g) :
    g.Shape :=
  h.invariant shape_empty fun _ _ _ hu _ hs => hu.step (buildStep_cases hu.nonempty hs)

/-- What calls keep of graphs of the right shape holds of every graph that is built. -/
theorem invariant_of_reachable {ok : Graph → BuildCall → Prop} {I : Graph → Prop}
    (h : buildMachine.Reachable ok {} g) (h₀ : I {})
    (hstep : ∀ u call u', u.Shape → I u → ok u call → buildMachine.step u call = some u' → I u') :
    I g := by
  have hinv : g.Shape ∧ I g := by
    refine h.invariant (I := fun u => u.Shape ∧ I u) ⟨shape_empty, h₀⟩
      fun u call u' hu hok hs => ?_
    exact ⟨hu.1.step (buildStep_cases hu.1.nonempty hs), hstep u call u' hu.1 hu.2 hok hs⟩
  exact hinv.2

end Maplang
