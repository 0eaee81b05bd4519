import Maplang.Graph.Admission
import Maplang.Text.Dot

/-!
# Exporting a graph

`DotExporter::ExportGraph` writes a graph in the DOT language, one line for each edge, with its
channel as the label.  Names are put between quotes as they are, and the digraph is a strict one,
which has one edge from a node to another.  So what the text denotes is the graph only if no name
has a quote or ends with a backslash, and no two channels join the same nodes.

A character of a name stands for one `char` of the `std::string`.

## Main definitions

* `DotExporter.ExportGraph` : the code.
* `IsDataGraph` : the graphs that calls lead to, with their maps in any order.
* `DenotesSameEdges` : the text denotes the edges of the graph.
* `Exportable` : when it does.

## Main results

* `DotExporter.ExportGraph_eq` : what is written.
* `denotesSameEdges_iff` : when the text denotes the edges of the graph.
-/

namespace Maplang

open Maplang.Graph

/-! ### The code -/

namespace DotExporter

variable (g : Graph)

/-- `nodeToNameMap`; a pointer to a node is the name it is known by. -/
def nodeToNameMap : UnorderedMap String String :=
  g.mNameToNodeMap.entries.foldl (fun names entry => names.put entry.1 entry.2.name) ∅

/-- The line of an edge. -/
def exportEdge (names : UnorderedMap String String) (name : String) (out : List Char)
    (edge : GraphEdge) : Code (List Char) :=
  match names.lookup edge.next with
  -- `operator[]` adds to the map while it is iterated
  | none => .error .undefinedBehaviour
  | some otherElementName =>
    let out := out ++ "    \"".toList ++ name.toList ++ "\" -> \"".toList ++
      otherElementName.toList ++ "\"".toList
    let out :=
      if edge.channel = "" then out
      else out ++ " [label=\"".toList ++ edge.channel.toList ++ "\"]".toList
    .ok (out ++ "\n".toList)

/-- The loops over the edges of an element. -/
def exportElement (out : List Char) (elementNamePair : Sigma fun _ : String => String) :
    Code (List Char) :=
  match g.getNode elementNamePair.1 with
  | none => .error .undefinedBehaviour
  | some element =>
    element.forwardEdges.entries.foldlM
      (fun out edgePair =>
        edgePair.2.foldlM (exportEdge (nodeToNameMap g) elementNamePair.2) out) out

/-- `DotExporter::ExportGraph`: the characters of the text. -/
def ExportGraph (graphName : String) : Code (List Char) := do
  let out := "strict digraph ".toList ++ graphName.toList ++ " \x7b\n".toList
  let out ← (nodeToNameMap g).entries.foldlM (exportElement g) out
  return out ++ "\x7d\n".toList

end DotExporter

open DotExporter

/-! ### What the text should denote -/

/-- A graph that calls lead to, up to the order in which its maps are visited. -/
def IsDataGraph (g : Graph) : Prop :=
  ∃ g₀, buildMachine.Reachable Machine.free {} g₀ ∧ g.Equiv g₀

/-- Under every name for the graph that can stand in the text, the text is written and read, and
denotes the edges of the graph with their channels. -/
def DenotesSameEdges (g : Graph) : Prop :=
  ∀ graphName : String, Dot.isIdentifier graphName.toList = true →
    ∃ text edges, ExportGraph g graphName = .ok text ∧ Dot.read text = some edges ∧
      ∀ f c t : String, Dot.strictLabel edges f.toList t.toList = some c.toList ↔ g.HasEdge f c t

/-- No source, channel or target has a quote or ends with a backslash, and no two channels lead from
one node to the same node. -/
def Exportable (g : Graph) : Prop :=
  (∀ f c t, g.HasEdge f c t → Dot.Plain f.toList ∧ Dot.Plain c.toList ∧ Dot.Plain t.toList) ∧
    ∀ f c c' t, g.HasEdge f c t → g.HasEdge f c' t → c = c'

/-- A node has the name it is known by. -/
def KnownByName (g : Graph) : Prop := ∀ n node, g.getNode n = some node → node.name = n

/-- What is exported of a data graph. -/
structure Named (g : Graph) : Prop where
  name : KnownByName g
  channel : ∀ f c, ∀ e ∈ g.edges f c, e.channel = c ∧ c ≠ ""
  target : ∀ f c, ∀ e ∈ g.edges f c, g.hasNode e.next = true

variable {g g' : Graph} {f c t : String}

/-! ### Data graphs -/

theorem KnownByName.of_attributes (hknown : KnownByName g)
    (h : ∀ n, g'.attributes n = g.attributes n) : KnownByName g' := by
  intro n node' hnode'
  have hn := h n
  rw [attributes, attributes, hnode', Option.map_some, eq_comm, Option.map_eq_some_iff] at hn
  obtain ⟨node, hnode, heq⟩ := hn
  exact (Prod.mk.inj heq).1.symm.trans (hknown n node hnode)

theorem KnownByName.createGraphNode (hknown : KnownByName g) {name : String}
    {allowIncoming allowOutgoing : Bool}
    (h : g.createGraphNode name allowIncoming allowOutgoing = .ok g') : KnownByName g' := by
  intro n node hnode
  rw [(getNode_of_create h).2] at hnode
  split at hnode
  · rename_i hn
    rw [← Option.some.inj hnode, hn]
  · exact hknown n node hnode

theorem KnownByName.setNodeInstance (hknown : KnownByName g) {nodeName instanceName : String}
    (h : DataGraph.setNodeInstance g nodeName instanceName = .ok g') : KnownByName g' := by
  obtain rfl := modifyNode_of_setInstance h
  intro n node hnode
  rw [getNode_modifyNode] at hnode
  split at hnode
  · rename_i hn
    obtain ⟨old, hold, rfl⟩ := Option.map_eq_some_iff.1 hnode
    exact (hknown nodeName old hold).trans hn.symm
  · exact hknown n node hnode

theorem KnownByName.step (hknown : KnownByName g) (hshape : g.Shape) {call : BuildCall}
    (h : buildMachine.step g call = some g') : KnownByName g' := by
  have hok := perform_of_step h
  cases call with
  | createNode name allowIncoming allowOutgoing => exact hknown.createGraphNode hok
  | setNodeInstance nodeName instanceName => exact hknown.setNodeInstance hok
  | connect f c t type => exact hknown.of_attributes (connect_spec hok).attributes
  | disconnect f c t =>
    cases buildStep_cases hshape.nonempty h with
    | nothing => exact hknown
    | disconnect _ _ _ hdisconnected => exact hknown.of_attributes hdisconnected.attributes

theorem knownByName_of_reachable (h : buildMachine.Reachable Machine.free {} g) :
    KnownByName g := by
  refine invariant_of_reachable h (fun n node hnode => ?_) fun _ _ _ hshape hknown _ hs =>
    hknown.step hshape hs
  simp [getNode] at hnode

/-- **What is exported of a data graph**, whatever the order of its maps. -/
theorem named_of_isDataGraph (h : IsDataGraph g) : Named g := by
  obtain ⟨g₀, hreachable, hequiv⟩ := h
  have hshape := shape_of_reachable hreachable
  have hadmitted := admitted_of_reachable hreachable
  constructor
  case name => exact (knownByName_of_reachable hreachable).of_attributes hequiv.attributes
  case channel =>
    intro f c e he
    have he₀ := (hequiv.edges f c).mem_iff.1 he
    exact ⟨hshape.channel f c e he₀, (hadmitted f c e he₀).1⟩
  case target =>
    intro f c e he
    rw [hasNode_eq, hequiv.attributes, ← hasNode_eq]
    exact hshape.target f c e ((hequiv.edges f c).mem_iff.1 he)

/-! ### What is written -/

namespace DotExporter

/-- The end of the line of an edge. -/
def writeLabel (label : Option (List Char)) : List Char :=
  label.elim ['\n'] fun label => " [label=".toList ++ '"' :: (label ++ '"' :: "]\n".toList)

/-- The line of an edge. -/
def writeEdge (edge : Dot.Edge) : List Char :=
  "    ".toList ++ '"' :: (edge.tail ++ '"' :: (" -> ".toList ++ '"' :: (edge.head ++ '"' ::
    writeLabel edge.label)))

/-- The edges of a node, in the order they are visited. -/
def visitEdges (g : Graph) (n : String) : List GraphEdge :=
  match g.getNode n with
  | none => []
  | some node => node.forwardEdges.entries.flatMap Sigma.snd

/-- An edge of a node as it is written. -/
def dotEdge (n : String) (e : GraphEdge) : Dot.Edge :=
  ⟨n.toList, e.next.toList, some e.channel.toList⟩

/-- The edges of a graph, in the order they are visited. -/
def dotEdges (g : Graph) : List Dot.Edge :=
  (nodeToNameMap g).keys.flatMap fun n => (visitEdges g n).map (dotEdge n)

theorem lookup_foldl_put {κ ν ω : Type} [DecidableEq κ] {w : ν → ω}
    {entries : List (Sigma fun _ : κ => ν)} (hnodup : entries.NodupKeys) (m : UnorderedMap κ ω)
    (k : κ) :
    (entries.foldl (fun m entry => UnorderedMap.put m entry.1 (w entry.2)) m).lookup k =
      ((entries.dlookup k).map w).or (m.lookup k) := by
  induction entries generalizing m with
  | nil => rfl
  | cons entry entries ih =>
    obtain ⟨key, value⟩ := entry
    obtain ⟨hkey, hrest⟩ := List.nodupKeys_cons.1 hnodup
    rw [List.foldl_cons, ih hrest, UnorderedMap.lookup_put]
    by_cases hk : k = key
    · subst hk
      simp [List.dlookup_eq_none.2 hkey]
    · rw [if_neg hk, List.dlookup_cons_ne _ _ hk]

theorem lookup_nodeToNameMap (n : String) :
    (nodeToNameMap g).lookup n = (g.getNode n).map fun node => node.name := by
  refine (lookup_foldl_put (w := fun node : WiredNode => node.name)
    g.mNameToNodeMap.nodupKeys ∅ n).trans ?_
  rw [AList.lookup_empty, Option.or_none]
  rfl

theorem foldlM_append {α β : Type} {f : List β → α → Code (List β)} {w : α → List β} {xs : List α}
    (h : ∀ x ∈ xs, ∀ out, f out x = .ok (out ++ w x)) (out : List β) :
    xs.foldlM f out = .ok (out ++ xs.flatMap w) := by
  induction xs generalizing out with
  | nil => simp [pure, Except.pure]
  | cons x xs ih =>
    rw [List.foldlM_cons, h x (by simp)]
    simp only [bind, Except.bind]
    rw [ih (fun y hy => h y (by simp [hy])), List.flatMap_cons, List.append_assoc]

section

variable (hnamed : Named g)
include hnamed

theorem mem_edges_of_visit {n : String} {node : WiredNode} (hnode : g.getNode n = some node)
    {e : GraphEdge} (he : e ∈ visitEdges g n) : e ∈ g.edges n e.channel := by
  unfold visitEdges at he
  rw [hnode] at he
  obtain ⟨⟨channel, es⟩, hentry, hmem⟩ := List.mem_flatMap.1 he
  have hlookup : node.forwardEdges.lookup channel = some es := AList.mem_lookup_iff.2 hentry
  have hchannel : e ∈ g.edges n channel := by
    rw [← edges_of_getNode hnode, hlookup]
    exact hmem
  rwa [(hnamed.channel n channel e hchannel).1]

theorem exportEdge_eq {e : GraphEdge} (he : e ∈ g.edges f c) (out : List Char) :
    exportEdge (nodeToNameMap g) f out e =
      .ok (out ++ writeEdge (dotEdge f e)) := by
  obtain ⟨target, htarget⟩ := getNode_of_hasNode (hnamed.target f c e he)
  have hlookup : (nodeToNameMap g).lookup e.next = some e.next := by
    rw [lookup_nodeToNameMap, htarget, Option.map_some, hnamed.name _ _ htarget]
  obtain ⟨rfl, hne⟩ := hnamed.channel f c e he
  unfold writeEdge writeLabel dotEdge
  simp only [exportEdge, hlookup, if_neg hne, Except.ok.injEq, List.append_assoc,
    List.append_cancel_left_eq]
  simp

theorem exportElement_eq {n name : String} (hn : (nodeToNameMap g).lookup n = some name)
    (out : List Char) :
    exportElement g out ⟨n, name⟩ =
      .ok (out ++ ((visitEdges g n).map (dotEdge n)).flatMap writeEdge) := by
  rw [lookup_nodeToNameMap, Option.map_eq_some_iff] at hn
  obtain ⟨node, hnode, rfl⟩ := hn
  rw [hnamed.name n node hnode, exportElement, hnode]
  have hedge : ∀ edgePair ∈ node.forwardEdges.entries, ∀ out,
      edgePair.2.foldlM (exportEdge (nodeToNameMap g) n) out =
        .ok (out ++ (edgePair.2.map (dotEdge n)).flatMap writeEdge) := by
    intro edgePair hentry out
    rw [List.flatMap_map]
    refine foldlM_append (fun e he out => ?_) out
    have hvisit : e ∈ visitEdges g n := by
      rw [visitEdges, hnode]
      exact List.mem_flatMap.2 ⟨edgePair, hentry, he⟩
    exact exportEdge_eq hnamed (mem_edges_of_visit hnamed hnode hvisit) out
  refine (foldlM_append hedge out).trans ?_
  rw [visitEdges, hnode, List.map_flatMap, List.flatMap_assoc]

/-- **What is written**: a header, a line for each edge, and a closing brace. -/
theorem ExportGraph_eq (graphName : String) : ExportGraph g graphName =
    .ok ("strict digraph ".toList ++ graphName.toList ++ " \x7b\n".toList ++
      (dotEdges g).flatMap writeEdge ++ "\x7d\n".toList) := by
  have helements : ∀ pair ∈ (nodeToNameMap g).entries, ∀ out,
      exportElement g out pair = .ok (out ++ ((visitEdges g pair.1).map (dotEdge pair.1)).flatMap
        writeEdge) :=
    fun pair hpair out => exportElement_eq hnamed (AList.mem_lookup_iff.2 hpair) out
  unfold ExportGraph
  simp only [foldlM_append helements, bind, Except.bind, pure, Except.pure]
  rw [dotEdges, AList.keys, List.keys, List.flatMap_map, List.flatMap_assoc]

theorem mem_dotEdges {edge : Dot.Edge} : edge ∈ dotEdges g ↔
    ∃ f c t, g.HasEdge f c t ∧ edge = ⟨f.toList, t.toList, some c.toList⟩ := by
  simp only [dotEdges, List.mem_flatMap, List.mem_map]
  constructor
  · rintro ⟨n, -, e, he, rfl⟩
    obtain ⟨node, hnode⟩ : ∃ node, g.getNode n = some node := by
      refine Option.ne_none_iff_exists'.1 fun hnone => ?_
      rw [visitEdges, hnone] at he
      cases he
    exact ⟨n, e.channel, e.next, ⟨e, mem_edges_of_visit hnamed hnode he, rfl⟩, rfl⟩
  · rintro ⟨f, c, t, ⟨e, he, rfl⟩, rfl⟩
    obtain ⟨rfl, -⟩ := hnamed.channel f c e he
    unfold Graph.edges at he
    cases hnode : g.getNode f with
    | none => simp [hnode] at he
    | some node =>
      rw [hnode, Option.bind_some] at he
      cases hes : node.forwardEdges.lookup e.channel with
      | none => simp [hes] at he
      | some es =>
        rw [hes, Option.getD_some] at he
        have hvisit : e ∈ visitEdges g f := by
          rw [visitEdges, hnode]
          exact List.mem_flatMap.2 ⟨⟨e.channel, es⟩, AList.mem_lookup_iff.1 hes, he⟩
        have hkey : f ∈ nodeToNameMap g := by
          rw [← AList.lookup_isSome, lookup_nodeToNameMap, hnode]
          rfl
        exact ⟨f, AList.mem_keys.1 hkey, e, hvisit, rfl⟩

end

/-! ### What is read -/

/-- The strings of an edge. -/
def edgeStrings (edge : Dot.Edge) : List (List Char) := [edge.tail, edge.head] ++ edge.label.toList

/-- The strings of the edges cover the text. -/
theorem covers_lines {pieces : List (List Char)} (hlast : ∀ s ∈ pieces, s.getLast? ≠ some '\\')
    {edges : List Dot.Edge} (hpieces : ∀ edge ∈ edges, ∀ s ∈ edgeStrings edge, s ∈ pieces)
    {before : List Char} (hbefore : '"' ∉ before) :
    Dot.Covers pieces (before ++ (edges.flatMap writeEdge ++ "\x7d\n".toList)) := by
  have hseparator : ∀ (separator : List Char) {rest : List Char}, '"' ∉ separator →
      separator.getLast? ≠ some '\\' → Dot.Covers pieces rest →
      Dot.Covers pieces (separator ++ '"' :: rest) :=
    fun _ _ hquote hend hrest => (Dot.covers_of_notMem hquote).append hend hrest
  induction edges generalizing before with
  | nil =>
    refine Dot.covers_of_notMem ?_
    simp [hbefore]
  | cons edge edges ih =>
    have hrest : ∀ before : List Char, '"' ∉ before →
        Dot.Covers pieces (before ++ (edges.flatMap writeEdge ++ "\x7d\n".toList)) :=
      fun _ hbefore => ih (fun edge' h => hpieces edge' (List.mem_cons_of_mem _ h)) hbefore
    have hstring : ∀ s ∈ edgeStrings edge, ∀ {rest : List Char}, Dot.Covers pieces rest →
        Dot.Covers pieces (s ++ '"' :: rest) := fun s hs _ hcovers =>
      have hpiece := hpieces edge List.mem_cons_self s hs
      (Dot.covers_of_mem hpiece).append (hlast s hpiece) hcovers
    obtain ⟨tail, head, label⟩ := edge
    have hlabel : Dot.Covers pieces
        (writeLabel label ++ (edges.flatMap writeEdge ++ "\x7d\n".toList)) := by
      cases label with
      | none => exact hrest ['\n'] (by decide)
      | some label =>
        have hend := hrest "]\n".toList (by decide)
        have hvalue := hseparator " [label=".toList (by decide) (by decide)
          (hstring label (by simp [edgeStrings]) hend)
        simpa only [writeLabel, Option.elim_some, List.append_assoc, List.cons_append] using hvalue
    have hhead := hstring head (by simp [edgeStrings]) hlabel
    have harrow := hseparator " -> ".toList (by decide) (by decide) hhead
    have htail := hstring tail (by simp [edgeStrings]) harrow
    have hline := hseparator (before ++ "    ".toList) (by simp [hbefore]) (by simp) htail
    simpa only [List.flatMap_cons, writeEdge, List.append_assoc, List.cons_append] using hline

/-- A line whose strings are plain is read as the edge it was written for. -/
theorem run_writeEdge {edge : Dot.Edge} (hplain : ∀ s ∈ edgeStrings edge, Dot.Plain s) :
    Dot.lexer.run .between (writeEdge edge) = some (.between, edge.tokens) := by
  have hstring : ∀ s ∈ edgeStrings edge, ∀ {rest : List Char} {tokens : List Dot.Token},
      Dot.lexer.run .between rest = some (.between, tokens) →
      Dot.lexer.run .between ('"' :: (s ++ '"' :: rest)) =
        some (.between, .quoted s :: tokens) := by
    intro s hs rest tokens hrest
    have hquoted := Dot.run_quoted (hplain s hs).2 hrest
    rwa [Dot.escape_of_notMem (hplain s hs).1] at hquoted
  obtain ⟨tail, head, label⟩ := edge
  have hspace : Dot.lexer.run .between "    ".toList = some (.between, []) := by decide
  have harrow : Dot.lexer.run .between " -> ".toList = some (.between, [.arrow]) := by decide
  cases label with
  | none =>
    have hend : Dot.lexer.run .between ['\n'] = some (.between, []) := by decide
    have hhead := hstring head (by simp [edgeStrings]) hend
    have htail := hstring tail (by simp [edgeStrings]) (Transducer.run_append harrow hhead)
    have hline := Transducer.run_append hspace htail
    exact hline
  | some label =>
    have hname : Dot.lexer.run .between " [label=".toList =
        some (.between, [.symbol '[', .word "label".toList, .symbol '=']) := by
      decide
    have hend : Dot.lexer.run .between "]\n".toList = some (.between, [.symbol ']']) := by decide
    have hvalue := hstring label (by simp [edgeStrings]) hend
    have hhead := hstring head (by simp [edgeStrings]) (Transducer.run_append hname hvalue)
    have htail := hstring tail (by simp [edgeStrings]) (Transducer.run_append harrow hhead)
    have hline := Transducer.run_append hspace htail
    exact hline

/-- The text before the lines of the edges. -/
def header (graphName : String) : List Char :=
  "strict digraph ".toList ++ graphName.toList ++ " \x7b\n".toList

/-- Edges whose strings are plain are read from the text. -/
theorem read_text {graphName : String} (hname : Dot.isIdentifier graphName.toList = true)
    {edges : List Dot.Edge} (hplain : ∀ edge ∈ edges, ∀ s ∈ edgeStrings edge, Dot.Plain s) :
    Dot.read (header graphName ++ edges.flatMap writeEdge ++ "\x7d\n".toList) = some edges := by
  have hstart : Dot.lexer.run .between "strict digraph ".toList =
      some (.between, [.word "strict".toList, .word "digraph".toList]) := by
    decide
  have hbrace : Dot.lexer.run (.word graphName.toList.reverse) " \x7b\n".toList =
      some (.between, [.word graphName.toList.reverse.reverse, .symbol '\x7b']) := rfl
  have hheader := Transducer.run_append
    (Transducer.run_append hstart (Dot.run_identifier hname)) hbrace
  have hlines := Transducer.run_flatMap (T := Dot.lexer) fun edge hedge =>
    run_writeEdge (hplain edge hedge)
  have hend : Dot.lexer.run .between "\x7d\n".toList = some (.between, [.symbol '\x7d']) := by
    decide
  have hrun := Transducer.run_append (Transducer.run_append hheader hlines) hend
  rw [List.reverse_reverse] at hrun
  refine Dot.read_of_lex hname ((Dot.lex_of_run hrun).trans (congrArg some ?_))
  simp only [List.cons_append, List.nil_append]

end DotExporter

/-! ### When the text denotes the edges -/

/-- The text denotes at most one channel from one node to another. -/
theorem DenotesSameEdges.channel_unique (h : DenotesSameEdges g) {c' : String}
    (hc : g.HasEdge f c t) (hc' : g.HasEdge f c' t) : c = c' := by
  obtain ⟨text, edges, -, -, hdenotes⟩ := h "G" (by decide)
  have hlabel := ((hdenotes f c t).2 hc).symm.trans ((hdenotes f c' t).2 hc')
  exact String.toList_inj.1 (Option.some.inj hlabel)

theorem DenotesSameEdges.plain (h : DenotesSameEdges g) (hnamed : Named g) :
    ∀ edge ∈ dotEdges g, ∀ s ∈ edgeStrings edge, Dot.Plain s := by
  obtain ⟨text, edges, htext, hread, hdenotes⟩ := h "G" (by decide)
  rw [ExportGraph_eq hnamed, Except.ok.injEq] at htext
  -- all strings of the edges have been read
  have hwritten : ∀ s ∈ (dotEdges g).flatMap edgeStrings, Dot.Written text s := by
    intro s hs
    obtain ⟨edge, hedge, hs⟩ := List.mem_flatMap.1 hs
    obtain ⟨f, c, t, hhas, rfl⟩ := (mem_dotEdges hnamed).1 hedge
    obtain ⟨⟨named, hin, htail, hhead⟩, hlabel⟩ :=
      Dot.mem_of_strictLabel ((hdenotes f c t).2 hhas)
    have hall := Dot.read_sound hread named hin
    simp only [edgeStrings, Option.toList_some, List.cons_append, List.nil_append, List.mem_cons,
      List.not_mem_nil, or_false] at hs
    rcases hs with rfl | rfl | rfl
    · exact htail ▸ hall.1
    · exact hhead ▸ hall.2.1
    · rcases hlabel with hnil | ⟨labelled, hin', -, -, hgiven⟩
      · rw [hnil]
        exact ⟨by simp, by simp⟩
      · exact (Dot.read_sound hread labelled hin').2.2 _ hgiven
  have hcovers : Dot.Covers ((dotEdges g).flatMap edgeStrings) text := by
    rw [← htext, List.append_assoc]
    exact covers_lines (fun s hs => (hwritten s hs).1)
      (fun edge hedge s hs => List.mem_flatMap.2 ⟨edge, hedge, hs⟩) (by decide)
  exact fun edge hedge s hs =>
    Dot.plain_of_written hcovers hwritten s (List.mem_flatMap.2 ⟨edge, hedge, hs⟩)

theorem denotes_of_exportable (hnamed : Named g) (h : Exportable g) : DenotesSameEdges g := by
  obtain ⟨hplain, hunique⟩ := h
  intro graphName hname
  refine ⟨_, dotEdges g, ExportGraph_eq hnamed graphName, read_text hname ?_, fun f c t => ?_⟩
  · intro edge hedge s hs
    obtain ⟨f, c, t, hhas, rfl⟩ := (mem_dotEdges hnamed).1 hedge
    obtain ⟨hf, hc, ht⟩ := hplain f c t hhas
    simp only [edgeStrings, Option.toList_some, List.cons_append, List.nil_append, List.mem_cons,
      List.not_mem_nil, or_false] at hs
    rcases hs with rfl | rfl | rfl
    · exact hf
    · exact ht
    · exact hc
  · have hlabel : ∀ c', g.HasEdge f c' t →
        Dot.strictLabel (dotEdges g) f.toList t.toList = some c'.toList := by
      intro c' hhas
      have hedge := (mem_dotEdges hnamed).2 ⟨f, c', t, hhas, rfl⟩
      refine Dot.strictLabel_of_mem hedge fun edge' hedge' htail hhead => ?_
      obtain ⟨f'', c'', t'', hhas', rfl⟩ := (mem_dotEdges hnamed).1 hedge'
      obtain rfl := String.toList_inj.1 htail
      obtain rfl := String.toList_inj.1 hhead
      rw [hunique _ _ _ _ hhas hhas']
    refine ⟨fun hread => ?_, hlabel c⟩
    obtain ⟨⟨edge, hedge, htail, hhead⟩, -⟩ := Dot.mem_of_strictLabel hread
    obtain ⟨f', c', t', hhas, rfl⟩ := (mem_dotEdges hnamed).1 hedge
    obtain rfl := String.toList_inj.1 htail
    obtain rfl := String.toList_inj.1 hhead
    rw [hlabel c' hhas, Option.some.injEq] at hread
    rwa [← String.toList_inj.1 hread]

/-- **When the text denotes the edges of the graph.** -/
theorem denotesSameEdges_iff (h : IsDataGraph g) : DenotesSameEdges g ↔ Exportable g := by
  have hnamed := named_of_isDataGraph h
  constructor
  · intro hdenotes
    refine ⟨fun f c t hhas => ?_, fun f c c' t hc hc' => hdenotes.channel_unique hc hc'⟩
    have hplain := hdenotes.plain hnamed _ ((mem_dotEdges hnamed).2 ⟨f, c, t, hhas, rfl⟩)
    simp only [edgeStrings, Option.toList_some, List.cons_append, List.nil_append, List.mem_cons,
      List.not_mem_nil, or_false, forall_eq_or_imp, forall_eq] at hplain
    exact ⟨hplain.1, hplain.2.2, hplain.2.1⟩
  · exact denotes_of_exportable hnamed

theorem IsDataGraph.of_reachable (h : buildMachine.Reachable Machine.free {} g) : IsDataGraph g :=
  ⟨g, h, fun _ => rfl, fun _ _ => .refl _, fun _ => .refl _⟩

theorem singleEdgeGraph_hasEdge :
    singleEdgeGraph.HasEdge f c t ↔ f = "a" ∧ c = "out" ∧ t = "b" := by
  have hrun : buildMachine.Run (fun _ call => call.builds = true) {} singleEdgeCalls
      singleEdgeGraph :=
    Machine.run_exec (by decide)
  rw [(built_of_run hrun).hasEdge]
  simp [singleEdgeCalls]

theorem denotesSameEdges_iff_singleEdge : DenotesSameEdges singleEdgeGraph := by
  have hdata : IsDataGraph singleEdgeGraph :=
    .of_reachable ((Machine.reachable_exec (by decide)).mono fun _ _ _ => trivial)
  refine (denotesSameEdges_iff hdata).2 ⟨fun f c t hhas => ?_, fun f c c' t hc hc' => ?_⟩
  · obtain ⟨rfl, rfl, rfl⟩ := singleEdgeGraph_hasEdge.1 hhas
    decide
  · rw [(singleEdgeGraph_hasEdge.1 hc).2.1, (singleEdgeGraph_hasEdge.1 hc').2.1]

/-- Two channels lead from `a` to `b`. -/
def parallelCalls : List BuildCall :=
  [.createNode "a" false true, .createNode "b" true false, .setNodeInstance "a" "i",
    .setNodeInstance "b" "j", .connect "a" "x" "b" .pushDirectlyToTarget,
    .connect "a" "y" "b" .pushDirectlyToTarget]

/-- The graph the calls build. -/
def parallelGraph : Graph :=
  (buildMachine.exec (fun _ call => call.builds) {} parallelCalls).getD {}

/-- **A strict digraph has one edge for two channels.** -/
theorem not_denotesSameEdges_parallel : ¬ ∀ g, IsDataGraph g → DenotesSameEdges g := by
  intro h
  have hdata : IsDataGraph parallelGraph :=
    .of_reachable ((Machine.reachable_exec (by decide)).mono fun _ _ _ => trivial)
  have hx : parallelGraph.HasEdge "a" "x" "b" := by decide +kernel
  have hy : parallelGraph.HasEdge "a" "y" "b" := by decide +kernel
  exact absurd ((h parallelGraph hdata).channel_unique hx hy) (by decide)

end Maplang
