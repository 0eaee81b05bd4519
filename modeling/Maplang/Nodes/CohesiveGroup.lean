import Maplang.Cpp.UnorderedMap
import Maplang.Machine.Basic
import Maplang.Nodes.ContextualNode

/-!
# Contextual groups

When the template of a `ContextualNode` is a group, its router is a `CohesiveGroupRouter`: a
`SingleNodeRouter` for each interface of the group.  The first packet of a context, on whatever
interface, has a new group created, and each sub-router gets its interface of that group.

The routers of a group are looked up by the name of an interface, and contexts by the value of the
key parameter.  `removeNode` looks up the one with the other: it finds a context only if it is
called like an interface, and then it erases the router of that interface.

Packets are handled one after the other.  A group does not push from within `setSubgraphContext` or
`setPacketPusher`, so that creating it is not interrupted.

## Main definitions

* `GroupFactory`, `CohesiveGroupRouter`, `ContextualGroup` : the groups and their routers.
* `ContextualGroup.route`, `remove`, `groupMachine` : the code, and packets in any order.
* `GroupFactory.Alike` : what is assumed of the groups a factory creates.
* `Cohesion` : the sub-routers of a group hold interfaces of the same instances.
* `RemovesContext` : what removing a context should do.
* `NothingToRemove` : when it does that.

## Main results

* `cohesion_of_reachable` : cohesion, after every sequence of packets that are routed.
* `not_removesContext_leak` : a context that has instances keeps them.
* `removesContext_iff` : when removing a context does what it should.
-/

namespace Maplang

variable {γ ι : Type}

/-- The implementation factory, for a type whose implementations are groups. -/
structure GroupFactory (γ ι : Type) where
  /-- The groups `createImplementation` returns one after the other. -/
  createImplementation : ℕ → γ
  /-- `getInterfaceName`, for every index below `getInterfaceCount`. -/
  interfaceNames : γ → List ByteString
  getInterface : γ → ByteString → ι
  /-- `asPathable() != nullptr`. -/
  isPathable : ι → Bool

/-- `class CohesiveGroupRouter`. -/
structure CohesiveGroupRouter (ι : Type) where
  mNodeRouters : UnorderedMap ByteString (SingleNodeRouter ι) := ∅

/-- `class ContextualNode::Impl` with a group as its template; the routers and the remover keep
copies of `mKey`. -/
structure ContextualGroup (ι : Type) where
  mType : ByteString
  mKey : ByteString
  mContextRouter : CohesiveGroupRouter ι := {}
  /-- How many groups the factory has created. -/
  created : ℕ := 0
  /-- The contexts the groups after the template were created for. -/
  createdFor : List ByteString := []

/-- A packet sent to an interface of the router, or to the remover. -/
inductive GroupIncoming where
  | contextRouter (interface : ByteString) (packet : Packet)
  | contextRemover (packet : Packet)

/-- `parameters[mKey].get<string>()`. -/
def keyParameter (mKey : ByteString) (packet : Packet) : Code ByteString := do
  (← packet.parameters.get mKey).getString

namespace CohesiveGroupRouter

/-- `CohesiveGroupRouter::createGroupRouterNodes`. -/
def createGroupRouterNodes (names : List ByteString) :
    UnorderedMap ByteString (SingleNodeRouter ι) :=
  names.foldl (fun routerNodes nodeName => routerNodes.put nodeName {}) ∅

variable [DecidableEq ι] (F : GroupFactory γ ι)

/-- The loop of `CohesiveGroupRouter::addNode`.  `mNodeRouters[subnodeName]` is a null pointer if
there is no router of that name, and calling it is undefined. -/
def addSubnodes (contextLookup : ByteString) (group : γ)
    (mNodeRouters : UnorderedMap ByteString (SingleNodeRouter ι)) (names : List ByteString) :
    Code (UnorderedMap ByteString (SingleNodeRouter ι)) :=
  names.foldlM (fun mNodeRouters subnodeName =>
    match mNodeRouters.lookup subnodeName with
    | none => .error .undefinedBehaviour
    | some routerNode => .ok (mNodeRouters.put subnodeName
        (routerNode.addNode contextLookup (F.getInterface group subnodeName)))) mNodeRouters

/-- `CohesiveGroupRouter::addNode`. -/
def addNode (router : CohesiveGroupRouter ι) (contextLookup : ByteString) (group : γ) :
    Code (CohesiveGroupRouter ι) := do
  let mNodeRouters ← addSubnodes F contextLookup group router.mNodeRouters (F.interfaceNames group)
  return { mNodeRouters }

/-- `CohesiveGroupRouter::removeNode`. -/
def removeNode (router : CohesiveGroupRouter ι) (contextLookup : ByteString) :
    Code (Bool × CohesiveGroupRouter ι) :=
  match router.mNodeRouters.lookup contextLookup with
  | none => .ok (false, router)
  | some _ => do
    let mNodeRouters ← router.mNodeRouters.keys.foldlM (fun mNodeRouters name =>
      match mNodeRouters.lookup name with
      | none => .error .undefinedBehaviour
      | some routerNode => do
        let (_, routerNode) ← routerNode.removeNode contextLookup
        return mNodeRouters.put name routerNode) router.mNodeRouters
    -- the router that was found, under the name of an interface
    return (true, { mNodeRouters := mNodeRouters.erase contextLookup })

end CohesiveGroupRouter

namespace ContextualGroup

variable (F : GroupFactory γ ι)

/-- The constructor of a `ContextualNode`, with `Impl::initialize`. -/
def construct (initParameters : Json) : Code (ContextualGroup ι) := do
  let mType ← getNonEmptyStringOrThrow initParameters "initParameters" "type"
  let mKey ← getNonEmptyStringOrThrow initParameters "initParameters" "key"
  let templateGroup := F.createImplementation 0
  return { mType, mKey, created := 1, mContextRouter :=
    { mNodeRouters :=
        CohesiveGroupRouter.createGroupRouterNodes (F.interfaceNames templateGroup) } }

variable [DecidableEq ι]

/-- `ContextualNode::Impl::createNewInstance`. -/
def createNewInstance (c : ContextualGroup ι) (forNewContextLookup : ByteString) :
    Code (ContextualGroup ι) := do
  let newInstance := F.createImplementation c.created
  let mContextRouter ← c.mContextRouter.addNode F forNewContextLookup newInstance
  return { c with
    mContextRouter
    created := c.created + 1
    createdFor := c.createdFor ++ [forNewContextLookup] }

/-- `SingleNodeRouter::handlePacket`, of the router that `getInterface` returns for an interface.
Calling a null pointer is undefined, be it that there is no such router or that it is not
pathable: it is pathable if the interface of the template is. -/
def route (c : ContextualGroup ι) (interface : ByteString) (packet : Packet) :
    Code (Outcome ι × ContextualGroup ι) :=
  match c.mContextRouter.mNodeRouters.lookup interface with
  | none => .error .undefinedBehaviour
  | some router =>
    if F.isPathable (F.getInterface (F.createImplementation 0) interface) then do
      let contextLookup ← keyParameter c.mKey packet
      match router.mNodes.lookup contextLookup with
      | some node =>
        if F.isPathable node then return (.handlePacket node packet none, c)
        else .error .undefinedBehaviour
      | none =>
        let c' ← c.createNewInstance F contextLookup
        match (c'.mContextRouter.mNodeRouters.lookup interface).bind
          (·.mNodes.lookup contextLookup) with
        | some node =>
          if F.isPathable node then return (.handlePacket node packet (some node), c')
          else .error .undefinedBehaviour
        | none => .error .undefinedBehaviour
    else .error .undefinedBehaviour

/-- `ContextRemover::handlePacket`. -/
def remove (c : ContextualGroup ι) (packet : Packet) : Code (Outcome ι × ContextualGroup ι) := do
  let nodeKey ← keyParameter c.mKey packet
  let (removed, mContextRouter) ← c.mContextRouter.removeNode nodeKey
  if removed then
    let parameters ← Json.null.set c.mKey (← packet.parameters.get c.mKey)
    return (.pushPacket { parameters } "Removed Key", { c with mContextRouter })
  else return (.ignored, c)

/-- Handle one packet. -/
def handle (c : ContextualGroup ι) : GroupIncoming → Code (Outcome ι × ContextualGroup ι)
  | .contextRouter interface packet => c.route F interface packet
  | .contextRemover packet => c.remove packet

end ContextualGroup

open ContextualGroup

/-- A node under packets.  A packet that has no key throws and changes nothing, so it is left out of
a run. -/
def groupMachine [DecidableEq ι] (F : GroupFactory γ ι) :
    Machine (ContextualGroup ι) GroupIncoming where
  step c incoming := (c.handle F incoming).toOption.map Prod.snd

/-- The groups that a factory creates have the same interfaces, and each has interface objects of
its own. -/
structure GroupFactory.Alike (F : GroupFactory γ ι) : Prop where
  names : ∀ n, F.interfaceNames (F.createImplementation n) =
    F.interfaceNames (F.createImplementation 0)
  fresh : ∀ m n name name', m ≠ n →
    F.getInterface (F.createImplementation m) name ≠ F.getInterface (F.createImplementation n) name'

/-- An interface that packets can be sent to: that of every group is pathable. -/
def GroupFactory.HasInterface (F : GroupFactory γ ι) (interface : ByteString) : Prop :=
  interface ∈ F.interfaceNames (F.createImplementation 0) ∧
    ∀ n, F.isPathable (F.getInterface (F.createImplementation n) interface) = true

namespace ContextualGroup

/-- The object the router of an interface holds for a context. -/
def holds (c : ContextualGroup ι) (name k : ByteString) : Option ι :=
  (c.mContextRouter.mNodeRouters.lookup name).bind (·.mNodes.lookup k)

/-- The node has a router for this interface. -/
def hasRouter (c : ContextualGroup ι) (name : ByteString) : Bool :=
  (c.mContextRouter.mNodeRouters.lookup name).isSome

/-- Some router has an instance for the context. -/
def HasContext (c : ContextualGroup ι) (k : ByteString) : Prop :=
  ∃ name, (c.holds name k).isSome = true

end ContextualGroup

/-- The sub-routers of a group hold interfaces of the same instances. -/
structure Cohesion (F : GroupFactory γ ι) (c : ContextualGroup ι) : Prop where
  routers : ∀ name, c.hasRouter name = true ↔ name ∈ F.interfaceNames (F.createImplementation 0)
  /-- All have the same contexts. -/
  contexts : ∀ name name' k, c.hasRouter name = true → c.hasRouter name' = true →
    (c.holds name k).isSome = (c.holds name' k).isSome
  /-- Every instance but the template was created for a context, ... -/
  accounted : c.created = 1 + c.createdFor.length
  /-- ... and no two for the same one. -/
  once : c.createdFor.Nodup
  /-- The objects of a context are the interfaces of one instance, which was created for it, ... -/
  oneInstance : ∀ k, ∃ i : ℕ, ∀ name node, c.holds name k = some node →
    c.createdFor[i]? = some k ∧ node = F.getInterface (F.createImplementation (i + 1)) name
  /-- ... and those of different contexts are different. -/
  distinct : ∀ k k' name name' node node', k ≠ k' → c.holds name k = some node →
    c.holds name' k' = some node' → node ≠ node'

/-- Every packet that has a key and is sent to an interface is handled. -/
def RoutesAll [DecidableEq ι] (F : GroupFactory γ ι) (c : ContextualGroup ι) : Prop :=
  ∀ interface packet k, F.HasInterface interface → ContextualNode.keyOf c.mKey packet = some k →
    ∃ node created c', c.route F interface packet = .ok (.handlePacket node packet created, c')

/-- A packet that is routed. -/
def GroupIncoming.routed : GroupIncoming → Prop
  | .contextRouter _ _ => True
  | .contextRemover _ => False

/-- The key of a packet. -/
def GroupIncoming.key (mKey : ByteString) : GroupIncoming → Option ByteString
  | .contextRouter _ packet => ContextualNode.keyOf mKey packet
  | .contextRemover packet => ContextualNode.keyOf mKey packet

/-- The text is not the name of an interface, and no router has an instance for it. -/
def NothingToRemove (F : GroupFactory γ ι) (c : ContextualGroup ι) (k : ByteString) : Prop :=
  k ∉ F.interfaceNames (F.createImplementation 0) ∧ ¬ c.HasContext k

/-- The step condition: there is nothing to remove. -/
def removesNothing (F : GroupFactory γ ι) (c : ContextualGroup ι) : GroupIncoming → Prop
  | .contextRouter _ _ => True
  | .contextRemover packet =>
    ∀ k, ContextualNode.keyOf c.mKey packet = some k → NothingToRemove F c k

/-- Removing a context removes its instances and no others, and says so. -/
structure RemovesContext [DecidableEq ι] (F : GroupFactory γ ι) (c : ContextualGroup ι)
    (packet : Packet) (k : ByteString) (outcome : Outcome ι) (c' : ContextualGroup ι) : Prop where
  routers : ∀ name, c'.hasRouter name = c.hasRouter name
  removed : ¬ c'.HasContext k
  others : ∀ name k', k' ≠ k → c'.holds name k' = c.holds name k'
  emits : c.HasContext k → outcome =
    .pushPacket { parameters := .object [(c.mKey, .string k)] } "Removed Key"
  ignores : ¬ c.HasContext k → outcome = .ignored
  /-- A later packet for the context gets an instance that is created for it. -/
  later : ∀ c'', (groupMachine F).Reachable
      (fun u incoming => removesNothing F u incoming ∧ incoming.key u.mKey ≠ some k) c' c'' →
    ∀ interface packet', F.HasInterface interface → ContextualNode.keyOf c''.mKey packet' = some k →
      ∃ u', c''.route F interface packet' = .ok (.handlePacket
        (F.getInterface (F.createImplementation c''.created) interface) packet'
        (some (F.getInterface (F.createImplementation c''.created) interface)), u')

variable {F : GroupFactory γ ι} {c c' : ContextualGroup ι} {name k : ByteString} {packet : Packet}

/-! ### Routers -/

theorem lookup_createGroupRouterNodes (names : List ByteString) (name : ByteString) :
    (CohesiveGroupRouter.createGroupRouterNodes (ι := ι) names).lookup name =
      if name ∈ names then some {} else none := by
  have hfold : ∀ (m : UnorderedMap ByteString (SingleNodeRouter ι))
      (names : List ByteString),
      (names.foldl (fun routerNodes nodeName => routerNodes.put nodeName {}) m).lookup name =
        if name ∈ names then some {} else m.lookup name := by
    intro m names
    induction names generalizing m with
    | nil => simp
    | cons nodeName names ih =>
      rw [List.foldl_cons, ih, UnorderedMap.lookup_put]
      by_cases hmem : name ∈ names
      · simp [hmem]
      · by_cases hname : name = nodeName <;> simp [hmem, hname]
  rw [CohesiveGroupRouter.createGroupRouterNodes, hfold]
  split <;> simp

section

variable [DecidableEq ι]

/-- Each named router gets its interface of the group. -/
theorem addSubnodes_spec (k : ByteString) (group : γ)
    {routers : UnorderedMap ByteString (SingleNodeRouter ι)} {names : List ByteString}
    (h : ∀ name ∈ names, (routers.lookup name).isSome = true) :
    ∃ routers', CohesiveGroupRouter.addSubnodes F k group routers names = .ok routers' ∧
      (∀ name, (routers'.lookup name).isSome = (routers.lookup name).isSome) ∧
      ∀ name k', (routers'.lookup name).bind (·.mNodes.lookup k') =
        if name ∈ names ∧ k' = k then some (F.getInterface group name)
        else (routers.lookup name).bind (·.mNodes.lookup k') := by
  induction names generalizing routers with
  | nil => exact ⟨routers, rfl, fun _ => rfl, by simp⟩
  | cons first names ih =>
    obtain ⟨hfirst, hrest⟩ := List.forall_mem_cons.1 h
    obtain ⟨routerNode, hrouter⟩ := Option.isSome_iff_exists.1 hfirst
    let routers₁ := routers.put first (routerNode.addNode k (F.getInterface group first))
    have hsome₁ : ∀ name, (routers₁.lookup name).isSome = (routers.lookup name).isSome := by
      intro name
      rw [UnorderedMap.lookup_put]
      split
      · rename_i heq
        rw [heq, hrouter]
        rfl
      · rfl
    have hholds₁ : ∀ name k', (routers₁.lookup name).bind (·.mNodes.lookup k') =
        if name = first ∧ k' = k then some (F.getInterface group first)
        else (routers.lookup name).bind (·.mNodes.lookup k') := by
      intro name k'
      rw [UnorderedMap.lookup_put]
      by_cases hname : name = first
      · subst hname
        by_cases hk : k' = k
        · subst hk
          simp [SingleNodeRouter.addNode]
        · simp [SingleNodeRouter.addNode, hk, hrouter, AList.lookup_insert_ne hk]
      · simp [hname]
    have hrest₁ : ∀ name ∈ names, (routers₁.lookup name).isSome = true := fun name hname => by
      rw [hsome₁]
      exact hrest name hname
    obtain ⟨routers', hok, hsome, hholds⟩ := ih hrest₁
    refine ⟨routers', ?_, fun name => (hsome name).trans (hsome₁ name), fun name k' => ?_⟩
    · rw [CohesiveGroupRouter.addSubnodes, List.foldlM_cons, hrouter]
      exact hok
    · rw [hholds, hholds₁]
      by_cases hk : k' = k
      · by_cases hname : name = first <;> simp [hk, hname]
      · simp [hk]

end

/-- What the routers hold, in terms of the instances that were created. -/
structure Tracked (F : GroupFactory γ ι) (c : ContextualGroup ι) : Prop where
  routers : ∀ name, c.hasRouter name = true ↔ name ∈ F.interfaceNames (F.createImplementation 0)
  created : c.created = 1 + c.createdFor.length
  once : c.createdFor.Nodup
  holds : ∀ name k node, c.holds name k = some node ↔ c.hasRouter name = true ∧
    ∃ i : ℕ, c.createdFor[i]? = some k ∧ node = F.getInterface (F.createImplementation (i + 1)) name

/-- Every router holds an instance for each context an instance was created for. -/
theorem Tracked.isSome_holds (h : Tracked F c) (hname : c.hasRouter name = true) :
    (c.holds name k).isSome = true ↔ k ∈ c.createdFor := by
  rw [Option.isSome_iff_exists, List.mem_iff_getElem?]
  constructor
  · rintro ⟨node, hnode⟩
    obtain ⟨-, i, hi, -⟩ := (h.holds name k node).1 hnode
    exact ⟨i, hi⟩
  · rintro ⟨i, hi⟩
    exact ⟨_, (h.holds name k _).2 ⟨hname, i, hi, rfl⟩⟩

/-- Positions in a list without repetition are determined by what is there. -/
theorem position_unique {ks : List ByteString} (h : ks.Nodup) {i j : ℕ} {k : ByteString}
    (hi : ks[i]? = some k) (hj : ks[j]? = some k) : i = j := by
  obtain ⟨hlt, -⟩ := List.getElem?_eq_some_iff.1 hi
  exact (List.getElem?_inj hlt h).1 (hi.trans hj.symm)

theorem Tracked.cohesion (halike : F.Alike) (h : Tracked F c) : Cohesion F c where
  routers := h.routers
  contexts name name' k hname hname' := by
    rw [Bool.eq_iff_iff, h.isSome_holds hname, h.isSome_holds hname']
  accounted := h.created
  once := h.once
  oneInstance k := by
    by_cases hk : k ∈ c.createdFor
    · obtain ⟨i, hi⟩ := List.mem_iff_getElem?.1 hk
      refine ⟨i, fun name node hnode => ?_⟩
      obtain ⟨-, j, hj, rfl⟩ := (h.holds name k node).1 hnode
      obtain rfl := position_unique h.once hi hj
      exact ⟨hi, rfl⟩
    · refine ⟨0, fun name node hnode => ?_⟩
      obtain ⟨-, i, hi, -⟩ := (h.holds name k node).1 hnode
      exact absurd (List.mem_of_getElem? hi) hk
  distinct k k' name name' node node' hne hnode hnode' heq := by
    obtain ⟨-, i, hi, rfl⟩ := (h.holds name k node).1 hnode
    obtain ⟨-, j, hj, rfl⟩ := (h.holds name' k' node').1 hnode'
    refine halike.fresh _ _ _ _ (fun hij => hne ?_) heq
    obtain rfl : i = j := by omega
    exact Option.some.inj (hi.symm.trans hj)

/-! ### Packets that are routed -/

theorem keyParameter_of_keyOf {mKey : ByteString} (h : ContextualNode.keyOf mKey packet = some k) :
    packet.parameters.get mKey = .ok (.string k) ∧ keyParameter mKey packet = .ok k :=
  ContextualNode.contextLookup_eq (c := ({ mType := [], mKey } : ContextualNode ℕ)) rfl h

/-- What creating an instance for a new context does. -/
structure Created (F : GroupFactory γ ι) (c c' : ContextualGroup ι) (k : ByteString) : Prop where
  mKey : c'.mKey = c.mKey
  created : c'.created = c.created + 1
  createdFor : c'.createdFor = c.createdFor ++ [k]
  routers : ∀ name, c'.hasRouter name = c.hasRouter name
  holds : ∀ name k', c'.holds name k' = if c.hasRouter name = true ∧ k' = k then
    some (F.getInterface (F.createImplementation c.created) name) else c.holds name k'

theorem Tracked.created_step (h : Tracked F c) (hcreated : Created F c c' k)
    (hk : k ∉ c.createdFor) : Tracked F c' where
  routers name := by rw [hcreated.routers, h.routers]
  created := by
    rw [hcreated.created, h.created, hcreated.createdFor, List.length_append]
    rfl
  once := by
    rw [hcreated.createdFor, ← List.concat_eq_append]
    exact h.once.concat hk
  holds name k' node := by
    rw [hcreated.holds, hcreated.routers, hcreated.createdFor]
    constructor
    · intro hnode
      split at hnode
      · rename_i hnew
        refine ⟨hnew.1, c.createdFor.length, ?_, ?_⟩
        · rw [List.getElem?_concat_length, hnew.2]
        · rw [← Option.some.inj hnode, h.created, Nat.add_comm]
      · obtain ⟨hname, i, hi, hnode⟩ := (h.holds name k' node).1 hnode
        exact ⟨hname, i, getElem?_mono (List.prefix_append _ _) hi, hnode⟩
    · rintro ⟨hname, i, hi, rfl⟩
      rcases getElem?_concat_cases hi with ⟨hold, -⟩ | ⟨rfl, rfl⟩
      · have hne : k' ≠ k := fun heq => hk (heq ▸ List.mem_of_getElem? hold)
        rw [if_neg fun hnew => hne hnew.2]
        exact (h.holds name k' _).2 ⟨hname, i, hold, rfl⟩
      · rw [if_pos ⟨hname, rfl⟩, h.created, Nat.add_comm]

section

variable [DecidableEq ι]

theorem createNewInstance_spec (halike : F.Alike) (h : Tracked F c) (k : ByteString) :
    ∃ c', c.createNewInstance F k = .ok c' ∧ Created F c c' k := by
  have hrouters : ∀ name ∈ F.interfaceNames (F.createImplementation c.created),
      (c.mContextRouter.mNodeRouters.lookup name).isSome = true := fun name hname =>
    (h.routers name).2 (halike.names c.created ▸ hname)
  obtain ⟨routers', hok, hsome, hholds⟩ := addSubnodes_spec (F := F) k
    (F.createImplementation c.created) hrouters
  refine ⟨{ c with
    mContextRouter := ⟨routers'⟩
    created := c.created + 1
    createdFor := c.createdFor ++ [k] }, ?_, rfl, rfl, rfl, hsome, fun name k' => ?_⟩
  · rw [createNewInstance, CohesiveGroupRouter.addNode, hok]
    rfl
  · refine (hholds name k').trans ?_
    rw [halike.names]
    exact if_congr (and_congr_left fun _ => (h.routers name).symm) rfl rfl

/-- A context that has an instance: the instance gets the packet if it is pathable. -/
theorem route_present (h : Tracked F c) (hname : c.hasRouter name = true)
    (hkey : ContextualNode.keyOf c.mKey packet = some k) (hk : k ∈ c.createdFor) :
    ∃ n, c.route F name packet =
      if F.isPathable (F.getInterface (F.createImplementation 0) name) = true ∧
          F.isPathable (F.getInterface (F.createImplementation n) name) = true then
        .ok (.handlePacket (F.getInterface (F.createImplementation n) name) packet none, c)
      else .error .undefinedBehaviour := by
  obtain ⟨node, hnode⟩ := Option.isSome_iff_exists.1 ((h.isSome_holds hname).2 hk)
  obtain ⟨router, hrouter, hlookup⟩ := Option.bind_eq_some_iff.1 hnode
  obtain ⟨-, i, -, rfl⟩ := (h.holds name k node).1 hnode
  refine ⟨i + 1, ?_⟩
  rw [route, hrouter, ite_and]
  simp [(keyParameter_of_keyOf hkey).2, hlookup, bind, Except.bind, pure, Except.pure]

/-- A context that has none: one is created. -/
theorem route_absent (halike : F.Alike) (h : Tracked F c) (hname : c.hasRouter name = true)
    (hkey : ContextualNode.keyOf c.mKey packet = some k) (hk : k ∉ c.createdFor) :
    ∃ c', Created F c c' k ∧ c.route F name packet =
      if F.isPathable (F.getInterface (F.createImplementation 0) name) = true ∧
          F.isPathable (F.getInterface (F.createImplementation c.created) name) = true then
        .ok (.handlePacket (F.getInterface (F.createImplementation c.created) name) packet
          (some (F.getInterface (F.createImplementation c.created) name)), c')
      else .error .undefinedBehaviour := by
  obtain ⟨router, hrouter⟩ := Option.isSome_iff_exists.1 hname
  have hlookup : router.mNodes.lookup k = none := by
    have hnone : ¬ (c.holds name k).isSome = true :=
      fun hsome => hk ((h.isSome_holds hname).1 hsome)
    rw [holds, hrouter, Option.bind_some] at hnone
    simpa using hnone
  obtain ⟨c', hok, hcreated⟩ := createNewInstance_spec halike h k
  have hnew := hcreated.holds name k
  rw [if_pos ⟨hname, rfl⟩, holds] at hnew
  refine ⟨c', hcreated, ?_⟩
  rw [route, hrouter, ite_and]
  simp [(keyParameter_of_keyOf hkey).2, hlookup, hok, hnew, bind, Except.bind, pure, Except.pure]

/-! ### Whole runs -/

theorem keyOf_of_keyParameter {mKey : ByteString} (h : keyParameter mKey packet = .ok k) :
    ContextualNode.keyOf mKey packet = some k := by
  unfold keyParameter Json.get at h
  unfold ContextualNode.keyOf Json.find
  split at h
  · rename_i members heq
    simp only [heq]
    split at h
    · rename_i value hvalue
      simp only [bind, Except.bind] at h
      cases value with
      | string text => simpa [hvalue, Json.getString] using h
      | _ => cases h
    · cases h
  · cases h

/-- A removal that meets the condition does nothing. -/
theorem remove_nothing (h : Tracked F c) (hkey : ContextualNode.keyOf c.mKey packet = some k)
    (hnothing : NothingToRemove F c k) : c.remove packet = .ok (.ignored, c) := by
  have hrouter : c.mContextRouter.mNodeRouters.lookup k = none := by
    have hnot : ¬ c.hasRouter k = true := fun hk => hnothing.1 ((h.routers k).1 hk)
    simpa [hasRouter] using hnot
  rw [remove, (keyParameter_of_keyOf hkey).2]
  simp [CohesiveGroupRouter.removeNode, hrouter, bind, Except.bind, pure, Except.pure]

/-- A packet that is handled was sent to a router and has a key. -/
theorem routed_of_route {outcome : Outcome ι} (hroute : c.route F name packet = .ok (outcome, c')) :
    c.hasRouter name = true ∧ ∃ k, ContextualNode.keyOf c.mKey packet = some k := by
  unfold route at hroute
  cases hrouter : c.mContextRouter.mNodeRouters.lookup name with
  | none => simp [hrouter] at hroute
  | some router =>
    refine ⟨Option.isSome_of_eq_some hrouter, ?_⟩
    simp only [hrouter] at hroute
    split at hroute
    · obtain ⟨k, hkey, -⟩ := bind_eq_ok.1 hroute
      exact ⟨k, keyOf_of_keyParameter hkey⟩
    · cases hroute

/-- What a packet does: nothing, or it creates an instance for its context. -/
theorem groupStep_cases (halike : F.Alike) (h : Tracked F c) {incoming : GroupIncoming}
    (hnothing : removesNothing F c incoming) (hstep : (groupMachine F).step c incoming = some c') :
    c' = c ∨ ∃ k, incoming.key c.mKey = some k ∧ k ∉ c.createdFor ∧ Created F c c' k := by
  obtain ⟨⟨outcome, c''⟩, hhandle, rfl⟩ := Option.map_eq_some_iff.1 hstep
  have hok : c.handle F incoming = .ok (outcome, c'') := by
    cases hresult : c.handle F incoming with
    | error fault => simp [hresult, Except.toOption] at hhandle
    | ok result => simpa [hresult, Except.toOption] using hhandle
  cases incoming with
  | contextRouter interface packet =>
    rw [handle] at hok
    obtain ⟨hname, k, hkey⟩ := routed_of_route hok
    by_cases hk : k ∈ c.createdFor
    · obtain ⟨n, hroute⟩ := route_present h hname hkey hk
      rw [hroute] at hok
      split at hok
      · cases hok
        exact .inl rfl
      · cases hok
    · obtain ⟨c', hcreated, hroute⟩ := route_absent halike h hname hkey hk
      rw [hroute] at hok
      split at hok
      · cases hok
        exact .inr ⟨k, hkey, hk, hcreated⟩
      · cases hok
  | contextRemover packet =>
    rw [handle] at hok
    obtain ⟨k, hkey, -⟩ := bind_eq_ok.1 hok
    have hkeyOf := keyOf_of_keyParameter hkey
    have hremove := remove_nothing h hkeyOf (hnothing k hkeyOf)
    cases hremove.symm.trans hok
    exact .inl rfl

theorem Tracked.step (halike : F.Alike) (h : Tracked F c) {incoming : GroupIncoming}
    (hnothing : removesNothing F c incoming) (hstep : (groupMachine F).step c incoming = some c') :
    Tracked F c' := by
  rcases groupStep_cases halike h hnothing hstep with rfl | ⟨k, -, hk, hcreated⟩
  · exact h
  · exact h.created_step hcreated hk

omit [DecidableEq ι] in
theorem tracked_of_construct {initParameters : Json} (h : construct F initParameters = .ok c) :
    Tracked F c := by
  have hnew : ∃ mType mKey, c = { mType, mKey, created := 1, mContextRouter :=
      { mNodeRouters := CohesiveGroupRouter.createGroupRouterNodes
          (F.interfaceNames (F.createImplementation 0)) } } := by
    unfold construct at h
    obtain ⟨mType, -, h⟩ := bind_eq_ok.1 h
    obtain ⟨mKey, -, h⟩ := bind_eq_ok.1 h
    exact ⟨mType, mKey, (Except.ok.inj h).symm⟩
  obtain ⟨mType, mKey, rfl⟩ := hnew
  constructor
  case routers =>
    intro name
    rw [hasRouter, lookup_createGroupRouterNodes]
    split <;> simp [*]
  case created => rfl
  case once => exact List.nodup_nil
  case holds =>
    intro name k node
    rw [holds, lookup_createGroupRouterNodes]
    split <;> simp

theorem tracked_of_reachable (halike : F.Alike) {initParameters : Json} {c₀ : ContextualGroup ι}
    (hconstruct : construct F initParameters = .ok c₀)
    (h : (groupMachine F).Reachable (removesNothing F) c₀ c) : Tracked F c :=
  h.invariant (tracked_of_construct hconstruct) fun _ _ _ hu hok hs => hu.step halike hok hs

/-- **Cohesion of contextual groups.**  After every sequence of packets that are routed, the
sub-routers have the same contexts, each with interfaces of one instance of its own; and the next
packet is handled. -/
theorem cohesion_of_reachable (halike : F.Alike) {initParameters : Json} {c₀ : ContextualGroup ι}
    (hconstruct : construct F initParameters = .ok c₀)
    (h : (groupMachine F).Reachable (fun _ incoming => incoming.routed) c₀ c) :
    Cohesion F c ∧ RoutesAll F c := by
  have htracked : Tracked F c := by
    refine tracked_of_reachable halike hconstruct (h.mono fun u incoming hrouted => ?_)
    cases incoming with
    | contextRouter => trivial
    | contextRemover => exact hrouted.elim
  refine ⟨htracked.cohesion halike, fun interface packet k hinterface hkey => ?_⟩
  have hname := (htracked.routers interface).2 hinterface.1
  by_cases hk : k ∈ c.createdFor
  · obtain ⟨n, hroute⟩ := route_present htracked hname hkey hk
    rw [if_pos ⟨hinterface.2 0, hinterface.2 n⟩] at hroute
    exact ⟨_, none, c, hroute⟩
  · obtain ⟨c', -, hroute⟩ := route_absent halike htracked hname hkey hk
    rw [if_pos ⟨hinterface.2 0, hinterface.2 c.created⟩] at hroute
    exact ⟨_, _, c', hroute⟩

end

/-! ### Groups that are pairs of their number and an interface -/

/-- A factory of groups with the interfaces `in` and `out`. -/
def pairFactory : GroupFactory ℕ (ℕ × ByteString) where
  createImplementation := id
  interfaceNames _ := [bytes "in", bytes "out"]
  getInterface group name := (group, name)
  isPathable _ := true

theorem pairFactory_alike : pairFactory.Alike where
  names _ := rfl
  fresh _ _ _ _ hne heq := hne (Prod.mk.inj heq).1

/-- The parameters that the node is created with. -/
def pairParameters : Json :=
  .object [(bytes "key", .string (bytes "id")), (bytes "type", .string (bytes "Pair"))]

/-- The node, with no contexts. -/
def pairNode : ContextualGroup (ℕ × ByteString) where
  mType := bytes "Pair"
  mKey := bytes "id"
  mContextRouter := ⟨CohesiveGroupRouter.createGroupRouterNodes [bytes "in", bytes "out"]⟩
  created := 1

/-- A packet of a context. -/
def packetOf (k : String) : Packet := { parameters := .object [(bytes "id", .string (bytes k))] }

/-- The node after a packet of the context `a` on the interface `in`. -/
def pairNodeA : ContextualGroup (ℕ × ByteString) :=
  ((groupMachine pairFactory).step pairNode (.contextRouter (bytes "in") (packetOf "a"))).getD
    pairNode

theorem pairNodeA_step : (groupMachine pairFactory).step pairNode
    (.contextRouter (bytes "in") (packetOf "a")) = some pairNodeA := by
  have hsome : ((groupMachine pairFactory).step pairNode
      (.contextRouter (bytes "in") (packetOf "a"))).isSome = true := by decide
  obtain ⟨u, hu⟩ := Option.isSome_iff_exists.1 hsome
  rw [pairNodeA, hu]
  rfl

theorem pairNode_construct : construct pairFactory pairParameters = .ok pairNode := rfl

theorem pairNodeA_reachable {ok : ContextualGroup (ℕ × ByteString) → GroupIncoming → Prop}
    (h : ok pairNode (.contextRouter (bytes "in") (packetOf "a"))) :
    (groupMachine pairFactory).Reachable ok pairNode pairNodeA :=
  ⟨_, .snoc (.nil _) h pairNodeA_step⟩

theorem cohesion_of_reachable_pair :
    Cohesion pairFactory pairNodeA ∧ RoutesAll pairFactory pairNodeA :=
  cohesion_of_reachable pairFactory_alike pairNode_construct (pairNodeA_reachable trivial)

/-! ### Removing a context -/

/-- **A context that has instances is not removed.**  The node has instances for `a`, and the
remover, asked for `a`, does nothing. -/
theorem not_removesContext_leak : ¬ ∀ c,
    (groupMachine pairFactory).Reachable Machine.free pairNode c →
    ∀ packet k, ContextualNode.keyOf c.mKey packet = some k →
      ∃ outcome c', c.remove packet = .ok (outcome, c') ∧
        RemovesContext pairFactory c packet k outcome c' := by
  intro h
  obtain ⟨outcome, c', hremove, hremoves⟩ :=
    h pairNodeA (pairNodeA_reachable trivial) (packetOf "a") (bytes "a") (by decide)
  have hcontext : pairNodeA.HasContext (bytes "a") := ⟨bytes "in", by decide⟩
  have hignored : (pairNodeA.remove (packetOf "a")).toOption.map (fun r => r.1 matches .ignored) =
      some true := by decide
  rw [hremove, hremoves.emits hcontext] at hignored
  cases hignored

section

variable [DecidableEq ι]

theorem removeNode_interface {router router' : CohesiveGroupRouter ι} {removed : Bool}
    (hrouter : (router.mNodeRouters.lookup k).isSome = true)
    (h : router.removeNode k = .ok (removed, router')) :
    removed = true ∧ router'.mNodeRouters.lookup k = none := by
  obtain ⟨routerNode, hlookup⟩ := Option.isSome_iff_exists.1 hrouter
  simp only [CohesiveGroupRouter.removeNode, hlookup, bind, Except.bind, pure, Except.pure] at h
  split at h
  · cases h
  · cases h
    exact ⟨rfl, AList.lookup_erase _ _⟩

/-- Whatever else the removal of a context called like an interface does, it erases the router of
that interface. -/
theorem remove_interface (hkey : ContextualNode.keyOf c.mKey packet = some k) {outcome : Outcome ι}
    (hrouter : c.hasRouter k = true) (h : c.remove packet = .ok (outcome, c')) :
    c'.hasRouter k = false := by
  rw [remove, (keyParameter_of_keyOf hkey).2] at h
  obtain ⟨nodeKey, hnodeKey, h⟩ := bind_eq_ok.1 h
  obtain rfl := Except.ok.inj hnodeKey
  obtain ⟨⟨removed, router'⟩, hremove, h⟩ := bind_eq_ok.1 h
  obtain ⟨rfl, hnone⟩ := removeNode_interface hrouter hremove
  simp only [(keyParameter_of_keyOf hkey).1, Json.set, bind, Except.bind, pure, Except.pure,
    ↓reduceIte, Except.ok.injEq, Prod.mk.injEq] at h
  rw [← h.2, hasRouter, hnone]
  rfl

/-- A context not called like an interface is not removed. -/
theorem remove_context (hkey : ContextualNode.keyOf c.mKey packet = some k)
    (hrouter : c.hasRouter k = false) : c.remove packet = .ok (.ignored, c) := by
  have hnone : c.mContextRouter.mNodeRouters.lookup k = none := by simpa [hasRouter] using hrouter
  rw [remove, (keyParameter_of_keyOf hkey).2]
  simp [CohesiveGroupRouter.removeNode, hnone, bind, Except.bind, pure, Except.pure]

/-- A context that is not used stays without instances. -/
theorem absent_of_reachable (halike : F.Alike) (h : Tracked F c) (hk : k ∉ c.createdFor)
    (hrun : (groupMachine F).Reachable
      (fun u incoming => removesNothing F u incoming ∧ incoming.key u.mKey ≠ some k) c c') :
    Tracked F c' ∧ k ∉ c'.createdFor := by
  refine hrun.invariant (I := fun u => Tracked F u ∧ k ∉ u.createdFor) ⟨h, hk⟩
    fun u incoming u' hu hok hs => ⟨hu.1.step halike hok.1 hs, ?_⟩
  rcases groupStep_cases halike hu.1 hok.1 hs with rfl | ⟨k', hkey, -, hcreated⟩
  · exact hu.2
  · rw [hcreated.createdFor, List.mem_append, List.mem_singleton, not_or]
    exact ⟨hu.2, fun heq => hok.2 (heq ▸ hkey)⟩

theorem removesContext_of_nothing (halike : F.Alike) (h : Tracked F c)
    (hkey : ContextualNode.keyOf c.mKey packet = some k) (hnothing : NothingToRemove F c k) :
    ∃ outcome c', c.remove packet = .ok (outcome, c') ∧
      RemovesContext F c packet k outcome c' := by
  refine ⟨.ignored, c, remove_nothing h hkey hnothing, ?_⟩
  constructor
  case routers => exact fun _ => rfl
  case removed => exact hnothing.2
  case others => exact fun _ _ _ => rfl
  case emits => exact fun hcontext => absurd hcontext hnothing.2
  case ignores => exact fun _ => rfl
  case later =>
    intro c'' hrun interface packet' hinterface hkey'
    have hk : k ∉ c.createdFor := fun hk => hnothing.2
      ⟨interface, (h.isSome_holds ((h.routers interface).2 hinterface.1)).2 hk⟩
    obtain ⟨h'', hk''⟩ := absent_of_reachable halike h hk hrun
    obtain ⟨u', -, hroute⟩ :=
      route_absent halike h'' ((h''.routers interface).2 hinterface.1) hkey' hk''
    rw [if_pos ⟨hinterface.2 0, hinterface.2 c''.created⟩] at hroute
    exact ⟨u', hroute⟩

/-- **When removing a context does what it should**: when there is nothing to remove. -/
theorem removesContext_iff (halike : F.Alike) {initParameters : Json} {c₀ : ContextualGroup ι}
    (hconstruct : construct F initParameters = .ok c₀)
    (h : (groupMachine F).Reachable (removesNothing F) c₀ c)
    (hkey : ContextualNode.keyOf c.mKey packet = some k) :
    (∃ outcome c', c.remove packet = .ok (outcome, c') ∧
      RemovesContext F c packet k outcome c') ↔ NothingToRemove F c k := by
  have htracked := tracked_of_reachable halike hconstruct h
  constructor
  · rintro ⟨outcome, c', hremove, hremoves⟩
    have hrouter : ¬ c.hasRouter k = true := by
      intro hrouter
      have hsame := hremoves.routers k
      rw [remove_interface hkey hrouter hremove, hrouter] at hsame
      cases hsame
    refine ⟨fun hname => hrouter ((htracked.routers k).2 hname), fun hcontext => ?_⟩
    have hnothing := remove_context hkey (Bool.not_eq_true _ ▸ hrouter)
    cases hnothing.symm.trans hremove
    exact hremoves.removed hcontext
  · exact removesContext_of_nothing halike htracked hkey

end

theorem removesContext_iff_pair :
    ¬ ∃ outcome c', pairNodeA.remove (packetOf "a") = .ok (outcome, c') ∧
      RemovesContext pairFactory pairNodeA (packetOf "a") (bytes "a") outcome c' := by
  intro h
  exact ((removesContext_iff pairFactory_alike pairNode_construct (pairNodeA_reachable trivial)
    (by decide)).1 h).2 ⟨bytes "in", by decide⟩

end Maplang
