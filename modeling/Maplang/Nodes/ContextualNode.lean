import Maplang.Stream.Buffer
import Maplang.Table.Sessions
import Mathlib.Data.List.AList

/-!
# Contextual nodes

A `ContextualNode` keeps one instance of an implementation for each value of a key parameter.  Its
*Context Router* hands a packet to the instance of the packet's key, creating it when there is none,
and its *Context Remover* forgets the instance of a key.

The model covers a node whose template is not a group, so that the router is a `SingleNodeRouter`.
Packets are handled one after the other: the instance handles a packet, and the remover pushes its
answer, as the last thing that happens, so that packets sent from there simply come next.

## Main definitions

* `SingleNodeRouter`, `ContextualNode` : the two maps, and the node with its factory's objects.
* `ContextualNode.construct`, `handle`, `run` : the code.
* `outcomeOf` : what happens to a packet, in terms of the sessions of its key.

## Main results

* `handle_spec`, `run_spec` : the node does what the sessions say, and the two maps stay inverse.
* `context_isolation` : each instance serves one key, from its first packet to its removal.
-/

namespace Maplang

/-- The implementation factory, with the objects `createImplementation` returns one after the
other. -/
structure ImplementationFactory (ι : Type) where
  createImplementation : ℕ → ι
  /-- `asPathable() != nullptr`. -/
  isPathable : ι → Bool
  /-- `asGroup() != nullptr`. -/
  isGroup : ι → Bool

variable {ι : Type}

/-- `class SingleNodeRouter`, less its packet pusher and subgraph context. -/
structure SingleNodeRouter (ι : Type) where
  mNodes : AList fun _ : ByteString => ι := ∅
  mReverseNodeLookup : AList fun _ : ι => ByteString := ∅

/-- `class ContextualNode::Impl`, with its router; the router and the remover keep copies of
`mKey`. -/
structure ContextualNode (ι : Type) where
  mType : ByteString
  mKey : ByteString
  mContextRouter : SingleNodeRouter ι := {}
  /-- How many objects the factory has created. -/
  created : ℕ := 0

namespace SingleNodeRouter

variable [DecidableEq ι]

/-- `SingleNodeRouter::addNode`. -/
def addNode (router : SingleNodeRouter ι) (contextLookup : ByteString) (node : ι) :
    SingleNodeRouter ι where
  mNodes := router.mNodes.insert contextLookup node
  mReverseNodeLookup := router.mReverseNodeLookup.insert node contextLookup

/-- `SingleNodeRouter::removeNode`.  Erasing a missing reverse entry is undefined. -/
def removeNode (router : SingleNodeRouter ι) (contextLookup : ByteString) :
    Code (Bool × SingleNodeRouter ι) :=
  match router.mNodes.lookup contextLookup with
  | none => .ok (false, router)
  | some node =>
    match router.mReverseNodeLookup.lookup node with
    | none => .error .undefinedBehaviour
    | some _ => .ok (true,
      { mNodes := router.mNodes.erase contextLookup
        mReverseNodeLookup := router.mReverseNodeLookup.erase node })

/-- The two maps are inverse to each other. -/
def Inverse (router : SingleNodeRouter ι) : Prop :=
  ∀ k node, router.mNodes.lookup k = some node ↔ router.mReverseNodeLookup.lookup node = some k

variable {router : SingleNodeRouter ι} {k : ByteString} {node : ι}

/-- A new node under a new key keeps the maps inverse. -/
theorem Inverse.addNode (h : router.Inverse) (hk : router.mNodes.lookup k = none)
    (hnode : router.mReverseNodeLookup.lookup node = none) : (router.addNode k node).Inverse := by
  intro k' node'
  simp only [SingleNodeRouter.addNode]
  by_cases hk' : k' = k
  · subst hk'
    rw [AList.lookup_insert]
    by_cases hn : node' = node
    · subst hn
      simp [AList.lookup_insert]
    · rw [AList.lookup_insert_ne hn, ← h k' node', hk]
      simp [Ne.symm hn]
  · rw [AList.lookup_insert_ne hk', h k' node']
    by_cases hn : node' = node
    · subst hn
      rw [AList.lookup_insert, hnode]
      simp [Ne.symm hk']
    · rw [AList.lookup_insert_ne hn]

/-- Erasing a key and its node keeps the maps inverse. -/
theorem Inverse.erase (h : router.Inverse) (hk : router.mNodes.lookup k = some node) :
    Inverse { mNodes := router.mNodes.erase k,
              mReverseNodeLookup := router.mReverseNodeLookup.erase node } := by
  intro k' node'
  have hreverse : router.mReverseNodeLookup.lookup node = some k := (h k node).1 hk
  by_cases hk' : k' = k
  · subst hk'
    rw [AList.lookup_erase]
    by_cases hn : node' = node
    · subst hn
      simp [AList.lookup_erase]
    · rw [AList.lookup_erase_ne hn, ← h k' node', hk]
      simp [Ne.symm hn]
  · rw [AList.lookup_erase_ne hk', h k' node']
    by_cases hn : node' = node
    · subst hn
      rw [AList.lookup_erase, hreverse]
      simp [Ne.symm hk']
    · rw [AList.lookup_erase_ne hn]

theorem removeNode_none (hk : router.mNodes.lookup k = none) :
    router.removeNode k = .ok (false, router) := by
  simp [removeNode, hk]

theorem removeNode_some (h : router.Inverse) (hk : router.mNodes.lookup k = some node) :
    router.removeNode k = .ok (true,
      { mNodes := router.mNodes.erase k
        mReverseNodeLookup := router.mReverseNodeLookup.erase node }) := by
  simp [removeNode, hk, (h k node).1 hk]

end SingleNodeRouter

/-- A packet sent to one of the two interfaces. -/
inductive Incoming where
  | contextRouter (packet : Packet)
  | contextRemover (packet : Packet)

/-- What the node does with a packet. -/
inductive Outcome (ι : Type) where
  /-- An instance handles it; `created` is the object created for it. -/
  | handlePacket (node : ι) (packet : Packet) (created : Option ι)
  /-- The remover has forgotten an instance, and pushes a packet to a channel. -/
  | pushPacket (packet : Packet) (channel : String)
  /-- There was nothing to remove. -/
  | ignored

/-- `getJson` : a member of the initialisation parameters. -/
def getJson (containingObject : Json) (containingKey key : String) : Code Json :=
  match containingObject.find (bytes key) with
  | none => throwRuntimeError ("'" ++ key ++ "' is missing in '" ++ containingKey ++ "'")
  | some value => .ok value

/-- `getNonEmptyStringOrThrow`. -/
def getNonEmptyStringOrThrow (containingObject : Json) (containingKey key : String) :
    Code ByteString :=
  match getJson containingObject containingKey key with
  | .error fault => .error fault
  | .ok (.string []) => throwRuntimeError
    ("'" ++ key ++ "' cannot be an empty string in '" ++ containingKey ++ "'")
  | .ok (.string stringValue) => .ok stringValue
  | .ok value => throwRuntimeError ("'" ++ key ++ "' must be a string in '" ++ containingKey
    ++ "'. Actual type: " ++ value.typeName)

namespace ContextualNode

variable (F : ImplementationFactory ι)

/-- The constructor of a `ContextualNode`, with `Impl::initialize`; `none` for a template that is a
group, whose router is a `CohesiveGroupRouter`. -/
def construct (initParameters : Json) : Code (Option (ContextualNode ι)) := do
  let mType ← getNonEmptyStringOrThrow initParameters "initParameters" "type"
  let mKey ← getNonEmptyStringOrThrow initParameters "initParameters" "key"
  if F.isGroup (F.createImplementation 0) then return none
  else return some { mType, mKey, created := 1 }

/-- `parameters[mKey].get<string>()`. -/
def contextLookup (c : ContextualNode ι) (packet : Packet) : Code ByteString := do
  (← packet.parameters.get c.mKey).getString

section

variable [DecidableEq ι]

/-- `ContextualNode::Impl::createNewInstance`. -/
def createNewInstance (c : ContextualNode ι) (forNewContextLookup : ByteString) :
    ContextualNode ι :=
  { c with
    mContextRouter :=
      c.mContextRouter.addNode forNewContextLookup (F.createImplementation c.created)
    created := c.created + 1 }

/-- `SingleNodeRouter::handlePacket`.  Calling a null pointer is undefined. -/
def route (c : ContextualNode ι) (packet : Packet) : Code (Outcome ι × ContextualNode ι) := do
  let contextLookup ← c.contextLookup packet
  match c.mContextRouter.mNodes.lookup contextLookup with
  | some node =>
    if F.isPathable node then return (.handlePacket node packet none, c)
    else .error .undefinedBehaviour
  | none =>
    let c' := c.createNewInstance F contextLookup
    match c'.mContextRouter.mNodes.lookup contextLookup with
    | some node =>
      if F.isPathable node then
        return (.handlePacket node packet (some (F.createImplementation c.created)), c')
      else .error .undefinedBehaviour
    | none => .error .undefinedBehaviour

/-- `ContextRemover::handlePacket`. -/
def remove (c : ContextualNode ι) (packet : Packet) : Code (Outcome ι × ContextualNode ι) := do
  let nodeKey ← c.contextLookup packet
  let (removed, mContextRouter) ← c.mContextRouter.removeNode nodeKey
  if removed then
    let parameters ← Json.null.set c.mKey (← packet.parameters.get c.mKey)
    return (.pushPacket { parameters } "Removed Key", { c with mContextRouter })
  else return (.ignored, c)

/-- Handle one packet. -/
def handle (c : ContextualNode ι) : Incoming → Code (Outcome ι × ContextualNode ι)
  | .contextRouter packet => c.route F packet
  | .contextRemover packet => c.remove packet

/-- Handle one packet after the other. -/
def run (c : ContextualNode ι) : List Incoming → Code (List (Outcome ι) × ContextualNode ι)
  | [] => .ok ([], c)
  | incoming :: rest => do
    let (outcome, c') ← c.handle F incoming
    let (outcomes, c'') ← c'.run rest
    return (outcome :: outcomes, c'')

end

/-! ### Sessions of keys -/

/-- The value of the key parameter, when it is a string. -/
def keyOf (mKey : ByteString) (packet : Packet) : Option ByteString :=
  match packet.parameters.find mKey with
  | some (.string k) => some k
  | _ => none

/-- A packet uses or closes the session of its key. -/
def eventOf (mKey : ByteString) : Incoming → Sessions.Event ByteString
  | .contextRouter packet => .use ((keyOf mKey packet).getD [])
  | .contextRemover packet => .close ((keyOf mKey packet).getD [])

/-- The packet has a string as its key parameter. -/
def HasKey (mKey : ByteString) : Incoming → Prop
  | .contextRouter packet => (keyOf mKey packet).isSome = true
  | .contextRemover packet => (keyOf mKey packet).isSome = true

/-- The instance of the session opened by the packet at position `q`; the first object was the
template. -/
def instanceOf (events : List (Sessions.Event ByteString)) (q : ℕ) : ι :=
  F.createImplementation (1 + Sessions.opened (events.take q))

/-- What the node does with a packet after the events. -/
def outcomeOf (mKey : ByteString) (events : List (Sessions.Event ByteString)) :
    Incoming → Outcome ι
  | .contextRouter packet =>
    match Sessions.current events ((keyOf mKey packet).getD []) with
    | some q => .handlePacket (instanceOf F events q) packet none
    | none => .handlePacket (instanceOf F events events.length) packet
        (some (instanceOf F events events.length))
  | .contextRemover packet =>
    match Sessions.current events ((keyOf mKey packet).getD []) with
    | some _ => .pushPacket
        { parameters := .object [(mKey, .string ((keyOf mKey packet).getD []))] } "Removed Key"
    | none => .ignored

variable {F} {mKey : ByteString} {events : List (Sessions.Event ByteString)}
  {c : ContextualNode ι} {packet : Packet} {k : ByteString}

theorem contextLookup_eq (hc : c.mKey = mKey) (hk : keyOf mKey packet = some k) :
    packet.parameters.get mKey = .ok (.string k) ∧ c.contextLookup packet = .ok k := by
  have hfind : packet.parameters.find mKey = some (.string k) := by
    unfold keyOf at hk
    split at hk
    · rename_i k' hk'
      rw [hk', Option.some.inj hk]
    · cases hk
  have hget : packet.parameters.get mKey = .ok (.string k) := by
    cases hj : packet.parameters <;> rw [hj] at hfind <;> try cases hfind
    rw [Json.find_object] at hfind
    simp [Json.get, hfind]
  refine ⟨hget, ?_⟩
  rw [contextLookup, hc, hget]
  rfl

theorem instanceOf_append {q : ℕ} (hq : q ≤ events.length) (e : Sessions.Event ByteString) :
    instanceOf F (events ++ [e]) q = instanceOf F events q := by
  rw [instanceOf, instanceOf, List.take_append_of_le_length hq]

theorem map_instanceOf_append (e : Sessions.Event ByteString) (k : ByteString) :
    (Sessions.current events k).map (instanceOf F (events ++ [e])) =
      (Sessions.current events k).map (instanceOf F events) := by
  cases h : Sessions.current events k with
  | none => rfl
  | some q => simp [instanceOf_append (Sessions.lt_length_of_current h).le]

section

variable [DecidableEq ι]

/-- The maps hold the instances of the current sessions. -/
structure Tracks (F : ImplementationFactory ι) (mKey : ByteString)
    (events : List (Sessions.Event ByteString)) (c : ContextualNode ι) : Prop where
  mKey : c.mKey = mKey
  created : c.created = 1 + Sessions.opened events
  mNodes : ∀ k, c.mContextRouter.mNodes.lookup k =
    (Sessions.current events k).map (instanceOf F events)
  inverse : c.mContextRouter.Inverse

theorem Tracks.route_some (hpath : ∀ n, F.isPathable (F.createImplementation n) = true)
    (h : Tracks F mKey events c) (hk : keyOf mKey packet = some k) {q : ℕ}
    (hq : Sessions.current events k = some q) :
    c.route F packet = .ok (.handlePacket (instanceOf F events q) packet none, c) ∧
      Tracks F mKey (events ++ [.use k]) c := by
  have hlookup : c.mContextRouter.mNodes.lookup k = some (instanceOf F events q) := by
    rw [h.mNodes, hq, Option.map_some]
  refine ⟨?_, h.mKey, ?_, fun k' => ?_, h.inverse⟩
  · rw [route, (contextLookup_eq h.mKey hk).2]
    simp [bind, Except.bind, pure, Except.pure, hlookup, instanceOf, hpath]
  · rw [h.created, Sessions.opened_append]
    simp [Sessions.opens, hq]
  · rw [Sessions.current_append, Sessions.advance, hq, Option.getD_some]
    by_cases hk' : k' = k
    · subst hk'
      rw [Function.update_self, hlookup, Option.map_some,
        instanceOf_append (Sessions.lt_length_of_current hq).le]
    · rw [Function.update_of_ne hk', map_instanceOf_append, h.mNodes]

/-- A new object is in neither map. -/
theorem Tracks.lookup_created (hfresh : Function.Injective F.createImplementation)
    (h : Tracks F mKey events c) :
    c.mContextRouter.mReverseNodeLookup.lookup (F.createImplementation c.created) = none := by
  by_contra hne
  obtain ⟨k, hk⟩ := Option.ne_none_iff_exists'.1 hne
  have hlookup := (h.inverse k _).2 hk
  rw [h.mNodes, Option.map_eq_some_iff] at hlookup
  obtain ⟨q, hq, heq⟩ := hlookup
  -- an object in a map was created when its session was opened, which is before the end
  have hcount := hfresh heq
  have hlt := Sessions.opened_take_lt (Sessions.opens_of_current hq)
    (Sessions.lt_length_of_current hq) le_rfl
  rw [List.take_length] at hlt
  rw [h.created] at hcount
  omega

theorem Tracks.route_none (hfresh : Function.Injective F.createImplementation)
    (hpath : ∀ n, F.isPathable (F.createImplementation n) = true) (h : Tracks F mKey events c)
    (hk : keyOf mKey packet = some k) (hq : Sessions.current events k = none) :
    c.route F packet = .ok (.handlePacket (instanceOf F events events.length) packet
      (some (instanceOf F events events.length)), c.createNewInstance F k) ∧
      Tracks F mKey (events ++ [.use k]) (c.createNewInstance F k) := by
  have hlookup : c.mContextRouter.mNodes.lookup k = none := by rw [h.mNodes, hq, Option.map_none]
  have hobject : F.createImplementation c.created = instanceOf F events events.length := by
    rw [instanceOf, h.created, List.take_length]
  have hpathable : F.isPathable (instanceOf F events events.length) = true := hpath _
  refine ⟨?_, h.mKey, ?_, fun k' => ?_, h.inverse.addNode hlookup (h.lookup_created hfresh)⟩
  · rw [route, (contextLookup_eq h.mKey hk).2]
    simp [bind, Except.bind, pure, Except.pure, hlookup, createNewInstance,
      SingleNodeRouter.addNode, hpathable, hobject]
  · rw [createNewInstance, h.created, Sessions.opened_append]
    simp [Sessions.opens, hq]
    omega
  · rw [Sessions.current_append, Sessions.advance, hq, Option.getD_none]
    simp only [createNewInstance, SingleNodeRouter.addNode, hobject]
    by_cases hk' : k' = k
    · subst hk'
      rw [Function.update_self, AList.lookup_insert, Option.map_some, instanceOf_append le_rfl]
    · rw [Function.update_of_ne hk', AList.lookup_insert_ne hk', map_instanceOf_append, h.mNodes]

theorem Tracks.remove_some (h : Tracks F mKey events c) (hk : keyOf mKey packet = some k) {q : ℕ}
    (hq : Sessions.current events k = some q) :
    ∃ c', c.remove packet =
        .ok (.pushPacket { parameters := .object [(mKey, .string k)] } "Removed Key", c') ∧
      Tracks F mKey (events ++ [.close k]) c' := by
  have hlookup : c.mContextRouter.mNodes.lookup k = some (instanceOf F events q) := by
    rw [h.mNodes, hq, Option.map_some]
  let mContextRouter : SingleNodeRouter ι :=
    { mNodes := c.mContextRouter.mNodes.erase k
      mReverseNodeLookup := c.mContextRouter.mReverseNodeLookup.erase (instanceOf F events q) }
  refine ⟨{ c with mContextRouter }, ?_, h.mKey, ?_, fun k' => ?_, h.inverse.erase hlookup⟩
  · rw [remove, (contextLookup_eq h.mKey hk).2]
    simp [bind, Except.bind, pure, Except.pure, SingleNodeRouter.removeNode_some h.inverse hlookup,
      h.mKey, (contextLookup_eq h.mKey hk).1, Json.set, mContextRouter]
  · rw [h.created, Sessions.opened_append]
    simp [Sessions.opens]
  · rw [Sessions.current_append, Sessions.advance]
    by_cases hk' : k' = k
    · subst hk'
      rw [Function.update_self, AList.lookup_erase, Option.map_none]
    · rw [Function.update_of_ne hk', AList.lookup_erase_ne hk', map_instanceOf_append, h.mNodes]

theorem Tracks.remove_none (h : Tracks F mKey events c) (hk : keyOf mKey packet = some k)
    (hq : Sessions.current events k = none) :
    c.remove packet = .ok (.ignored, c) ∧ Tracks F mKey (events ++ [.close k]) c := by
  have hlookup : c.mContextRouter.mNodes.lookup k = none := by rw [h.mNodes, hq, Option.map_none]
  refine ⟨?_, h.mKey, ?_, fun k' => ?_, h.inverse⟩
  · rw [remove, (contextLookup_eq h.mKey hk).2]
    simp [bind, Except.bind, pure, Except.pure, SingleNodeRouter.removeNode_none hlookup]
  · rw [h.created, Sessions.opened_append]
    simp [Sessions.opens]
  · rw [Sessions.current_append, Sessions.advance]
    by_cases hk' : k' = k
    · subst hk'
      rw [Function.update_self, hlookup, Option.map_none]
    · rw [Function.update_of_ne hk', map_instanceOf_append, h.mNodes]

/-- **One packet**: the node does what the sessions say, and its maps follow the sessions. -/
theorem handle_spec (hfresh : Function.Injective F.createImplementation)
    (hpath : ∀ n, F.isPathable (F.createImplementation n) = true) (h : Tracks F mKey events c)
    {incoming : Incoming} (hkey : HasKey mKey incoming) :
    ∃ c', c.handle F incoming = .ok (outcomeOf F mKey events incoming, c') ∧
      Tracks F mKey (events ++ [eventOf mKey incoming]) c' := by
  cases incoming with
  | contextRouter packet =>
    obtain ⟨k, hk⟩ := Option.isSome_iff_exists.1 hkey
    cases hq : Sessions.current events k with
    | some q =>
      exact ⟨c, by simpa [handle, outcomeOf, eventOf, hk, hq] using h.route_some hpath hk hq⟩
    | none =>
      exact ⟨_, by simpa [handle, outcomeOf, eventOf, hk, hq] using h.route_none hfresh hpath hk hq⟩
  | contextRemover packet =>
    obtain ⟨k, hk⟩ := Option.isSome_iff_exists.1 hkey
    cases hq : Sessions.current events k with
    | some q => simpa [handle, outcomeOf, eventOf, hk, hq] using h.remove_some hk hq
    | none => exact ⟨c, by simpa [handle, outcomeOf, eventOf, hk, hq] using h.remove_none hk hq⟩

/-- **A whole run**: every packet meets the sessions left by the packets before it. -/
theorem run_spec (hfresh : Function.Injective F.createImplementation)
    (hpath : ∀ n, F.isPathable (F.createImplementation n) = true) (h : Tracks F mKey events c)
    {incomings : List Incoming} (hkey : ∀ incoming ∈ incomings, HasKey mKey incoming) :
    ∃ outcomes c', c.run F incomings = .ok (outcomes, c') ∧
      Tracks F mKey (events ++ incomings.map (eventOf mKey)) c' ∧
      ∀ p : ℕ, outcomes[p]? = incomings[p]?.map
        (outcomeOf F mKey (events ++ (incomings.take p).map (eventOf mKey))) := by
  induction incomings generalizing events c with
  | nil => exact ⟨[], c, rfl, by simpa using h, by simp⟩
  | cons incoming rest ih =>
    obtain ⟨c', hhandle, h'⟩ := handle_spec hfresh hpath h (hkey incoming (by simp))
    obtain ⟨outcomes, c'', hrun, h'', hall⟩ := ih h' fun i hi => hkey i (by simp [hi])
    refine ⟨outcomeOf F mKey events incoming :: outcomes, c'', ?_, by simpa using h'', fun p => ?_⟩
    · simp [run, bind, Except.bind, pure, Except.pure, hhandle, hrun]
    · cases p with
      | zero => simp
      | succ p => simpa using hall p

end

/-! ### Isolation -/

/-- The packet at position `p` is routed by the key `k`. -/
def Routes (mKey : ByteString) (incomings : List Incoming) (p : ℕ) (k : ByteString) : Prop :=
  ∃ packet, incomings[p]? = some (.contextRouter packet) ∧ keyOf mKey packet = some k

/-- The packet at position `p` removes the key `k`. -/
def Removes (mKey : ByteString) (incomings : List Incoming) (p : ℕ) (k : ByteString) : Prop :=
  ∃ packet, incomings[p]? = some (.contextRemover packet) ∧ keyOf mKey packet = some k

/-- What a run promises, in terms of the packets sent and of what became of each. -/
structure Isolated (mKey : ByteString) (incomings : List Incoming) (outcomes : List (Outcome ι)) :
    Prop where
  /-- A routed packet is handled by the instance created at the first packet routed by the same key
  since the key was last removed. -/
  handled : ∀ (p : ℕ) packet k, incomings[p]? = some (.contextRouter packet) →
    keyOf mKey packet = some k →
    ∃ (q : ℕ) (node : ι) (first : Packet) (created : Option ι),
      outcomes[p]? = some (.handlePacket node packet created) ∧ q ≤ p ∧
      Routes mKey incomings q k ∧ outcomes[q]? = some (.handlePacket node first (some node)) ∧
      (∀ r, q < r → r < p → ¬ Removes mKey incomings r k) ∧
      ∀ q' < q, Routes mKey incomings q' k → ∃ r, q' < r ∧ r < q ∧ Removes mKey incomings r k
  /-- An instance handles packets of one key. -/
  separate : ∀ (p p' : ℕ) node packet packet' created created',
    outcomes[p]? = some (.handlePacket node packet created) →
    outcomes[p']? = some (.handlePacket node packet' created') →
    keyOf mKey packet = keyOf mKey packet'
  /-- A removed instance handles nothing any more. -/
  gone : ∀ (p r p' : ℕ) k node node' packet packet' created created', Removes mKey incomings r k →
    p < r → r < p' → keyOf mKey packet = some k →
    outcomes[p]? = some (.handlePacket node packet created) →
    outcomes[p']? = some (.handlePacket node' packet' created') → node ≠ node'
  /-- The remover reports a key that had an instance, and no other. -/
  removed : ∀ (r : ℕ) k, Removes mKey incomings r k →
    (outcomes[r]? = some (.pushPacket { parameters := .object [(mKey, .string k)] } "Removed Key") ∧
      ∃ q < r, Routes mKey incomings q k ∧ ∀ r', q < r' → r' < r → ¬ Removes mKey incomings r' k) ∨
    (outcomes[r]? = some .ignored ∧
      ∀ q < r, Routes mKey incomings q k → ∃ r', q < r' ∧ r' < r ∧ Removes mKey incomings r' k)

section

variable {incomings : List Incoming} (hkey : ∀ incoming ∈ incomings, HasKey mKey incoming)

include hkey

theorem use_iff {p : ℕ} :
    (incomings.map (eventOf mKey))[p]? = some (.use k) ↔ Routes mKey incomings p k := by
  rw [List.getElem?_map, Option.map_eq_some_iff]
  constructor
  · rintro ⟨incoming, hp, hevent⟩
    cases incoming with
    | contextRouter packet =>
      obtain ⟨k', hk'⟩ := Option.isSome_iff_exists.1 (hkey _ (List.mem_of_getElem? hp))
      rw [eventOf, hk', Sessions.Event.use.injEq] at hevent
      exact ⟨packet, hp, hk'.trans (congrArg some hevent)⟩
    | contextRemover packet => cases hevent
  · rintro ⟨packet, hp, hk⟩
    exact ⟨_, hp, by rw [eventOf, hk, Option.getD_some]⟩

theorem close_iff {p : ℕ} :
    (incomings.map (eventOf mKey))[p]? = some (.close k) ↔ Removes mKey incomings p k := by
  rw [List.getElem?_map, Option.map_eq_some_iff]
  constructor
  · rintro ⟨incoming, hp, hevent⟩
    cases incoming with
    | contextRouter packet => cases hevent
    | contextRemover packet =>
      obtain ⟨k', hk'⟩ := Option.isSome_iff_exists.1 (hkey _ (List.mem_of_getElem? hp))
      rw [eventOf, hk', Sessions.Event.close.injEq] at hevent
      exact ⟨packet, hp, hk'.trans (congrArg some hevent)⟩
  · rintro ⟨packet, hp, hk⟩
    exact ⟨_, hp, by rw [eventOf, hk, Option.getD_some]⟩

end

/-- A routed packet is handled by the instance of its session. -/
theorem outcomeOf_router {p : ℕ} (hp : p < events.length) (hk : keyOf mKey packet = some k) :
    outcomeOf F mKey (events.take p) (.contextRouter packet) =
      .handlePacket (instanceOf F events (Sessions.session events p k)) packet
        (if Sessions.session events p k = p then some (instanceOf F events p) else none) := by
  rw [outcomeOf, hk, Option.getD_some, Sessions.session]
  cases hq : Sessions.current (events.take p) k with
  | some q =>
    have hlt := Sessions.lt_length_of_current hq
    rw [List.length_take, Nat.min_eq_left hp.le] at hlt
    simp [instanceOf, List.take_take, Nat.min_eq_left hlt.le, hlt.ne]
  | none => simp [instanceOf, List.take_take, Nat.min_eq_left hp.le]

/-- Objects created in different sessions are different. -/
theorem session_of_instanceOf (hfresh : Function.Injective F.createImplementation)
    {p p' : ℕ} {k' : ByteString} (h : events[p]? = some (.use k))
    (h' : events[p']? = some (.use k'))
    (heq : instanceOf F events (Sessions.session events p k) =
      instanceOf F events (Sessions.session events p' k')) :
    Sessions.session events p k = Sessions.session events p' k' :=
  Sessions.opened_inj (Sessions.opens_session h) (Sessions.opens_session h')
    (Nat.add_left_cancel (hfresh heq))

section

variable {incomings : List Incoming} {outcomes : List (Outcome ι)}
  (hkey : ∀ incoming ∈ incomings, HasKey mKey incoming)
  (hout : ∀ p : ℕ, outcomes[p]? = incomings[p]?.map
    (outcomeOf F mKey ((incomings.take p).map (eventOf mKey))))

include hkey hout

/-- What became of a routed packet. -/
theorem outcome_router {p : ℕ} (hp : incomings[p]? = some (.contextRouter packet))
    (hk : keyOf mKey packet = some k) :
    let events := incomings.map (eventOf mKey)
    events[p]? = some (.use k) ∧ outcomes[p]? = some
      (.handlePacket (instanceOf F events (Sessions.session events p k)) packet
        (if Sessions.session events p k = p then some (instanceOf F events p) else none)) := by
  have huse := (use_iff hkey).2 ⟨packet, hp, hk⟩
  refine ⟨huse, ?_⟩
  rw [hout, hp, Option.map_some, List.map_take,
    outcomeOf_router (List.getElem?_eq_some_iff.1 huse).1 hk]

/-- A packet that was handled was routed. -/
theorem of_handlePacket {p : ℕ} {node : ι} {created : Option ι}
    (h : outcomes[p]? = some (.handlePacket node packet created)) :
    ∃ k, (incomings.map (eventOf mKey))[p]? = some (.use k) ∧ keyOf mKey packet = some k ∧
      node = instanceOf F (incomings.map (eventOf mKey))
        (Sessions.session (incomings.map (eventOf mKey)) p k) := by
  have h' := h
  rw [hout, Option.map_eq_some_iff] at h'
  obtain ⟨incoming, hp, heq⟩ := h'
  cases incoming with
  | contextRouter packet' =>
    obtain ⟨k, hk⟩ := Option.isSome_iff_exists.1 (hkey _ (List.mem_of_getElem? hp))
    obtain ⟨huse, hhandled⟩ := outcome_router hkey hout hp hk
    rw [h] at hhandled
    obtain ⟨rfl, rfl, -⟩ := Outcome.handlePacket.inj (Option.some.inj hhandled)
    exact ⟨k, huse, hk, rfl⟩
  | contextRemover packet' =>
    rw [outcomeOf] at heq
    split at heq <;> simp at heq

/-- **The outcomes of a run are isolated.** -/
theorem isolated (hfresh : Function.Injective F.createImplementation) :
    Isolated mKey incomings outcomes := by
  constructor
  case handled =>
    intro p packet k hp hk
    obtain ⟨huse, hhandled⟩ := outcome_router hkey hout hp hk
    obtain ⟨first, hq, hfirst⟩ := (use_iff hkey).1 (Sessions.use_session huse)
    obtain ⟨-, hcreated⟩ := outcome_router hkey hout hq hfirst
    rw [Sessions.session_session huse, if_pos rfl] at hcreated
    refine ⟨_, _, first, _, hhandled, Sessions.session_le, ⟨first, hq, hfirst⟩, hcreated,
      fun r hqr hrp hr => ?_, fun q' hq' hroutes => ?_⟩
    · exact Sessions.not_close_of_session hqr hrp ((close_iff hkey).2 hr)
    · obtain ⟨r, hr, hrq, hclose⟩ :=
        Sessions.close_before_session hq' ((use_iff hkey).2 hroutes)
      exact ⟨r, hr, hrq, (close_iff hkey).1 hclose⟩
  case separate =>
    intro p p' node packet packet' created created' h h'
    obtain ⟨k, huse, hk, hnode⟩ := of_handlePacket hkey hout h
    obtain ⟨k', huse', hk', hnode'⟩ := of_handlePacket hkey hout h'
    rw [hk, hk', Sessions.key_unique huse huse'
      (session_of_instanceOf hfresh huse huse' (hnode ▸ hnode'))]
  case gone =>
    intro p r p' k node node' packet packet' created created' hr hpr hrp hk h h' heq
    obtain ⟨k₁, huse, hk₁, hnode⟩ := of_handlePacket hkey hout h
    obtain ⟨k', huse', -, hnode'⟩ := of_handlePacket hkey hout h'
    obtain rfl := Option.some.inj (hk.symm.trans hk₁)
    exact Sessions.not_session_of_close huse ((close_iff hkey).2 hr) hpr huse' hrp
      (session_of_instanceOf hfresh huse huse' (by rw [← hnode, heq, hnode']))
  case removed =>
    rintro r k ⟨packet, hr, hk⟩
    -- the events before `r` are the first `r` events
    have htake : ∀ {q : ℕ} {e : Sessions.Event ByteString}, q < r →
        (((incomings.take r).map (eventOf mKey))[q]? = some e ↔
          (incomings.map (eventOf mKey))[q]? = some e) := by
      intro q e hq
      rw [List.map_take, List.getElem?_take, if_pos hq]
    rw [hout, hr, Option.map_some, outcomeOf, hk, Option.getD_some]
    cases hq : Sessions.current ((incomings.take r).map (eventOf mKey)) k with
    | some q =>
      obtain ⟨huse, hopen, -⟩ := Sessions.current_some hq
      have hqr : q < r := by
        have := Sessions.lt_length_of_current hq
        simp at this
        omega
      refine .inl ⟨rfl, q, hqr, (use_iff hkey).1 ((htake hqr).1 huse), fun r' hqr' hr' hrem => ?_⟩
      exact hopen r' hqr' ((htake hr').2 ((close_iff hkey).2 hrem))
    | none =>
      refine .inr ⟨rfl, fun q hqr hroutes => ?_⟩
      obtain ⟨r', hqr', hclose⟩ :=
        Sessions.current_none hq ((htake hqr).2 ((use_iff hkey).2 hroutes))
      have hr' : r' < r := by
        have := (List.getElem?_eq_some_iff.1 hclose).1
        simp at this
        omega
      exact ⟨r', hqr', hr', (close_iff hkey).1 ((htake hr').1 hclose)⟩

end

variable [DecidableEq ι]

/-- A new node has no sessions. -/
theorem construct_spec {initParameters : Json} {c₀ : ContextualNode ι}
    (h : construct F initParameters = .ok (some c₀)) : Tracks F c₀.mKey [] c₀ := by
  have hc : c₀ = { mType := c₀.mType, mKey := c₀.mKey, created := 1 } := by
    unfold construct at h
    obtain ⟨mType, -, h⟩ := bind_eq_ok.1 h
    obtain ⟨mKey, -, h⟩ := bind_eq_ok.1 h
    split at h
    · cases h
    · rw [← Option.some.inj (Except.ok.inj h)]
  refine ⟨rfl, by rw [hc]; rfl, fun k => by rw [hc]; rfl, fun k node => by rw [hc]; simp⟩

/-- **Context isolation.**  A node whose template is no group, fed any packets that carry a string
as the key parameter, handles all of them; its two maps stay inverse to each other; what becomes
of the packets is isolated by key; and a remove packet forgets the instance of its key and no
other. -/
theorem context_isolation (F : ImplementationFactory ι)
    (hfresh : Function.Injective F.createImplementation)
    (hpath : ∀ n, F.isPathable (F.createImplementation n) = true) (initParameters : Json)
    (c₀ : ContextualNode ι) (hconstruct : construct F initParameters = .ok (some c₀))
    (incomings : List Incoming) (hkey : ∀ incoming ∈ incomings, HasKey c₀.mKey incoming) :
    ∃ outcomes c, c₀.run F incomings = .ok (outcomes, c) ∧
      outcomes.length = incomings.length ∧ c.mContextRouter.Inverse ∧
      Isolated c₀.mKey incomings outcomes ∧
      ∀ packet k, keyOf c₀.mKey packet = some k → ∃ outcome c',
        c.handle F (.contextRemover packet) = .ok (outcome, c') ∧
        c'.mContextRouter.mNodes.lookup k = none ∧
        (∀ k' ≠ k, c'.mContextRouter.mNodes.lookup k' = c.mContextRouter.mNodes.lookup k') ∧
        outcome = if (c.mContextRouter.mNodes.lookup k).isSome then
          .pushPacket { parameters := .object [(c₀.mKey, .string k)] } "Removed Key"
          else .ignored := by
  obtain ⟨outcomes, c, hrun, htracks, hout⟩ :=
    run_spec hfresh hpath (construct_spec hconstruct) hkey
  rw [List.nil_append] at htracks
  simp only [List.nil_append] at hout
  have hlength : outcomes.length = incomings.length := by
    refine le_antisymm (List.getElem?_eq_none_iff.1 ?_) (List.getElem?_eq_none_iff.1 ?_)
    · rw [hout, List.getElem?_eq_none le_rfl, Option.map_none]
    · rw [← Option.map_eq_none_iff, ← hout, List.getElem?_eq_none le_rfl]
  refine ⟨outcomes, c, hrun, hlength, htracks.inverse, isolated hkey hout hfresh,
    fun packet k hk => ?_⟩
  have hremover : HasKey c₀.mKey (.contextRemover packet) := by rw [HasKey, hk, Option.isSome_some]
  -- one more remove packet closes its key and no other
  obtain ⟨c', hhandle, htracks'⟩ := handle_spec hfresh hpath htracks hremover
  have hlookup : ∀ k', c'.mContextRouter.mNodes.lookup k' =
      if k' = k then none else c.mContextRouter.mNodes.lookup k' := by
    intro k'
    rw [htracks'.mNodes, eventOf, hk, Option.getD_some, Sessions.current_append, Sessions.advance]
    by_cases hk' : k' = k
    · rw [hk', Function.update_self, if_pos rfl, Option.map_none]
    · rw [Function.update_of_ne hk', if_neg hk', map_instanceOf_append, htracks.mNodes]
  refine ⟨_, c', hhandle, by rw [hlookup, if_pos rfl],
    fun k' hk' => by rw [hlookup, if_neg hk'], ?_⟩
  rw [outcomeOf, hk, Option.getD_some, htracks.mNodes]
  cases Sessions.current (incomings.map (eventOf c₀.mKey)) k <;> rfl

/-- A factory whose objects are numbers. -/
def countingFactory : ImplementationFactory ℕ where
  createImplementation := id
  isPathable _ := true
  isGroup _ := false

/-- The key is removed and used again. -/
theorem context_isolation_reopened :
    ∃ outcomes c, run countingFactory { mType := bytes "Node", mKey := bytes "key", created := 1 }
        [.contextRouter { parameters := .object [(bytes "key", .string (bytes "a"))] },
          .contextRemover { parameters := .object [(bytes "key", .string (bytes "a"))] },
          .contextRouter { parameters := .object [(bytes "key", .string (bytes "a"))] }] =
        .ok (outcomes, c) ∧ c.mContextRouter.Inverse := by
  obtain ⟨outcomes, c, hrun, -, hinverse, -⟩ := context_isolation countingFactory
    (fun _ _ h => h) (fun _ => rfl)
    (.object [(bytes "key", .string (bytes "key")), (bytes "type", .string (bytes "Node"))])
    { mType := bytes "Node", mKey := bytes "key", created := 1 } (by rfl)
    [.contextRouter { parameters := .object [(bytes "key", .string (bytes "a"))] },
      .contextRemover { parameters := .object [(bytes "key", .string (bytes "a"))] },
      .contextRouter { parameters := .object [(bytes "key", .string (bytes "a"))] }]
    (by
      intro incoming hincoming
      simp only [List.mem_cons, List.not_mem_nil, or_false] at hincoming
      rcases hincoming with rfl | rfl | rfl <;> rfl)
  exact ⟨outcomes, c, hrun, hinverse⟩

end ContextualNode

end Maplang
