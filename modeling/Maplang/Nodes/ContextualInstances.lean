import Maplang.Cpp.Logged
import Maplang.Machine.Family
import Maplang.Nodes.ContextualNode

/-!
# The instances of a contextual node

The instances of a `ContextualNode` are objects with a state.  They live from the first packet of
their key to its removal, when their destructor may push once more, to the pusher of their last
packet.  All of them are in the same memory; what keeps them apart is that no two keys lead to one
object.

Seen from outside, the node is a family of services, one for each key, that know nothing of each
other: the node answers the packets of a key as an object of the class would that gets these packets
alone.

## Main definitions

* `ObjectClass` : what the objects of a class do.
* `Hosting`, `Hosting.serve` : a contextual node with the memory of its instances, and the code.
* `ObjectClass.serveAlone` : one key alone.

## Main results

* `Hosting.answers_eq` : the node answers as a family of services.
* `Hosting.serves_alone` : **what is pushed for a key is what its packets alone lead to**.
-/

namespace Maplang

/-- The packet that was sent. -/
def Incoming.packet : Incoming → Packet
  | .contextRouter packet | .contextRemover packet => packet

/-- The key of the packet. -/
def Incoming.key (mKey : ByteString) (incoming : Incoming) : ByteString :=
  (ContextualNode.keyOf mKey incoming.packet).getD []

namespace ContextualNode

variable {ι σ : Type}

/-- What the objects of a class do.  They may differ: each has a random device of its own. -/
structure ObjectClass (ι σ : Type) where
  construct : ι → σ
  /-- What is pushed and thrown, and the state after that. -/
  handlePacket : ι → σ → Packet → Logged Push Unit × σ
  /-- What the destructor pushes. -/
  destroy : σ → List Push

/-- The interface whose node pushes a packet. -/
inductive Interface where
  | contextRouter
  | contextRemover
  deriving DecidableEq, Repr

/-- What is pushed while a packet is handled, and what is thrown. -/
abbrev Reply := Logged (Interface × Push) Unit

/-- A contextual node, with the states of its instances. -/
structure Hosting (ι σ : Type) where
  node : ContextualNode ι
  objects : ι → σ

/-- Instances push to the pusher of the packet they handle, which was sent to the router. -/
def replyOf (pushes : Logged Push Unit) : Code Reply :=
  match pushes.result with
  | .ok () | .error (.exception _) =>
    .ok ⟨pushes.log.map (Interface.contextRouter, ·), pushes.result⟩
  | .error fault => .error fault

/-- An instance is destroyed, and the remover pushes. -/
def removalReply (destroyed : List Push) (push : Push) : Reply :=
  ⟨destroyed.map (Interface.contextRouter, ·) ++ [(.contextRemover, push)], .ok ()⟩

/-- What the remover pushes for a key. -/
def removedPush (mKey k : ByteString) : Push where
  packet := { parameters := .object [(mKey, .string k)] }
  channel := "Removed Key"

namespace Hosting

variable [DecidableEq ι] (F : ImplementationFactory ι) (B : ObjectClass ι σ)

/-- The instance under the key of a packet. -/
def instanceFor (host : Hosting ι σ) (packet : Packet) : Option ι :=
  match host.node.contextLookup packet with
  | .ok contextLookup => host.node.mContextRouter.mNodes.lookup contextLookup
  | .error _ => none

/-- The memory, with a new object. -/
def withCreated (host : Hosting ι σ) : Option ι → ι → σ
  | some i => Function.update host.objects i (B.construct i)
  | none => host.objects

/-- A packet is handled.  A removed instance is destroyed when `removeNode` returns, as its entries
in the two maps are gone. -/
def serve (host : Hosting ι σ) (incoming : Incoming) : Code (Reply × Hosting ι σ) := do
  let (outcome, node) ← host.node.handle F incoming
  match outcome with
  | .handlePacket i packet created =>
    let objects := host.withCreated B created
    let (pushes, state) := B.handlePacket i (objects i) packet
    return (← replyOf pushes, ⟨node, Function.update objects i state⟩)
  | .pushPacket packet channel =>
    let destroyed := match host.instanceFor incoming.packet with
      | some i => B.destroy (host.objects i)
      | none => []
    return (removalReply destroyed ⟨packet, channel⟩, { host with node })
  | .ignored => return (⟨[], .ok ()⟩, { host with node })

end Hosting

/-- One key alone.  There is at most one object of the class; with each packet comes the object that
the factory would make. -/
def ObjectClass.serveAlone (B : ObjectClass ι σ) (mKey : ByteString) (live : Option (ι × σ)) :
    ι × Incoming → Code (Reply × Option (ι × σ))
  | (made, .contextRouter packet) => do
    let (i, state) := live.getD (made, B.construct made)
    let (pushes, state) := B.handlePacket i state packet
    return (← replyOf pushes, some (i, state))
  | (_, .contextRemover packet) =>
    match live with
    | some (_, state) =>
      return (removalReply (B.destroy state) (removedPush mKey ((keyOf mKey packet).getD [])), none)
    | none => return (⟨[], .ok ()⟩, none)

/-- What the service of a key does with a packet. -/
theorem ObjectClass.serveAlone_router {B : ObjectClass ι σ} {mKey : ByteString} {packet : Packet}
    {live : Option (ι × σ)} {made i : ι} {state : σ}
    (hlive : live.getD (made, B.construct made) = (i, state)) :
    B.serveAlone mKey live (made, .contextRouter packet) =
      (replyOf (B.handlePacket i state packet).1).map fun reply =>
        (reply, some (i, (B.handlePacket i state packet).2)) := by
  simp only [serveAlone, hlive, bind, Except.bind]
  cases replyOf (B.handlePacket i state packet).1 <;> rfl

theorem keyOf_eq_some {mKey k : ByteString} {packet : Packet} :
    keyOf mKey packet = some k ↔ packet.parameters.find mKey = some (.string k) := by
  unfold keyOf
  constructor
  · intro h
    split at h
    · rename_i k' hfind
      rw [hfind, Option.some.inj h]
    · cases h
  · intro h
    rw [h]

/-- Each packet, with the object that the factory would make for it; the first object was the
template. -/
def withMade (F : ImplementationFactory ι) (mKey : ByteString) (incomings : List Incoming) :
    List (ι × Incoming) :=
  incomings.mapIdx fun p incoming =>
    (F.createImplementation (1 + Sessions.opened ((incomings.take p).map (eventOf mKey))), incoming)

theorem map_withMade (F : ImplementationFactory ι) (mKey : ByteString)
    (incomings : List Incoming) : (withMade F mKey incomings).map Prod.snd = incomings := by
  refine List.ext_getElem? fun p => ?_
  rw [List.getElem?_map, withMade, List.getElem?_mapIdx, Option.map_map]
  exact Option.map_id' ..

/-- The calls for a key, with the instances, when they are split. -/
theorem exists_callsOf_withMade (F : ImplementationFactory ι) {mKey k : ByteString}
    {incomings before after : List Incoming}
    (h : Service.callsOf (Incoming.key mKey) k incomings = before ++ after) :
    ∃ before' after', Service.callsOf (fun call => call.2.key mKey) k (withMade F mKey incomings) =
        before' ++ after' ∧ before'.map Prod.snd = before ∧ after'.map Prod.snd = after := by
  have hmap : Service.callsOf (Incoming.key mKey) k ((withMade F mKey incomings).map Prod.snd) =
      _ := Service.callsOf_map ..
  rw [map_withMade, h] at hmap
  exact List.map_eq_append_iff.1 hmap.symm

/-! ### The memory -/

section

variable [DecidableEq ι] {F : ImplementationFactory ι} {mKey : ByteString}
  {events : List (Sessions.Event ByteString)} {c c' : ContextualNode ι} {k : ByteString} {i : ι}

/-- Two keys do not lead to one object. -/
theorem Tracks.key_unique (h : Tracks F mKey events c) {k' : ByteString}
    (hk : c.mContextRouter.mNodes.lookup k = some i)
    (hk' : c.mContextRouter.mNodes.lookup k' = some i) : k = k' :=
  Option.some.inj (((h.inverse k i).1 hk).symm.trans ((h.inverse k' i).1 hk'))

/-- A packet of another key leaves the instance of a key. -/
theorem Tracks.lookup_of_ne (h : Tracks F mKey events c) {e : Sessions.Event ByteString}
    (h' : Tracks F mKey (events ++ [e]) c') {k' : ByteString} (he : e = .use k' ∨ e = .close k')
    (hk : k ≠ k') : c'.mContextRouter.mNodes.lookup k = c.mContextRouter.mNodes.lookup k := by
  have hcurrent : Sessions.current (events ++ [e]) k = Sessions.current events k := by
    rw [Sessions.current_append]
    rcases he with rfl | rfl
    · exact Function.update_of_ne hk _ _
    · exact Function.update_of_ne hk _ _
  rw [h'.mNodes, h.mNodes, hcurrent, map_instanceOf_append]

/-- A routed packet leaves its key with the instance that has handled it. -/
theorem Tracks.lookup_use (h : Tracks F mKey events c)
    (h' : Tracks F mKey (events ++ [.use k]) c') : c'.mContextRouter.mNodes.lookup k =
      some ((c.mContextRouter.mNodes.lookup k).getD (instanceOf F events events.length)) := by
  rw [h'.mNodes, h.mNodes, Sessions.current_append, Sessions.advance, Function.update_self,
    Option.map_some]
  cases hcurrent : Sessions.current events k with
  | none => rw [Option.getD_none, Option.map_none, Option.getD_none, instanceOf_append le_rfl]
  | some q =>
    rw [Option.getD_some, Option.map_some, Option.getD_some,
      instanceOf_append (Sessions.lt_length_of_current hcurrent).le]

/-- A removed key has no instance. -/
theorem Tracks.lookup_close (h' : Tracks F mKey (events ++ [.close k]) c') :
    c'.mContextRouter.mNodes.lookup k = none := by
  rw [h'.mNodes, Sessions.current_append, Sessions.advance, Function.update_self, Option.map_none]

end

namespace Hosting

variable [DecidableEq ι] {F : ImplementationFactory ι} {B : ObjectClass ι σ} {mKey : ByteString}
  {events : List (Sessions.Event ByteString)} {host : Hosting ι σ}
  {live : ByteString → Option (ι × σ)}

/-- Each service knows the instance of its key, and its state. -/
structure Mirrors (F : ImplementationFactory ι) (mKey : ByteString)
    (events : List (Sessions.Event ByteString)) (host : Hosting ι σ)
    (live : ByteString → Option (ι × σ)) : Prop where
  tracks : Tracks F mKey events host.node
  live : ∀ k, live k = (host.node.mContextRouter.mNodes.lookup k).map fun i => (i, host.objects i)

/-- A packet is handled by an instance.  No other key sees what it does to the memory. -/
theorem Mirrors.router (h : Mirrors F mKey events host live) {k : ByteString} {i : ι} {state : σ}
    {node : ContextualNode ι} (h' : Tracks F mKey (events ++ [.use k]) node)
    (hi : (host.node.mContextRouter.mNodes.lookup k).getD (instanceOf F events events.length) = i)
    {objects : ι → σ} (hobjects : ∀ j ≠ i, objects j = host.objects j) :
    Mirrors F mKey (events ++ [.use k]) ⟨node, Function.update objects i state⟩
      (Function.update live k (some (i, state))) := by
  have hlookup : node.mContextRouter.mNodes.lookup k = some i := by
    rw [h.tracks.lookup_use h', hi]
  refine ⟨h', fun k' => ?_⟩
  by_cases hk : k' = k
  · subst hk
    simp only [Function.update_self, hlookup, Option.map_some]
  · have hsame := h.tracks.lookup_of_ne h' (.inl rfl) hk
    rw [Function.update_of_ne hk, h.live, ← hsame]
    cases hk' : node.mContextRouter.mNodes.lookup k' with
    | none => rfl
    | some j =>
      have hj : j ≠ i := by
        rintro rfl
        exact hk (h'.key_unique hk' hlookup)
      simp only [Option.map_some, Function.update_of_ne hj, hobjects j hj]

/-- A key is removed. -/
theorem Mirrors.remover (h : Mirrors F mKey events host live) {k : ByteString}
    {node : ContextualNode ι} (h' : Tracks F mKey (events ++ [.close k]) node) :
    Mirrors F mKey (events ++ [.close k]) { host with node } (Function.update live k none) := by
  refine ⟨h', fun k' => ?_⟩
  by_cases hk : k' = k
  · subst hk
    rw [Function.update_self, h'.lookup_close, Option.map_none]
  · rw [Function.update_of_ne hk, h.live, h.tracks.lookup_of_ne h' (.inr rfl) hk]

/-- What an instance does with a packet, and what becomes of the memory. -/
theorem serve_router {packet : Packet} {node : ContextualNode ι} {i : ι} {created : Option ι}
    {objects : ι → σ}
    (hhandle : host.node.handle F (.contextRouter packet) =
      .ok (.handlePacket i packet created, node))
    (hobjects : host.withCreated B created = objects) :
    host.serve F B (.contextRouter packet) =
      (replyOf (B.handlePacket i (objects i) packet).1).map fun reply =>
        (reply, ⟨node, Function.update objects i (B.handlePacket i (objects i) packet).2⟩) := by
  simp only [serve, hhandle, hobjects, bind, Except.bind]
  cases replyOf (B.handlePacket i (objects i) packet).1 <;> rfl

/-- **One packet to the router**: the instance of the key handles it, or a new one. -/
theorem Mirrors.serve_router (hfresh : Function.Injective F.createImplementation)
    (hpath : ∀ n, F.isPathable (F.createImplementation n) = true)
    (h : Mirrors F mKey events host live) {packet : Packet} {k : ByteString}
    (hk : keyOf mKey packet = some k) :
    ∃ (host' : Hosting ι σ) (state' : Option (ι × σ)) (code : Code Reply),
      host.serve F B (.contextRouter packet) = code.map (fun reply => (reply, host')) ∧
      B.serveAlone mKey (live k) (instanceOf F events events.length, .contextRouter packet) =
        code.map (fun reply => (reply, state')) ∧
      Mirrors F mKey (events ++ [.use k]) host' (Function.update live k state') := by
  have hlive := h.live k
  rw [h.tracks.mNodes] at hlive
  cases hcurrent : Sessions.current events k with
  | some q =>
    rw [hcurrent] at hlive
    obtain ⟨hroute, h'⟩ := h.tracks.route_some hpath hk hcurrent
    refine ⟨_, _, _, Hosting.serve_router hroute rfl,
      ObjectClass.serveAlone_router (by rw [hlive]; rfl), h.router h' ?_ fun _ _ => rfl⟩
    rw [h.tracks.mNodes, hcurrent]
    rfl
  | none =>
    rw [hcurrent] at hlive
    obtain ⟨hroute, h'⟩ := h.tracks.route_none hfresh hpath hk hcurrent
    refine ⟨_, _, _, Hosting.serve_router hroute rfl,
      ObjectClass.serveAlone_router (by rw [hlive, withCreated, Function.update_self]; rfl),
      h.router h' ?_ fun j hj => Function.update_of_ne hj _ _⟩
    rw [h.tracks.mNodes, hcurrent]
    rfl

/-- **One packet to the remover**: the instance of the key is destroyed, if there is one. -/
theorem Mirrors.serve_remover (h : Mirrors F mKey events host live) {packet : Packet}
    {k : ByteString} (hk : keyOf mKey packet = some k) (made : ι) :
    ∃ host' reply, host.serve F B (.contextRemover packet) = .ok (reply, host') ∧
      B.serveAlone mKey (live k) (made, .contextRemover packet) = .ok (reply, none) ∧
      Mirrors F mKey (events ++ [.close k]) host' (Function.update live k none) := by
  have hlive := h.live k
  have hinstance : host.instanceFor packet = host.node.mContextRouter.mNodes.lookup k := by
    rw [instanceFor, (contextLookup_eq h.tracks.mKey hk).2]
  cases hcurrent : Sessions.current events k with
  | some q =>
    obtain ⟨node, hremove, h'⟩ := h.tracks.remove_some hk hcurrent
    have hlookup : host.node.mContextRouter.mNodes.lookup k = some (instanceOf F events q) := by
      rw [h.tracks.mNodes, hcurrent]
      rfl
    rw [hlookup] at hlive hinstance
    refine ⟨_, removalReply (B.destroy (host.objects (instanceOf F events q))) (removedPush mKey k),
      ?_, ?_, h.remover h'⟩
    · simp only [serve, handle, hremove, bind, Except.bind, Incoming.packet, hinstance]
      rfl
    · simp only [ObjectClass.serveAlone, hlive, hk, Option.map_some]
      rfl
  | none =>
    obtain ⟨hremove, h'⟩ := h.tracks.remove_none hk hcurrent
    have hlookup : host.node.mContextRouter.mNodes.lookup k = none := by
      rw [h.tracks.mNodes, hcurrent]
      rfl
    rw [hlookup] at hlive
    refine ⟨_, ⟨[], .ok ()⟩, ?_, ?_, h.remover h'⟩
    · simp only [serve, handle, hremove, bind, Except.bind]
      rfl
    · simp only [ObjectClass.serveAlone, hlive, Option.map_none]
      rfl

/-- **One packet**: the node does what the service of its key does. -/
theorem Mirrors.serve (hfresh : Function.Injective F.createImplementation)
    (hpath : ∀ n, F.isPathable (F.createImplementation n) = true)
    (h : Mirrors F mKey events host live) {incoming : Incoming} (hkey : HasKey mKey incoming) :
    ∃ (host' : Hosting ι σ) (live' : ByteString → Option (ι × σ)) (code : Code Reply),
      host.serve F B incoming = code.map (fun reply => (reply, host')) ∧
      Service.each (B.serveAlone mKey) (fun call => call.2.key mKey) live
        (instanceOf F events events.length, incoming) = code.map (fun reply => (reply, live')) ∧
      Mirrors F mKey (events ++ [eventOf mKey incoming]) host' live' := by
  cases incoming with
  | contextRouter packet =>
    obtain ⟨k, hk⟩ := Option.isSome_iff_exists.1 hkey
    have hk' : (Incoming.contextRouter packet).key mKey = k := by
      rw [Incoming.key, Incoming.packet, hk]; rfl
    obtain ⟨host', state', code, hserve, halone, h'⟩ := h.serve_router (B := B) hfresh hpath hk
    refine ⟨host', _, code, hserve, ?_, by rwa [eventOf, hk]⟩
    rw [Service.each, hk', halone]
    cases code <;> rfl
  | contextRemover packet =>
    obtain ⟨k, hk⟩ := Option.isSome_iff_exists.1 hkey
    have hk' : (Incoming.contextRemover packet).key mKey = k := by
      rw [Incoming.key, Incoming.packet, hk]; rfl
    obtain ⟨host', reply, hserve, halone, h'⟩ :=
      h.serve_remover (B := B) hk (instanceOf F events events.length)
    refine ⟨host', _, .ok reply, hserve, ?_, by rwa [eventOf, hk]⟩
    rw [Service.each, hk', halone]
    rfl

/-- **The node is a family of services**, one for each key. -/
theorem answers_eq (hfresh : Function.Injective F.createImplementation)
    (hpath : ∀ n, F.isPathable (F.createImplementation n) = true)
    (h : Mirrors F mKey [] host live) {incomings : List Incoming}
    (hkey : ∀ incoming ∈ incomings, HasKey mKey incoming) :
    Service.answers (serve F B) host incomings =
      Service.answers (Service.each (B.serveAlone mKey) (fun call => call.2.key mKey)) live
        (withMade F mKey incomings) := by
  refine Service.answers_eq_of_simulates
    (g := fun before incoming =>
      (F.createImplementation (1 + Sessions.opened (before.map (eventOf mKey))), incoming))
    (R := fun before => Mirrors F mKey (before.map (eventOf mKey))) ?_ h
  rintro before incoming after host live rfl hmirrors
  obtain ⟨host', live', code, hserve, heach, h'⟩ :=
    hmirrors.serve (B := B) hfresh hpath (hkey incoming (by simp))
  rw [instanceOf, List.take_length] at heach
  rw [hserve, heach, List.map_append, List.map_singleton]
  cases code with
  | error fault => exact .inr ⟨fault, rfl, rfl⟩
  | ok reply => exact .inl ⟨reply, host', live', rfl, rfl, h'⟩

/-- A new node mirrors services of which none has an object. -/
theorem mirrors_construct {initParameters : Json} {c₀ : ContextualNode ι}
    (h : construct F initParameters = .ok (some c₀)) (objects : ι → σ) :
    Mirrors F c₀.mKey [] ⟨c₀, objects⟩ fun _ => none := by
  have htracks := construct_spec h
  refine ⟨htracks, fun k => ?_⟩
  rw [htracks.mNodes]
  rfl

end Hosting

/-- **Each key is served as if it were alone.**  A node whose template is no group answers any
packets that carry a string as the key parameter, exactly if the class can answer those of each key
alone; and what is pushed and thrown for the packets of a key is then what these packets alone lead
to, whatever is sent for the other keys in between. -/
theorem serves_alone [DecidableEq ι] (F : ImplementationFactory ι) (B : ObjectClass ι σ)
    (hfresh : Function.Injective F.createImplementation)
    (hpath : ∀ n, F.isPathable (F.createImplementation n) = true) (initParameters : Json)
    (c₀ : ContextualNode ι) (hconstruct : construct F initParameters = .ok (some c₀))
    (objects : ι → σ) (incomings : List Incoming)
    (hkey : ∀ incoming ∈ incomings, HasKey c₀.mKey incoming) :
    ((∃ replies, Service.answers (Hosting.serve F B) ⟨c₀, objects⟩ incomings = .ok replies) ↔
      ∀ k, ∃ replies, Service.answers (B.serveAlone c₀.mKey) none
        (Service.callsOf (fun call => call.2.key c₀.mKey) k (withMade F c₀.mKey incomings)) =
          .ok replies) ∧
    ∀ replies, Service.answers (Hosting.serve F B) ⟨c₀, objects⟩ incomings = .ok replies →
      ∀ k, Service.answers (B.serveAlone c₀.mKey) none
        (Service.callsOf (fun call => call.2.key c₀.mKey) k (withMade F c₀.mKey incomings)) =
          .ok (Service.answersOf (Incoming.key c₀.mKey) k incomings replies) := by
  have hall := Hosting.answers_eq (B := B) hfresh hpath
    (Hosting.mirrors_construct hconstruct objects) hkey
  rw [hall]
  refine ⟨Service.exists_answers_each_iff, fun replies h k => ?_⟩
  rw [Service.answers_callsOf h k, ← Service.answersOf_map, map_withMade]

/-- Objects that count the packets they handle. -/
def countingClass : ObjectClass ℕ ℕ where
  construct _ := 0
  handlePacket _ count packet := (⟨[⟨packet, toString count⟩], .ok ()⟩, count + 1)
  destroy count := [⟨{}, toString count⟩]

/-- Two keys are used, and one of them is removed. -/
theorem serves_alone_twoKeys :
    ∃ replies, Service.answers (Hosting.serve countingFactory countingClass)
        ⟨{ mType := bytes "Node", mKey := bytes "key", created := 1 }, fun _ => 0⟩
        [.contextRouter { parameters := .object [(bytes "key", .string (bytes "a"))] },
          .contextRouter { parameters := .object [(bytes "key", .string (bytes "b"))] },
          .contextRouter { parameters := .object [(bytes "key", .string (bytes "a"))] },
          .contextRemover { parameters := .object [(bytes "key", .string (bytes "a"))] }] =
        .ok replies ∧
      Service.answers (countingClass.serveAlone (bytes "key")) none
        [(1, .contextRouter { parameters := .object [(bytes "key", .string (bytes "a"))] }),
          (3, .contextRouter { parameters := .object [(bytes "key", .string (bytes "a"))] }),
          (3, .contextRemover { parameters := .object [(bytes "key", .string (bytes "a"))] })] =
        .ok [replies[0]!, replies[2]!, replies[3]!] := by
  have hserves := serves_alone countingFactory countingClass (fun _ _ h => h) (fun _ => rfl)
    (.object [(bytes "key", .string (bytes "key")), (bytes "type", .string (bytes "Node"))])
    { mType := bytes "Node", mKey := bytes "key", created := 1 } (by rfl) (fun _ => 0)
    [.contextRouter { parameters := .object [(bytes "key", .string (bytes "a"))] },
      .contextRouter { parameters := .object [(bytes "key", .string (bytes "b"))] },
      .contextRouter { parameters := .object [(bytes "key", .string (bytes "a"))] },
      .contextRemover { parameters := .object [(bytes "key", .string (bytes "a"))] }]
    (by
      intro incoming hincoming
      simp only [List.mem_cons, List.not_mem_nil, or_false] at hincoming
      rcases hincoming with rfl | rfl | rfl | rfl <;> rfl)
  exact ⟨_, rfl, hserves.2 _ rfl (bytes "a")⟩

end ContextualNode

end Maplang
