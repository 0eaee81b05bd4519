import Maplang.Cpp.Logged
import Maplang.Json.Pointer
import Maplang.Stream.Buffer

/-!
# Nodes without a state

`PassThroughNode`, `AddParametersNode`, `OrderedPacketSender`, `ParameterRouter` and
`ParameterExtractor` do the same for a packet whenever they receive it.  So each of them is a
`Handler`: the packets it pushes, and whether it returns.

## Main definitions

* `Handler` : what is pushed for a packet; what is pushed before an exception stays pushed.
* `PassThroughNode.handlePacket`, `AddParametersNode.handlePacket`,
  `OrderedPacketSender.handlePacket`, `ParameterRouter.handlePacket`,
  `ParameterExtractor.handlePacket` and their constructors : the code.
* `Json.update` : `update(first, last)`, which overwrites.

## Main results

* `ParameterRouter.routes_by_pointer` : the packets that are routed, and where to.
* `ParameterExtractor.handlePacket_cases` : the packets that something is extracted from.
* `AddParametersNode.handlePacket_object` : what is added overwrites.
-/

namespace Maplang

namespace Json

/-- `update(other.begin(), other.end())`. -/
def update (j other : Json) : Code Json :=
  match j, other with
  | null, object range => .ok (object (range.foldl (fun ms m => setMember ms m.1 m.2) []))
  | object members, object range =>
    .ok (object (range.foldl (fun ms m => setMember ms m.1 m.2) members))
  | null, _ => throwJson "invalid_iterator" 202 "iterators first and last must point to objects"
  | object _, _ => throwJson "invalid_iterator" 202 "iterators first and last must point to objects"
  | j, _ => throwJson "type_error" 312 ("cannot use update() with " ++ j.typeName)

/-- `is_primitive()`. -/
def isPrimitive : Json → Bool
  | object _ => false
  | array _ => false
  | _ => true

/-- `is_string()`. -/
def isString : Json → Bool
  | string _ => true
  | _ => false

/-- The members of a range are set one after the other, so the last one of a key stays. -/
theorem lookup_updateMembers {ms range : List (ByteString × Json)}
    (h : KeyOrder range) (key : ByteString) :
    (range.foldl (fun ms m => setMember ms m.1 m.2) ms).lookup key =
      (range.lookup key).or (ms.lookup key) := by
  induction range generalizing ms with
  | nil => rfl
  | cons m range ih =>
    obtain ⟨hfirst, hrest⟩ := (keyOrder_cons m range).1 h
    rw [List.foldl_cons, ih hrest, lookup_setMember, lookup_cons]
    by_cases hk : key = m.1
    · subst hk
      have hnone : range.lookup m.1 = none := by
        rw [List.lookup_eq_none_iff]
        intro x hx
        have hlt := hfirst x.1 (List.mem_map_of_mem hx)
        exact bne_iff_ne.2 fun heq => List.lt_irrefl _ (heq ▸ hlt)
      rw [if_pos rfl, if_pos rfl, hnone]
      rfl
    · rw [if_neg hk, if_neg hk]

end Json

/-- The `handlePacket` of an implementation that has no state. -/
abbrev Handler := Packet → Logged Push Unit

/-- `packetPusher->pushPacket(packet, channel)`. -/
def push (packet : Packet) (channel : String) : Logged Push Unit := .tell ⟨packet, channel⟩

/-! ### `PassThroughNode` -/

/-- `class PassThroughNode`. -/
structure PassThroughNode where
  mOutputChannel : String

namespace PassThroughNode

/-- The constructor. -/
def construct (initParameters : Json) : Code PassThroughNode := do
  let channel ← (← initParameters.get (bytes "outputChannel")).getString
  return ⟨asText channel⟩

/-- `PassThroughNode::handlePacket`. -/
def handlePacket (node : PassThroughNode) : Handler := fun incomingPacket =>
  push incomingPacket node.mOutputChannel

end PassThroughNode

/-! ### `AddParametersNode` -/

/-- `class AddParametersNode`. -/
structure AddParametersNode where
  mParametersToAdd : Json

/-- `AddParametersNode::handlePacket`. -/
def AddParametersNode.handlePacket (node : AddParametersNode) : Handler := fun incomingPacket => do
  let parameters ←
    if incomingPacket.parameters.isNull then pure node.mParametersToAdd
    else .run (incomingPacket.parameters.update node.mParametersToAdd)
  push { incomingPacket with parameters } "Added Parameters"

/-- **Parameters are added**, and overwrite those of the packet. -/
theorem AddParametersNode.handlePacket_object {node : AddParametersNode}
    {members toAdd : List (ByteString × Json)} (htoAdd : node.mParametersToAdd = .object toAdd)
    (horder : Json.KeyOrder toAdd) (buffers : List Buffer) :
    ∃ k, node.handlePacket ⟨.object members, buffers⟩ =
        ⟨[⟨⟨.object k, buffers⟩, "Added Parameters"⟩], .ok ()⟩ ∧
      ∀ key, k.lookup key = (toAdd.lookup key).or (members.lookup key) := by
  refine ⟨_, ?_, Json.lookup_updateMembers horder⟩
  simp only [AddParametersNode.handlePacket, htoAdd]
  rfl

theorem AddParametersNode.length_log_le (node : AddParametersNode) (packet : Packet) :
    (node.handlePacket packet).log.length ≤ 1 := by
  obtain ⟨parameters, buffers⟩ := packet
  by_cases hnull : parameters.isNull
  · simp only [AddParametersNode.handlePacket, hnull, if_true]
    exact le_rfl
  · cases hupdated : parameters.update node.mParametersToAdd with
    | error fault =>
      simp only [AddParametersNode.handlePacket, hnull, hupdated]
      exact Nat.zero_le 1
    | ok parameters' =>
      simp only [AddParametersNode.handlePacket, hnull, hupdated]
      exact le_rfl

/-! ### `OrderedPacketSender` -/

/-- `OrderedPacketSender::handlePacket`. -/
def OrderedPacketSender.handlePacket : Handler := fun incomingPacket => do
  push incomingPacket "first"
  push incomingPacket "last"

/-! ### `ParameterRouter` -/

/-- `class ParameterRouter`. -/
structure ParameterRouter where
  mRoutingKey : JsonPointer

namespace ParameterRouter

/-- `kInitParameter_RoutingKey`. -/
def kInitParameter_RoutingKey : ByteString := bytes "routingKey"

/-- The constructor. -/
def construct (initParameters : Json) : Code ParameterRouter :=
  match initParameters.find kInitParameter_RoutingKey with
  | none => throwRuntimeError
      ("Parameter Router requires field '" ++ asText kInitParameter_RoutingKey ++ "'")
  | some key =>
    if key.isString then do
      let mRoutingKey ← JsonPointer.split (← key.getString)
      return ⟨mRoutingKey⟩
    else throwRuntimeError
      ("Field '" ++ asText kInitParameter_RoutingKey ++ "' be a string in Parameter Router")

variable (node : ParameterRouter)

/-- The channel `handlePacket` pushes to. -/
def channelFor (parameters : Json) : Code String := do
  if ← node.mRoutingKey.contains parameters then
    let channelValue ← node.mRoutingKey.getUnchecked parameters
    if !channelValue.isString && !channelValue.isPrimitive then
      throwRuntimeError
        ("Value of '" ++ asText node.mRoutingKey.toString ++ "' must be a simple type.")
    else
      let channel ← channelValue.getString
      return asText channel
  else
    throwRuntimeError
      ("Packet must contain key '" ++ asText node.mRoutingKey.toString ++ "' in Parameter Router")

/-- `ParameterRouter::handlePacket`. -/
def handlePacket : Handler := fun packet => do
  let channel ← .run (node.channelFor packet.parameters)
  push packet channel

variable {node} {parameters value : Json} {v : ByteString}

theorem channelFor_of_resolves
    (h : JsonPointer.Resolves node.mRoutingKey.referenceTokens parameters value) :
    node.channelFor parameters =
      if !value.isString && !value.isPrimitive then
        throwRuntimeError
          ("Value of '" ++ asText node.mRoutingKey.toString ++ "' must be a simple type.")
      else value.getString.map asText := by
  have hcontains := JsonPointer.contains_iff.2 ⟨value, h⟩
  have hget : node.mRoutingKey.getUnchecked parameters = .ok value :=
    JsonPointer.getFrom_of_resolves h
  rw [channelFor, hcontains]
  simp only [bind, Except.bind, if_pos, hget]
  cases value.getString <;> rfl

/-- A text is a channel. -/
theorem channelFor_of_string
    (h : JsonPointer.Resolves node.mRoutingKey.referenceTokens parameters (.string v)) :
    node.channelFor parameters = .ok (asText v) := by
  rw [channelFor_of_resolves h]
  rfl

/-- Without a text at the routing key, the router throws. -/
theorem channelFor_throws (h : ∀ v,
    ¬ JsonPointer.Resolves node.mRoutingKey.referenceTokens parameters (.string v)) :
    ∃ what, node.channelFor parameters = .error (.exception what) := by
  by_cases hresolves :
      ∃ value, JsonPointer.Resolves node.mRoutingKey.referenceTokens parameters value
  · obtain ⟨value, hvalue⟩ := hresolves
    rw [channelFor_of_resolves hvalue]
    cases value with
    | string v => exact absurd hvalue (h v)
    | _ => exact ⟨_, rfl⟩
  · rw [channelFor]
    rcases JsonPointer.containsFrom_cases node.mRoutingKey.referenceTokens parameters with
      ⟨found, hfound⟩ | ⟨what, hthrown⟩
    · have hfalse : found = false := by
        cases found with
        | false => rfl
        | true => exact absurd (JsonPointer.contains_iff.1 hfound) hresolves
      rw [JsonPointer.contains, hfound, hfalse]
      exact ⟨_, rfl⟩
    · rw [JsonPointer.contains, hthrown]
      exact ⟨what, rfl⟩

/-- **What a router does**: it passes a packet on, unchanged, on the channel that is the text at the
routing key, and throws when there is no text. -/
theorem handlePacket_cases (packet : Packet) :
    (∃ v, JsonPointer.Resolves node.mRoutingKey.referenceTokens packet.parameters (.string v) ∧
      node.handlePacket packet = ⟨[⟨packet, asText v⟩], .ok ()⟩) ∨
    (∀ v, ¬ JsonPointer.Resolves node.mRoutingKey.referenceTokens packet.parameters (.string v)) ∧
      ∃ what, node.handlePacket packet = ⟨[], .error (.exception what)⟩ := by
  by_cases h : ∃ v,
      JsonPointer.Resolves node.mRoutingKey.referenceTokens packet.parameters (.string v)
  · obtain ⟨v, hv⟩ := h
    refine .inl ⟨v, hv, ?_⟩
    rw [handlePacket, channelFor_of_string hv]
    rfl
  · push Not at h
    obtain ⟨what, hwhat⟩ := channelFor_throws h
    refine .inr ⟨h, what, ?_⟩
    rw [handlePacket, hwhat]
    rfl

/-- **Routing by a pointer.**  A router whose routing key is the text of a pointer passes a packet
on exactly if the pointer leads to a text in the parameters, on the channel of this name; otherwise
it throws, and nothing is pushed. -/
theorem routes_by_pointer {initParameters : Json} {p : JsonPointer}
    (h : initParameters.find kInitParameter_RoutingKey = some (.string p.toString)) :
    ∃ node, construct initParameters = .ok node ∧ ∀ packet,
      (∃ v, JsonPointer.Resolves p.referenceTokens packet.parameters (.string v) ∧
        node.handlePacket packet = ⟨[⟨packet, asText v⟩], .ok ()⟩) ∨
      (∀ v, ¬ JsonPointer.Resolves p.referenceTokens packet.parameters (.string v)) ∧
        ∃ what, node.handlePacket packet = ⟨[], .error (.exception what)⟩ := by
  refine ⟨⟨p⟩, ?_, fun packet => handlePacket_cases packet⟩
  rw [construct, h]
  simp only [Json.isString, if_true, Json.getString, bind, Except.bind, JsonPointer.split_toString]
  rfl

/-- Parameters with a slash in a name. -/
def slashParameters : Json :=
  .object [(bytes "a/b", .array [.null, .string (bytes "left")])]

/-- The slash is escaped in the text of the pointer. -/
theorem routes_by_pointer_slash : ∃ node,
    construct (.object [(kInitParameter_RoutingKey, .string (bytes "/a~1b/1"))]) = .ok node ∧
      node.handlePacket ⟨slashParameters, []⟩ = ⟨[⟨⟨slashParameters, []⟩, "left"⟩], .ok ()⟩ := by
  obtain ⟨node, hnode, hroutes⟩ := routes_by_pointer (p := ⟨[bytes "a/b", bytes "1"]⟩)
    (show Json.find (.object [(kInitParameter_RoutingKey, .string (bytes "/a~1b/1"))]) _ = _ by rfl)
  have hresolves : JsonPointer.Resolves [bytes "a/b", bytes "1"] slashParameters
      (.string (bytes "left")) :=
    .step (.member rfl) (.step (.element (by decide) (by rfl) rfl) .here)
  refine ⟨node, hnode, ?_⟩
  rcases hroutes ⟨slashParameters, []⟩ with ⟨v, hv, hpushed⟩ | ⟨hno, -⟩
  · cases hresolves.unique hv
    exact hpushed
  · exact absurd hresolves (hno _)

end ParameterRouter

/-! ### `ParameterExtractor` -/

/-- `class ParameterExtractor`. -/
structure ParameterExtractor where
  mParameterJsonPointerToExtract : JsonPointer

namespace ParameterExtractor

/-- The constructor. -/
def construct (initParameters : Json) : Code ParameterExtractor := do
  let text ← (← initParameters.get (bytes "extractParameter")).getString
  let pointer ← JsonPointer.split text
  return ⟨pointer⟩

/-- `ParameterExtractor::handlePacket`. -/
def handlePacket (node : ParameterExtractor) : Handler := fun incomingPacket => do
  let parameters := incomingPacket.parameters
  if ← Logged.run (node.mParameterJsonPointerToExtract.contains parameters) then
    let extracted ← .run (node.mParameterJsonPointerToExtract.getUnchecked parameters)
    push { parameters := extracted } "Extracted Parameter"
  else return ()

/-- **What an extractor does**: it pushes what the pointer leads to, without the buffers, and
otherwise nothing. -/
theorem handlePacket_cases (node : ParameterExtractor) (packet : Packet) :
    (∃ value, JsonPointer.Resolves node.mParameterJsonPointerToExtract.referenceTokens
        packet.parameters value ∧
      node.handlePacket packet =
        ⟨[⟨{ parameters := value }, "Extracted Parameter"⟩], .ok ()⟩) ∨
    (∀ value, ¬ JsonPointer.Resolves node.mParameterJsonPointerToExtract.referenceTokens
        packet.parameters value) ∧
      (node.handlePacket packet).log = [] := by
  by_cases h : ∃ value, JsonPointer.Resolves node.mParameterJsonPointerToExtract.referenceTokens
      packet.parameters value
  · obtain ⟨value, hvalue⟩ := h
    have hget : node.mParameterJsonPointerToExtract.getUnchecked packet.parameters = .ok value :=
      JsonPointer.getFrom_of_resolves hvalue
    refine .inl ⟨value, hvalue, ?_⟩
    simp only [handlePacket, JsonPointer.contains_iff.2 ⟨value, hvalue⟩, hget,
      Logged.run_ok_bind, if_true]
    rfl
  · refine .inr ⟨not_exists.1 h, ?_⟩
    rcases JsonPointer.containsFrom_cases node.mParameterJsonPointerToExtract.referenceTokens
        packet.parameters with ⟨found, hfound⟩ | ⟨what, hthrown⟩
    · have hfalse : found = false := by
        cases found with
        | false => rfl
        | true => exact absurd (JsonPointer.contains_iff.1 hfound) h
      simp only [handlePacket, JsonPointer.contains, hfound, hfalse, Logged.run_ok_bind]
      rfl
    · simp only [handlePacket, JsonPointer.contains, hthrown]
      rfl

end ParameterExtractor

end Maplang
