import Maplang.Stream.Buffer
import Mathlib.Data.List.Forall2

/-!
# The buffer accumulator

A `BufferAccumulatorNode` has three interfaces.  One appends the buffers of a packet to those that
have been appended before, index by index; one sends copies of what there is; and one clears it.
The memory is kept when it is cleared, and so is the number of buffers.

## Main definitions

* `BufferInfo`, `BufferAccumulatorNode` : the buffers, and how much of them is used.
* `BufferAccumulatorNode.handlePacket`, `run` : the three interfaces.
* `Accumulation` : the packets that have been appended, which is what the node should remember.

## Main results

* `handlePacket_spec`, `run_spec` : the node remembers what it should.
* `accumulates` : the buffers that are sent are the concatenations of those that were appended.
* `clear_spec` : after it is cleared, a node sends the same bytes as a new one.
-/

namespace Maplang

/-! ### The code -/

/-- `struct BufferInfo`. -/
structure BufferInfo where
  buffer : Buffer := {}
  usedByteCount : ℕ := 0

/-- `class BufferAccumulatorNode`, less its factories: the vector that its interfaces share. -/
structure BufferAccumulatorNode where
  mBuffers : List BufferInfo := []

namespace BufferAccumulatorNode

/-- `BufferAccumulatorNode::kChannel_AccumulatedBuffersReady`. -/
def kChannel_AccumulatedBuffersReady : String := "Buffers Ready"

/-- The interfaces of the node. -/
inductive Interface where
  | AppendBuffers
  | SendAccumulatedBuffers
  | ClearBuffers
  deriving DecidableEq, Repr

/-- A packet, and the interface it is sent to. -/
structure Call where
  interface : Interface
  packet : Packet

/-- The buffer with another memory. -/
def withMemory (buffer : Buffer) (memory : List UInt8) : Buffer :=
  { buffer with data := some memory }

/-- `AppendBuffers::handlePacket` adds a slot when there is none for a buffer, ... -/
def addSlot (factory : BufferFactory) (i : ℕ) (mBuffers : List BufferInfo)
    (incomingBuffer : Buffer) : Code (List BufferInfo) :=
  if mBuffers.length = i then do
    let buffer ← factory.Create incomingBuffer.length
    return mBuffers ++ [{ buffer, usedByteCount := 0 }]
  else return mBuffers

/-- ... replaces the buffer of a slot by a larger one, if need be, ... -/
def grow (factory : BufferFactory) (buffer : Buffer) (minimumCopyToBufferLength : ℕ) :
    Code Buffer := do
  let newBuffer ← factory.Create minimumCopyToBufferLength
  let memory ← memcpy newBuffer.memory 0 buffer.memory buffer.length
  return withMemory newBuffer memory

/-- ... and copies the bytes behind those that are there. -/
def appendTo (factory : BufferFactory) (bufferInfo : BufferInfo) (incomingBuffer : Buffer) :
    Code BufferInfo := do
  let copyToBufferAtOffset := bufferInfo.usedByteCount
  let minimumCopyToBufferLength := sizeAdd copyToBufferAtOffset incomingBuffer.length
  let buffer ←
    if bufferInfo.buffer.length < minimumCopyToBufferLength then
      grow factory bufferInfo.buffer minimumCopyToBufferLength
    else pure bufferInfo.buffer
  let memory ← memcpy buffer.memory copyToBufferAtOffset incomingBuffer.memory incomingBuffer.length
  return {
    buffer := withMemory buffer memory
    usedByteCount := sizeAdd bufferInfo.usedByteCount incomingBuffer.length }

/-- The loop of `AppendBuffers::handlePacket`. -/
def appendLoop (factory : BufferFactory) : ℕ → List BufferInfo → List Buffer →
    Code (List BufferInfo)
  | _, mBuffers, [] => .ok mBuffers
  | i, mBuffers, incomingBuffer :: incomingBuffers => do
    let mBuffers ← addSlot factory i mBuffers incomingBuffer
    match mBuffers[i]? with
    | none => .error (.exception "std::out_of_range")
    | some bufferInfo =>
      let bufferInfo ← appendTo factory bufferInfo incomingBuffer
      appendLoop factory (i + 1) (mBuffers.set i bufferInfo) incomingBuffers

/-- The copy of a buffer that is sent. -/
def copyOf (factory : BufferFactory) (bufferInfo : BufferInfo) : Code Buffer := do
  let buffer ← factory.Create bufferInfo.usedByteCount
  let memory ← memcpy buffer.memory 0 bufferInfo.buffer.memory bufferInfo.usedByteCount
  return withMemory buffer memory

/-- `AppendBuffers::handlePacket`. -/
def AppendBuffers.handlePacket (factory : BufferFactory) (node : BufferAccumulatorNode)
    (packet : Packet) : Code (List Push × BufferAccumulatorNode) := do
  let mBuffers ← appendLoop factory 0 node.mBuffers packet.buffers
  return ([], { mBuffers })

/-- `SendAccumulatedBuffers::handlePacket`. -/
def SendAccumulatedBuffers.handlePacket (factory : BufferFactory) (node : BufferAccumulatorNode) :
    Code (List Push × BufferAccumulatorNode) := do
  let buffers ← node.mBuffers.mapM (copyOf factory)
  return ([{ packet := { buffers }, channel := kChannel_AccumulatedBuffersReady }], node)

/-- `ClearBuffers::handlePacket`. -/
def ClearBuffers.handlePacket (node : BufferAccumulatorNode) :
    Code (List Push × BufferAccumulatorNode) :=
  .ok ([], { mBuffers := node.mBuffers.map fun bufferInfo =>
    { bufferInfo with usedByteCount := 0 } })

/-- A packet is handled by the interface it is sent to. -/
def handlePacket (factory : BufferFactory) (node : BufferAccumulatorNode) (call : Call) :
    Code (List Push × BufferAccumulatorNode) :=
  match call.interface with
  | .AppendBuffers => AppendBuffers.handlePacket factory node call.packet
  | .SendAccumulatedBuffers => SendAccumulatedBuffers.handlePacket factory node
  | .ClearBuffers => ClearBuffers.handlePacket node

/-- Handle one packet after the other: what is pushed for each of them. -/
def run (factory : BufferFactory) (node : BufferAccumulatorNode) :
    List Call → Code (List (List Push) × BufferAccumulatorNode)
  | [] => .ok ([], node)
  | call :: calls => do
    let (pushes, node) ← node.handlePacket factory call
    let (outputs, node) ← node.run factory calls
    return (pushes :: outputs, node)

/-! ### What is remembered -/

/-- The bytes of one of some buffers; a missing buffer is empty. -/
def bytesAt (buffers : List Buffer) (i : ℕ) : ByteString := (buffers.getD i {}).contents

/-- What has been appended: the packets since the last time that all was cleared, and the largest
number of buffers that a packet has had, cleared ones included. -/
structure Accumulation where
  packets : List Packet := []
  bufferCount : ℕ := 0

namespace Accumulation

/-- The concatenation of the buffers at an index. -/
def joined (a : Accumulation) (i : ℕ) : ByteString :=
  (a.packets.map fun packet => bytesAt packet.buffers i).flatten

/-- What a packet changes. -/
def step (a : Accumulation) (call : Call) : Accumulation :=
  match call.interface with
  | .AppendBuffers =>
    { packets := a.packets ++ [call.packet]
      bufferCount := max a.bufferCount call.packet.buffers.length }
  | .SendAccumulatedBuffers => a
  | .ClearBuffers => { a with packets := [] }

/-- What one packet after the other changes. -/
def after (a : Accumulation) (calls : List Call) : Accumulation := calls.foldl step a

/-- What is pushed for a packet. -/
def Emits (a : Accumulation) (call : Call) (pushes : List Push) : Prop :=
  match call.interface with
  | .SendAccumulatedBuffers => ∃ push, pushes = [push] ∧
      push.channel = kChannel_AccumulatedBuffersReady ∧
      push.packet.buffers.length = a.bufferCount ∧
      ∀ i, bytesAt push.packet.buffers i = a.joined i
  | _ => pushes = []

end Accumulation

/-! ### One buffer -/

/-- The bytes that have been appended to a buffer. -/
def used (bufferInfo : BufferInfo) : ByteString :=
  bufferInfo.buffer.memory.take bufferInfo.usedByteCount

/-- No more bytes are used than the buffer has. -/
structure Fits (bufferInfo : BufferInfo) : Prop where
  allocated : bufferInfo.buffer.Allocated
  used_le : bufferInfo.usedByteCount ≤ bufferInfo.buffer.length

section

variable (factory : BufferFactory) {bufferInfo : BufferInfo} {incomingBuffer : Buffer}

theorem allocated_withMemory {buffer : Buffer} {memory : List UInt8} (h : buffer.Allocated)
    (hmemory : memory.length = buffer.memory.length) : (withMemory buffer memory).Allocated :=
  ⟨hmemory.trans h.length_memory, h.length_le⟩

/-- Bytes are appended to a buffer that has room for them, ... -/
theorem copy_spec (h : Fits bufferInfo) (hincoming : incomingBuffer.Readable)
    (hroom : bufferInfo.usedByteCount + incomingBuffer.length ≤ bufferInfo.buffer.length) :
    ∃ memory, memcpy bufferInfo.buffer.memory bufferInfo.usedByteCount incomingBuffer.memory
        incomingBuffer.length = .ok memory ∧
      Fits ⟨withMemory bufferInfo.buffer memory,
        bufferInfo.usedByteCount + incomingBuffer.length⟩ ∧
      used ⟨withMemory bufferInfo.buffer memory,
        bufferInfo.usedByteCount + incomingBuffer.length⟩ =
          used bufferInfo ++ incomingBuffer.contents := by
  obtain ⟨memory, hcopy, hlength, htake⟩ := memcpy_spec hincoming.valid
    (hroom.trans h.allocated.length_memory.ge)
  exact ⟨memory, hcopy, ⟨allocated_withMemory h.allocated hlength, hroom⟩, htake⟩

/-- ... and a buffer that has not is replaced by a larger one with the same bytes. -/
theorem grow_spec (h : Fits bufferInfo) {length : ℕ} (hlength : bufferInfo.buffer.length ≤ length) :
    factory.Ensures (grow factory bufferInfo.buffer length) fun buffer =>
      buffer.length = length ∧ Fits ⟨buffer, bufferInfo.usedByteCount⟩ ∧
        used ⟨buffer, bufferInfo.usedByteCount⟩ = used bufferInfo := by
  refine (factory.ensures_create length).bind fun newBuffer _ ⟨hnew, hallocated⟩ => ?_
  have hroom : 0 + bufferInfo.buffer.length ≤ newBuffer.memory.length := by
    rw [hallocated.length_memory, hnew, Nat.zero_add]
    exact hlength
  obtain ⟨memory, hcopy, hmemory, htake⟩ := memcpy_spec h.allocated.length_memory.ge hroom
  rw [Nat.zero_add, List.take_zero, List.nil_append] at htake
  rw [hcopy]
  have hused : bufferInfo.usedByteCount ≤ length := h.used_le.trans hlength
  refine .ok ⟨hnew, ⟨allocated_withMemory hallocated hmemory, hused.trans hnew.ge⟩, ?_⟩
  -- the used bytes are among those that have been copied
  calc memory.take bufferInfo.usedByteCount
      = (memory.take bufferInfo.buffer.length).take bufferInfo.usedByteCount := by
        rw [List.take_take, Nat.min_eq_left h.used_le]
    _ = used bufferInfo := by rw [htake, List.take_take, Nat.min_eq_left h.used_le]; rfl

theorem appendTo_spec (h : Fits bufferInfo) (hincoming : incomingBuffer.Readable) :
    factory.Ensures (appendTo factory bufferInfo incomingBuffer) fun bufferInfo' =>
      Fits bufferInfo' ∧ used bufferInfo' = used bufferInfo ++ incomingBuffer.contents := by
  have hsum : sizeAdd bufferInfo.usedByteCount incomingBuffer.length =
      bufferInfo.usedByteCount + incomingBuffer.length := by
    have hused := h.used_le.trans h.allocated.length_le
    have hlength := hincoming.length_le
    exact sizeAdd_eq (by unfold ptrdiffMax sizeMax at *; omega)
  have hcopied : ∀ buffer : Buffer,
      bufferInfo.usedByteCount + incomingBuffer.length ≤ buffer.length ∧
        Fits ⟨buffer, bufferInfo.usedByteCount⟩ ∧
        used ⟨buffer, bufferInfo.usedByteCount⟩ = used bufferInfo →
      factory.Ensures (do
        let memory ← memcpy buffer.memory bufferInfo.usedByteCount incomingBuffer.memory
          incomingBuffer.length
        return { buffer := withMemory buffer memory
                 usedByteCount := bufferInfo.usedByteCount + incomingBuffer.length })
        fun bufferInfo' => Fits bufferInfo' ∧
          used bufferInfo' = used bufferInfo ++ incomingBuffer.contents := by
    rintro buffer ⟨hroom, hfits, hsame⟩
    obtain ⟨memory, hcopy, hfits', hused⟩ := copy_spec hfits hincoming hroom
    rw [hcopy]
    exact .ok ⟨hfits', hused.trans (by rw [hsame])⟩
  rw [appendTo, hsum]
  split
  · rename_i hsmall
    refine (grow_spec factory h hsmall.le).bind fun buffer _ ⟨hlength, hfits, hused⟩ => ?_
    exact hcopied buffer ⟨hlength.ge, hfits, hused⟩
  · rename_i hroom
    exact hcopied bufferInfo.buffer ⟨Nat.le_of_not_lt hroom, h, rfl⟩

theorem copyOf_spec (h : Fits bufferInfo) :
    factory.Ensures (copyOf factory bufferInfo) fun buffer =>
      buffer.contents = used bufferInfo := by
  refine (factory.ensures_create _).bind fun buffer _ ⟨hlength, hallocated⟩ => ?_
  obtain ⟨memory, hcopy, -, htake⟩ := memcpy_spec
    (h.used_le.trans h.allocated.length_memory.ge)
    (show 0 + bufferInfo.usedByteCount ≤ buffer.memory.length by
      rw [hallocated.length_memory, hlength, Nat.zero_add])
  rw [Nat.zero_add, List.take_zero, List.nil_append] at htake
  rw [hcopy]
  refine .ok ?_
  rw [Buffer.contents, withMemory, hlength]
  exact htake

end

/-! ### The slots -/

/-- The bytes of a slot; a missing slot is empty. -/
def slot (mBuffers : List BufferInfo) (i : ℕ) : ByteString := (mBuffers[i]?.map used).getD []

/-- The slots are as they should be. -/
structure Slots (mBuffers : List BufferInfo) (count : ℕ) (bytes : ℕ → ByteString) : Prop where
  fits : ∀ bufferInfo ∈ mBuffers, Fits bufferInfo
  length : mBuffers.length = count
  slot : ∀ i, slot mBuffers i = bytes i

section

variable (factory : BufferFactory) {mBuffers : List BufferInfo} {count i : ℕ}
  {bytes : ℕ → ByteString} {bufferInfo : BufferInfo}

theorem slot_of_getElem? (h : mBuffers[i]? = some bufferInfo) :
    slot mBuffers i = used bufferInfo := by
  rw [slot, h, Option.map_some, Option.getD_some]

theorem Slots.set (h : Slots mBuffers count bytes) (hi : i < count) (hfits : Fits bufferInfo) :
    Slots (mBuffers.set i bufferInfo) count (Function.update bytes i (used bufferInfo)) where
  fits bufferInfo' hmem := by
    rcases List.mem_or_eq_of_mem_set hmem with hold | rfl
    · exact h.fits _ hold
    · exact hfits
  length := List.length_set.trans h.length
  slot j := by
    by_cases hj : j = i
    · subst hj
      rw [Function.update_self]
      exact slot_of_getElem? (List.getElem?_set_self (h.length ▸ hi))
    · rw [Function.update_of_ne hj, ← h.slot j, BufferAccumulatorNode.slot,
        List.getElem?_set_ne (Ne.symm hj), BufferAccumulatorNode.slot]

/-- A slot is added when there is none, and it is empty. -/
theorem addSlot_spec (h : Slots mBuffers count bytes) (hi : i ≤ count) (incomingBuffer : Buffer) :
    factory.Ensures (addSlot factory i mBuffers incomingBuffer) fun mBuffers' =>
      Slots mBuffers' (max count (i + 1)) bytes := by
  rw [addSlot, h.length]
  split
  · rename_i hlast
    refine (factory.ensures_create _).bind fun buffer _ ⟨hlength, hallocated⟩ => .ok ⟨?_, ?_, ?_⟩
    · intro bufferInfo hmem
      rcases List.mem_append.1 hmem with hold | hnew
      · exact h.fits _ hold
      · rw [List.mem_singleton.1 hnew]
        exact ⟨hallocated, Nat.zero_le _⟩
    · rw [List.length_append, h.length, List.length_singleton]
      omega
    · intro j
      rw [← h.slot j, slot, slot]
      rcases Nat.lt_or_ge j mBuffers.length with hlt | hge
      · rw [List.getElem?_append_left hlt]
      · rw [List.getElem?_append_right hge, List.getElem?_eq_none hge, List.getElem?_singleton]
        split <;> rfl
  · rename_i hnot
    exact .ok ⟨h.fits, h.length.trans (by omega), h.slot⟩

/-- **The loop over the incoming buffers** appends each of them to its slot. -/
theorem appendLoop_spec {incomingBuffers : List Buffer}
    (hincoming : ∀ incomingBuffer ∈ incomingBuffers, incomingBuffer.Readable)
    (h : Slots mBuffers count bytes) (hi : i ≤ count) :
    factory.Ensures (appendLoop factory i mBuffers incomingBuffers) fun mBuffers' =>
      Slots mBuffers' (max count (i + incomingBuffers.length)) fun j =>
        bytes j ++ if i ≤ j then bytesAt incomingBuffers (j - i) else [] := by
  induction incomingBuffers generalizing i mBuffers count bytes with
  | nil =>
    refine .ok ⟨h.fits, h.length.trans (by rw [List.length_nil]; omega), fun j => ?_⟩
    rw [h.slot j]
    split <;> exact (List.append_nil _).symm
  | cons incomingBuffer incomingBuffers ih =>
    obtain ⟨hfirst, hrest⟩ := List.forall_mem_cons.1 hincoming
    refine (addSlot_spec factory h hi incomingBuffer).bind fun mBuffers₁ _ h₁ => ?_
    have hlt : i < mBuffers₁.length := by rw [h₁.length]; omega
    have hget := List.getElem?_eq_getElem hlt
    rw [hget]
    refine (appendTo_spec factory (h₁.fits _ (List.getElem_mem hlt)) hfirst).bind
      fun bufferInfo _ ⟨hfits, hused⟩ => ?_
    rw [← slot_of_getElem? hget, h₁.slot i] at hused
    refine (ih hrest (h₁.set (by omega) hfits) (Nat.le_max_right _ _)).imp
      fun mBuffers' h' => ⟨h'.fits, ?_, fun j => ?_⟩
    · rw [h'.length, List.length_cons]
      omega
    · rw [h'.slot j]
      rcases Nat.lt_trichotomy j i with hlt | rfl | hgt
      · rw [Function.update_of_ne hlt.ne, if_neg (by omega), if_neg (by omega)]
      · rw [Function.update_self, hused, if_neg (by omega), if_pos le_rfl, Nat.sub_self,
          List.append_nil]
        rfl
      · obtain ⟨k, rfl⟩ := Nat.exists_eq_add_of_lt hgt
        rw [Function.update_of_ne hgt.ne', if_pos (by omega), if_pos (by omega),
          show i + k + 1 - i = k + 1 by omega, show i + k + 1 - (i + 1) = k by omega]
        rfl

/-- The copies that are sent. -/
theorem copies_spec (h : ∀ bufferInfo ∈ mBuffers, Fits bufferInfo) :
    factory.Ensures (mBuffers.mapM (copyOf factory)) fun buffers =>
      buffers.length = mBuffers.length ∧ ∀ i, bytesAt buffers i = slot mBuffers i := by
  induction mBuffers with
  | nil => exact .ok ⟨rfl, fun _ => rfl⟩
  | cons bufferInfo mBuffers ih =>
    obtain ⟨hfits, hrest⟩ := List.forall_mem_cons.1 h
    rw [List.mapM_cons]
    refine (copyOf_spec factory hfits).bind fun buffer _ hcopy => ?_
    refine (ih hrest).bind fun buffers _ ⟨hlength, hcopies⟩ => .ok ⟨?_, fun i => ?_⟩
    · rw [List.length_cons, List.length_cons, hlength]
    · cases i with
      | zero => exact hcopy
      | succ i => exact hcopies i

end

/-! ### Runs -/

/-- The node remembers what has been appended. -/
def Represents (node : BufferAccumulatorNode) (a : Accumulation) : Prop :=
  Slots node.mBuffers a.bufferCount a.joined

/-- All buffers of a packet can be read. -/
def Call.Readable (call : Call) : Prop := ∀ buffer ∈ call.packet.buffers, buffer.Readable

instance : DecidablePred Call.Readable := fun _ => inferInstanceAs (Decidable (∀ _ ∈ _, _))

section

variable (factory : BufferFactory) {node : BufferAccumulatorNode} {a : Accumulation} {call : Call}
  {calls : List Call}

theorem represents_new : Represents {} {} := ⟨by simp, rfl, fun _ => rfl⟩

theorem joined_append (a : Accumulation) (packet : Packet) (count i : ℕ) :
    Accumulation.joined ⟨a.packets ++ [packet], count⟩ i =
      a.joined i ++ bytesAt packet.buffers i := by
  simp [Accumulation.joined]

/-- **One packet**: the node remembers what it should, and pushes what it should. -/
theorem handlePacket_spec (h : node.Represents a) (hcall : call.Readable) :
    factory.Ensures (node.handlePacket factory call) fun (pushes, node') =>
      node'.Represents (a.step call) ∧ a.Emits call pushes := by
  obtain ⟨interface, packet⟩ := call
  cases interface with
  | AppendBuffers =>
    refine (appendLoop_spec factory hcall h (Nat.zero_le _)).bind fun mBuffers _ h' =>
      .ok ⟨⟨h'.fits, ?_, fun i => ?_⟩, rfl⟩
    · rw [h'.length, Nat.zero_add]
      rfl
    · rw [h'.slot i, if_pos (Nat.zero_le _), Nat.sub_zero]
      exact (joined_append a packet _ i).symm
  | SendAccumulatedBuffers =>
    refine (copies_spec factory h.fits).bind fun buffers _ ⟨hlength, hcopies⟩ =>
      .ok ⟨h, _, rfl, rfl, hlength.trans h.length, fun i => ?_⟩
    exact (hcopies i).trans (h.slot i)
  | ClearBuffers =>
    refine .ok ⟨⟨?_, ?_, fun i => ?_⟩, rfl⟩
    · intro bufferInfo hmem
      obtain ⟨old, hold, rfl⟩ := List.mem_map.1 hmem
      exact ⟨(h.fits old hold).allocated, Nat.zero_le _⟩
    · rw [List.length_map]
      exact h.length
    · rw [slot, List.getElem?_map]
      cases node.mBuffers[i]? <;> rfl

/-- What is pushed in a run. -/
def EmitsAll (a : Accumulation) (calls : List Call) (outputs : List (List Push)) : Prop :=
  outputs.length = calls.length ∧
    ∀ k (call : Call) (pushes : List Push), calls[k]? = some call → outputs[k]? = some pushes →
      (a.after (calls.take k)).Emits call pushes

/-- **A run**: the node remembers what it should throughout. -/
theorem run_spec (h : node.Represents a) (hcalls : ∀ call ∈ calls, call.Readable) :
    factory.Ensures (node.run factory calls) fun (outputs, node') =>
      node'.Represents (a.after calls) ∧ EmitsAll a calls outputs := by
  induction calls generalizing node a with
  | nil => exact .ok ⟨h, rfl, by simp⟩
  | cons call calls ih =>
    obtain ⟨hcall, hrest⟩ := List.forall_mem_cons.1 hcalls
    refine (handlePacket_spec factory h hcall).bind fun (pushes, node₁) _ ⟨h₁, hemits⟩ => ?_
    refine (ih h₁ hrest).bind fun (outputs, node') _ ⟨h', hlength, houtputs⟩ => .ok ⟨h', ?_, ?_⟩
    · rw [List.length_cons, List.length_cons, hlength]
    · intro k call' pushes' hcall' hpushes'
      cases k with
      | zero =>
        obtain rfl := Option.some.inj hcall'
        obtain rfl := Option.some.inj hpushes'
        exact hemits
      | succ k => exact houtputs k call' pushes' hcall' hpushes'

/-! ### What is sent -/

/-- Each packet that asks for it is answered with the concatenations of the buffers that have been
appended since the last packet that clears, and no buffer is used beyond its end. -/
structure Accumulates (calls : List Call) (outputs : List (List Push))
    (node : BufferAccumulatorNode) : Prop where
  fits : ∀ bufferInfo ∈ node.mBuffers, Fits bufferInfo
  length : outputs.length = calls.length
  sent : ∀ k call pushes, calls[k]? = some call → outputs[k]? = some pushes →
    if call.interface = .SendAccumulatedBuffers then
      ∃ push, pushes = [push] ∧ push.channel = "Buffers Ready" ∧
        ∀ i, bytesAt push.packet.buffers i = (Accumulation.after {} (calls.take k)).joined i
    else pushes = []

/-- **The buffers that are sent are the concatenations of those that were appended**, for all
packets and in every state of the node, unless there is no memory for a buffer. -/
theorem accumulates (hcalls : ∀ call ∈ calls, call.Readable) :
    factory.Ensures (run factory {} calls) fun (outputs, node) =>
      Accumulates calls outputs node := by
  refine (run_spec factory represents_new hcalls).imp fun (outputs, node) ⟨hnode, hlength, hall⟩ =>
    ⟨hnode.fits, hlength, fun k call pushes hcall hpushes => ?_⟩
  have hemits := hall k call pushes hcall hpushes
  obtain ⟨interface, packet⟩ := call
  cases interface with
  | SendAccumulatedBuffers =>
    obtain ⟨push, hpush, hchannel, -, hbytes⟩ := hemits
    exact (if_pos rfl).mpr ⟨push, hpush, hchannel, hbytes⟩
  | AppendBuffers | ClearBuffers => exact hemits

end

/-- Two packets are appended, the first of which has an empty buffer, and one after a clear. -/
def accumulatorCalls : List Call :=
  [⟨.AppendBuffers, { buffers := [.ofBytes (bytes "ab"), {}] }⟩,
    ⟨.AppendBuffers, { buffers := [.ofBytes (bytes "c"), .ofBytes (bytes "d")] }⟩,
    ⟨.SendAccumulatedBuffers, {}⟩, ⟨.ClearBuffers, {}⟩,
    ⟨.AppendBuffers, { buffers := [.ofBytes (bytes "e")] }⟩, ⟨.SendAccumulatedBuffers, {}⟩]

theorem accumulates_cleared :
    BufferFactory.zeros.Ensures (run .zeros {} accumulatorCalls) fun (outputs, node) =>
      Accumulates accumulatorCalls outputs node :=
  accumulates .zeros (by decide)

/-! ### Clearing -/

/-- What is pushed after a node is cleared, compared with what a new node pushes for the same
packets. -/
def AfterClear (factory : BufferFactory) (R : Push → Push → Prop) (before : List Call)
    (clear : Packet) (calls : List Call) : Prop :=
  factory.Ensures (run factory {} (before ++ ⟨.ClearBuffers, clear⟩ :: calls)) fun (outputs, _) =>
    factory.Ensures (run factory {} calls) fun (outputs', _) =>
      List.Forall₂ (List.Forall₂ R) (outputs.drop (before.length + 1)) outputs'

/-- The same buffers. -/
def SameBuffers (push push' : Push) : Prop :=
  push.packet.buffers.map Buffer.contents = push'.packet.buffers.map Buffer.contents

/-- The same bytes at each index, and at least so many buffers. -/
structure SameBytes (bufferCount : ℕ) (push push' : Push) : Prop where
  channel : push.channel = push'.channel
  length : push.packet.buffers.length = max bufferCount push'.packet.buffers.length
  bytesAt : ∀ i, bytesAt push.packet.buffers i = bytesAt push'.packet.buffers i

/-- The largest number of buffers in a packet that is appended. -/
def largestCount (calls : List Call) : ℕ := (Accumulation.after {} calls).bufferCount

section

variable (factory : BufferFactory) {a : Accumulation} {call : Call} {before calls : List Call}

/-- A larger number of buffers stays larger. -/
def Accumulation.raise (a : Accumulation) (bufferCount : ℕ) : Accumulation :=
  { a with bufferCount := max bufferCount a.bufferCount }

theorem raise_step (a : Accumulation) (bufferCount : ℕ) (call : Call) :
    (a.raise bufferCount).step call = (a.step call).raise bufferCount := by
  obtain ⟨interface, packet⟩ := call
  cases interface with
  | AppendBuffers => simp [Accumulation.raise, Accumulation.step, Nat.max_assoc]
  | SendAccumulatedBuffers | ClearBuffers => rfl

theorem raise_after (a : Accumulation) (bufferCount : ℕ) (calls : List Call) :
    (a.raise bufferCount).after calls = (a.after calls).raise bufferCount := by
  induction calls generalizing a with
  | nil => rfl
  | cons call calls ih =>
    rw [Accumulation.after, List.foldl_cons, raise_step]
    exact ih (a.step call)

/-- After all is cleared, only the number of buffers is left. -/
theorem after_clear (before : List Call) (clear : Packet) (calls : List Call) :
    Accumulation.after {} (before ++ ⟨.ClearBuffers, clear⟩ :: calls) =
      (Accumulation.after {} calls).raise (largestCount before) := by
  have hclear : (Accumulation.after {} before).step ⟨.ClearBuffers, clear⟩ =
      Accumulation.raise {} (largestCount before) := by
    simp [Accumulation.step, Accumulation.raise, largestCount]
  rw [← raise_after, ← hclear, Accumulation.after, List.foldl_append, List.foldl_cons]
  rfl

/-- What is pushed when more buffers have been appended before. -/
theorem Emits.raise {bufferCount : ℕ} {pushes pushes' : List Push}
    (h : (a.raise bufferCount).Emits call pushes) (h' : a.Emits call pushes') :
    List.Forall₂ (SameBytes bufferCount) pushes pushes' := by
  obtain ⟨interface, packet⟩ := call
  cases interface with
  | SendAccumulatedBuffers =>
    obtain ⟨push, rfl, hchannel, hlength, hbytes⟩ := h
    obtain ⟨push', rfl, hchannel', hlength', hbytes'⟩ := h'
    refine .cons ⟨hchannel.trans hchannel'.symm, ?_, fun i => ?_⟩ .nil
    · rw [hlength, hlength']
      rfl
    · rw [hbytes i, hbytes' i]
      rfl
  | AppendBuffers | ClearBuffers =>
    obtain rfl : pushes = [] := h
    obtain rfl : pushes' = [] := h'
    exact .nil

/-- **After it is cleared, a node sends the same bytes as a new one**, in as many buffers as a
packet has had before, if that is more. -/
theorem clear_spec (hbefore : ∀ call ∈ before, call.Readable) (clear : Packet)
    (hclear : Call.Readable ⟨.ClearBuffers, clear⟩) (hcalls : ∀ call ∈ calls, call.Readable) :
    AfterClear factory (SameBytes (largestCount before)) before clear calls := by
  have hall : ∀ call ∈ before ++ ⟨.ClearBuffers, clear⟩ :: calls, call.Readable :=
    List.forall_mem_append.2 ⟨hbefore, List.forall_mem_cons.2 ⟨hclear, hcalls⟩⟩
  refine (run_spec factory represents_new hall).imp fun (outputs, _) ⟨_, hlength, hemits⟩ => ?_
  refine (run_spec factory represents_new hcalls).imp
    fun (outputs', _) ⟨_, hlength', hemits'⟩ => ?_
  rw [List.length_append, List.length_cons] at hlength
  refine List.forall₂_iff_get.2 ⟨by rw [List.length_drop]; omega, fun k hk hk' => ?_⟩
  rw [List.length_drop] at hk
  have hcall : k < calls.length := hlength' ▸ hk'
  -- the packet comes after those before the clear, and the clear
  have hget : (before ++ ⟨.ClearBuffers, clear⟩ :: calls)[before.length + 1 + k]? =
      some calls[k] := by
    rw [List.getElem?_append_right (by omega),
      show before.length + 1 + k - before.length = k + 1 by omega, List.getElem?_cons_succ,
      List.getElem?_eq_getElem hcall]
  have htake : (before ++ ⟨.ClearBuffers, clear⟩ :: calls).take (before.length + 1 + k) =
      before ++ ⟨.ClearBuffers, clear⟩ :: calls.take k := by
    rw [List.take_append, List.take_of_length_le (by omega),
      show before.length + 1 + k - before.length = k + 1 by omega, List.take_succ_cons]
  have hfirst := hemits _ calls[k] _ hget (List.getElem?_eq_getElem (by omega))
  rw [htake, after_clear] at hfirst
  have hsecond := hemits' k calls[k] _ (List.getElem?_eq_getElem hcall)
    (List.getElem?_eq_getElem hk')
  rw [List.get_eq_getElem, List.get_eq_getElem, List.getElem_drop]
  exact Emits.raise hfirst hsecond

end

/-- A packet with two buffers is appended before the clear, and one with one buffer after it. -/
theorem clear_spec_two :
    AfterClear .zeros (SameBytes 2)
      [⟨.AppendBuffers, { buffers := [.ofBytes (bytes "ab"), .ofBytes (bytes "c")] }⟩] {}
      [⟨.AppendBuffers, { buffers := [.ofBytes (bytes "d")] }⟩, ⟨.SendAccumulatedBuffers, {}⟩] :=
  clear_spec .zeros (by decide) {} (by decide) (by decide)

/-- **A node that is cleared sends an empty buffer** for each slot, and a new one sends none. -/
theorem not_sameBuffers_cleared :
    ¬ ∀ (factory : BufferFactory) (before : List Call) (clear : Packet) (calls : List Call),
      (∀ call ∈ before ++ ⟨.ClearBuffers, clear⟩ :: calls, call.Readable) →
        AfterClear factory SameBuffers before clear calls := by
  intro h
  rcases h .zeros [⟨.AppendBuffers, { buffers := [.ofBytes (bytes "x")] }⟩] {}
    [⟨.SendAccumulatedBuffers, {}⟩] (by decide) with
    ⟨_, hrun, hrest⟩ | ⟨_, _, -, hfault⟩
  · obtain rfl := Except.ok.inj hrun
    rcases hrest with ⟨_, hrun', hsame⟩ | ⟨_, _, -, hfault⟩
    · obtain rfl := Except.ok.inj hrun'
      obtain _ | ⟨_ | ⟨hone, -⟩, -⟩ := hsame
      cases hone
    · cases hfault
  · cases hfault

end BufferAccumulatorNode

end Maplang
