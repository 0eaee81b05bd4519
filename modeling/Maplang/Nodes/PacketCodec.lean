import Maplang.Stream.MemoryStream

/-!
# Packets as bytes

A `PacketWriter` turns a packet into one buffer: its total length, the length and the bytes of its
parameters, and the length and the bytes of each buffer.  A `PacketReader` is meant to undo this.

The writer writes its lengths through a pointer to a pointer, and steps the outer one.  Its second
byte goes through whatever follows the local variable `writeTo`, so no packet is ever written.

## Main definitions

* `Msgpack` : the functions of the JSON library.
* `writeUInt64BE`, `PacketWriter.handlePacket` : the writer.
* `PacketReader.readPacket`, `PacketReader.handlePacket` : the reader, with its endless loops.
* `RoundTrips` : what is asked of the two.
* `PacketWriter.layout` : the bytes which a packet should be written as.
* `PacketWriter.FillsExactly` : a packet is written as these, and they fill the buffer.

## Main results

* `writeUInt64BE_undefined` : writing a length is undefined.
* `roundTrips_iff` : the round trip holds of no packets, and of no list that has one.
* `PacketWriter.fillsExactly_iff` : no buffer that can be created is ever filled.
-/

namespace Maplang

/-- `json::to_msgpack`, and `json::from_msgpack` of a sequence of bytes. -/
structure Msgpack where
  to_msgpack : Json → ByteString
  from_msgpack : ByteString → Code Json

/-! ### The writer -/

/-- `**where++ = byte`, for a pointer `where` that started at the only element of `pointers`. -/
def storeThrough (pointers : List ℕ) (memory : List UInt8) (position : ℕ) (byte : UInt8) :
    Code (List UInt8) :=
  match pointers[position]? with
  | none => .error .undefinedBehaviour
  | some writeTo =>
    if writeTo < memory.length then .ok (memory.set writeTo byte) else .error .undefinedBehaviour

/-- `writeUInt64BE(val, &writeTo)`: `where` is stepped after each byte, and `writeTo` is not. -/
def writeUInt64BE (val : ℕ) (memory : List UInt8) (writeTo : ℕ) : Code (List UInt8) :=
  [56, 48, 40, 32, 24, 16, 8, 0].zipIdx.foldlM
    (fun memory (shift, position) =>
      storeThrough [writeTo] memory position (UInt8.ofNat (val >>> shift))) memory

namespace PacketWriter

/-- The loop over the buffers in `handlePacket`. -/
def writeBuffers : List UInt8 → ℕ → List Buffer → Code (List UInt8)
  | memory, _, [] => .ok memory
  | memory, writeTo, buffer :: buffers => do
    let bufferLength := buffer.length
    let memory ← writeUInt64BE bufferLength memory writeTo
    let memory ← memcpy memory writeTo buffer.memory bufferLength
    writeBuffers memory (writeTo + bufferLength) buffers

/-- The number of bytes that follow the first length field. -/
def totalLength (codec : Msgpack) (incomingPacket : Packet) : ℕ :=
  (codec.to_msgpack incomingPacket.parameters).length + (1 + incomingPacket.buffers.length) * 8 +
    (incomingPacket.buffers.map Buffer.length).sum

/-- `PacketWriter::handlePacket`. -/
def handlePacket (codec : Msgpack) (factory : BufferFactory) (incomingPacket : Packet) :
    Code (List Push) := do
  let parameters := codec.to_msgpack incomingPacket.parameters
  let parametersLength := parameters.length
  let buffer ← factory.Create (totalLength codec incomingPacket)
  let writeTo := 0
  let memory ← writeUInt64BE (totalLength codec incomingPacket) buffer.memory writeTo
  let memory ← writeUInt64BE parametersLength memory writeTo
  let memory ← memcpy memory writeTo parameters parametersLength
  let memory ← writeBuffers memory (writeTo + parametersLength) incomingPacket.buffers
  return [{ packet := { buffers := [{ buffer with data := some memory }] }
            channel := "Message Ready" }]

/-- The bytes of the messages for one packet after the other. -/
def encode (codec : Msgpack) (factory : BufferFactory) : List Packet → Code ByteString
  | [] => .ok []
  | packet :: packets => do
    let pushes ← handlePacket codec factory packet
    let rest ← encode codec factory packets
    return (pushes.map fun push => MemoryStream.bytesOf push.packet.buffers).flatten ++ rest

end PacketWriter

/-! ### The reader -/

/-- `class PacketReader`, less its factories. -/
structure PacketReader where
  mLength : ℕ := 0
  mPendingBytes : MemoryStream := {}

namespace PacketReader

/-- `json::from_msgpack` of a pointer: the bytes before the first null, which must be there. -/
def fromPointer (codec : Msgpack) (memory : List UInt8) : Code Json :=
  if 0 ∈ memory then codec.from_msgpack (memory.takeWhile (· ≠ 0)) else .error .undefinedBehaviour

/-- The loop over the buffers in `readPacket`; an iteration moves the offset by eight or more, or
throws. -/
def readBuffers (factory : BufferFactory) (stream : MemoryStream) :
    ℕ → ℕ → Code (List Buffer)
  | 0, _ => .error .nontermination
  | fuel + 1, offset =>
    if stream.mSize ≤ offset then .ok []
    else do
      let bufferSize ← stream.readBigEndian offset
      let offset := sizeAdd offset 8
      let buffer ← factory.Create bufferSize
      let (bytesRead, memory) ← stream.read offset bufferSize buffer.memory bufferSize
      if bytesRead ≠ bufferSize then
        throwRuntimeError ("Failed to parse data. Buffer length " ++ toString bufferSize ++
          " is longer than available byte count " ++ toString bytesRead ++ ".")
      else
        let buffers ← readBuffers factory stream fuel (sizeAdd offset bufferSize)
        return { buffer with data := some memory } :: buffers

/-- `PacketReader::readPacket`. -/
def readPacket (codec : Msgpack) (factory : BufferFactory) (stream : MemoryStream) :
    Code Packet := do
  let offset := 8
  let parametersLength ← stream.readBigEndian offset
  -- the eight bytes of the length itself are not counted
  let offset := sizeAdd offset parametersLength
  let parameterStream ← stream.subStream 8
  let parameterBuffer ← factory.Create (sizeAdd parametersLength 1)
  let (_, memory) ←
    parameterStream.read 16 parametersLength parameterBuffer.memory parameterBuffer.length
  let parameters ← fromPointer codec memory
  let buffers ← readBuffers factory stream (stream.mSize + 1) offset
  return { parameters, buffers }

/-- The loop of `handlePacket`.  An iteration returns, takes a frame off the pending bytes, or
leaves everything as it was, after which there is no end. -/
def readPackets (codec : Msgpack) (factory : BufferFactory) :
    ℕ → PacketReader → Code (List Push × PacketReader)
  | 0, _ => .error .nontermination
  | fuel + 1, x => do
    if x.mPendingBytes.mSize = 0 then return ([], x)
    else if x.mLength = 0 ∧ x.mPendingBytes.mSize < 8 then return ([], x)
    else
      let mLength ←
        if x.mLength = 0 then (sizeAdd 8 ·) <$> x.mPendingBytes.readBigEndian 0
        else pure x.mLength
      if x.mPendingBytes.mSize < mLength then readPackets codec factory fuel { x with mLength }
      else
        -- the end is eight bytes too far, and clamped to what is pending
        let deserializeStream ← x.mPendingBytes.subStream 8 (some (sizeAdd 8 mLength))
        let tried : Code (Packet × MemoryStream) := do
          let packet ← readPacket codec factory deserializeStream
          let mPendingBytes ← x.mPendingBytes.subStream mLength
          return (packet, mPendingBytes)
        match tried with
        | .ok (packet, mPendingBytes) =>
          let (pushes, x') ← readPackets codec factory fuel { mLength := 0, mPendingBytes }
          return (⟨packet, "Packet Ready"⟩ :: pushes, x')
        | .error (.exception what) =>
          let errorPacket : Packet :=
            { parameters := .object [(bytes "errorMessage", .string (bytes what))] }
          -- nothing is taken off the pending bytes
          let (pushes, x') ← readPackets codec factory fuel { x with mLength }
          return (⟨errorPacket, "error"⟩ :: pushes, x')
        | .error fault => .error fault

/-- `PacketReader::handlePacket`. -/
def handlePacket (codec : Msgpack) (factory : BufferFactory) (x : PacketReader)
    (incomingPacket : Packet) : Code (List Push × PacketReader) :=
  match incomingPacket.buffers with
  | [] => .error .undefinedBehaviour
  | buffer :: _ => do
    let mPendingBytes ← x.mPendingBytes.append buffer
    readPackets codec factory (mPendingBytes.mSize + 1) { x with mPendingBytes }

/-- Handle one packet after the other. -/
def run (codec : Msgpack) (factory : BufferFactory) (x : PacketReader) :
    List Packet → Code (List Push × PacketReader)
  | [] => .ok ([], x)
  | incomingPacket :: incomingPackets => do
    let (pushes, x') ← x.handlePacket codec factory incomingPacket
    let (pushes', x'') ← x'.run codec factory incomingPackets
    return (pushes ++ pushes', x'')

end PacketReader

/-! ### The round trip -/

/-- What two packets have to agree on. -/
def Packet.values (packet : Packet) : Json × List ByteString :=
  (packet.parameters, packet.buffers.map Buffer.contents)

/-- The packets come back, however their bytes are cut, and no error is pushed. -/
def RoundTrips (codec : Msgpack) (factory : BufferFactory) (packets : List Packet) : Prop :=
  ∃ encoded, PacketWriter.encode codec factory packets = .ok encoded ∧
    ∀ incoming : List Packet, (∀ packet ∈ incoming, HasBuffer packet) →
      received incoming = encoded →
      ∃ pushes x, PacketReader.run codec factory {} incoming = .ok (pushes, x) ∧
        (pushes.filter (·.channel = "Packet Ready")).map (·.packet.values) =
          packets.map Packet.values ∧
        ∀ push ∈ pushes, push.channel ≠ "error"

/-- **Writing a length is undefined**: the second byte is stored through the pointer after
`writeTo`. -/
theorem writeUInt64BE_undefined (val : ℕ) (memory : List UInt8) (writeTo : ℕ) :
    writeUInt64BE val memory writeTo = .error .undefinedBehaviour := by
  -- the first byte may be stored; the second one is not
  by_cases h : writeTo < memory.length
  · simp [writeUInt64BE, storeThrough, h, bind, Except.bind]
  · simp [writeUInt64BE, storeThrough, h, bind, Except.bind]

variable (codec : Msgpack) (factory : BufferFactory)

/-- No packet is ever written. -/
theorem PacketWriter.handlePacket_error (packet : Packet) :
    ∃ fault, handlePacket codec factory packet = .error fault := by
  cases hcreate : factory.Create (totalLength codec packet) with
  | error fault => exact ⟨fault, by simp [handlePacket, hcreate, bind, Except.bind]⟩
  | ok buffer =>
    exact ⟨.undefinedBehaviour,
      by simp [handlePacket, hcreate, bind, Except.bind, writeUInt64BE_undefined]⟩

theorem PacketWriter.encode_cons (packet : Packet) (packets : List Packet) :
    ∃ fault, encode codec factory (packet :: packets) = .error fault := by
  obtain ⟨fault, hfault⟩ := handlePacket_error codec factory packet
  exact ⟨fault, by simp [encode, hfault, bind, Except.bind]⟩

/-- A reader that receives no bytes pushes nothing. -/
theorem PacketReader.run_empty {incoming : List Packet}
    (hincoming : ∀ packet ∈ incoming, HasBuffer packet) (hempty : received incoming = []) :
    run codec factory {} incoming = .ok ([], {}) := by
  induction incoming with
  | nil => rfl
  | cons packet incoming ih =>
    obtain ⟨hbuffers, hvalid⟩ := hincoming packet (by simp)
    obtain ⟨buffer, buffers, hcons⟩ := List.exists_cons_of_ne_nil hbuffers
    rw [received, List.map_cons, MemoryStream.bytesOf_cons, List.append_eq_nil_iff] at hempty
    have hlength : buffer.length = 0 := by
      have hcontents := Buffer.length_contents hvalid
      rw [hempty.1, firstBuffer, hcons] at hcontents
      exact hcontents.symm
    have hhandle : handlePacket codec factory {} packet = .ok ([], {}) := by
      simp [handlePacket, hcons, MemoryStream.append, hlength, bind, Except.bind, readPackets, pure,
        Except.pure]
    simp only [run, hhandle, bind, Except.bind,
      ih (fun p hp => hincoming p (by simp [hp])) hempty.2]
    rfl

/-- **The round trip holds of no packets, and of no list that has one**, whatever codec and
factory are used. -/
theorem roundTrips_iff (packets : List Packet) :
    RoundTrips codec factory packets ↔ packets = [] := by
  constructor
  · rintro ⟨encoded, hencoded, -⟩
    cases packets with
    | nil => rfl
    | cons packet packets =>
      obtain ⟨fault, hfault⟩ := PacketWriter.encode_cons codec factory packet packets
      rw [hfault] at hencoded
      cases hencoded
  · rintro rfl
    refine ⟨[], rfl, fun incoming hincoming hempty => ⟨[], {}, ?_, rfl, by simp⟩⟩
    exact PacketReader.run_empty codec factory hincoming hempty

/-- **A packet without parameters and buffers does not come back**, with any codec and factory. -/
theorem not_roundTrips_null : ¬ ∃ (codec : Msgpack) (factory : BufferFactory),
    RoundTrips codec factory [{ parameters := .null, buffers := [] }] := by
  rintro ⟨codec, factory, encoded, hencoded, -⟩
  obtain ⟨fault, hfault⟩ := PacketWriter.encode_cons codec factory {} []
  rw [hfault] at hencoded
  cases hencoded

/-! ### Filling the buffer -/

namespace PacketWriter

/-- A length, the most significant byte first. -/
def lengthField (length : ℕ) : ByteString :=
  [56, 48, 40, 32, 24, 16, 8, 0].map fun shift => UInt8.ofNat (length >>> shift)

/-- The bytes behind the first length field. -/
def following (codec : Msgpack) (packet : Packet) : ByteString :=
  lengthField (codec.to_msgpack packet.parameters).length ++ codec.to_msgpack packet.parameters ++
    (packet.buffers.map fun buffer => lengthField buffer.length ++ buffer.contents).flatten

/-- The bytes of a packet, behind the number of bytes that follow. -/
def layout (codec : Msgpack) (packet : Packet) : ByteString :=
  lengthField (following codec packet).length ++ following codec packet

/-- When the buffer has been created, its bytes are exactly those of the packet. -/
def FillsExactly (codec : Msgpack) (factory : BufferFactory) (packet : Packet) : Prop :=
  ∀ buffer, factory.Create (totalLength codec packet) = .ok buffer →
    ∃ memory, handlePacket codec factory packet =
        .ok [⟨{ buffers := [{ buffer with data := some memory }] }, "Message Ready"⟩] ∧
      memory = layout codec packet ∧ memory.length = buffer.length

/-- **No buffer is ever filled**: once it has been created, the first length is not written. -/
theorem fillsExactly_iff (packet : Packet) :
    FillsExactly codec factory packet ↔
      ∀ buffer, factory.Create (totalLength codec packet) ≠ .ok buffer := by
  constructor
  · intro hfills buffer hcreate
    obtain ⟨memory, hwritten, -⟩ := hfills buffer hcreate
    obtain ⟨fault, hfault⟩ := handlePacket_error codec factory packet
    cases hfault.symm.trans hwritten
  · exact fun hnone buffer hcreate => absurd hcreate (hnone buffer)

/-- Parameters of one byte, and no buffers. -/
theorem not_fillsExactly_null :
    ¬ ∀ (codec : Msgpack) (factory : BufferFactory) (packet : Packet),
      totalLength codec packet < 2 ^ 64 → FillsExactly codec factory packet := by
  intro h
  obtain ⟨memory, hwritten, -⟩ :=
    h ⟨fun _ => [0xC0], fun _ => .ok .null⟩ .zeros {} (by decide) _ rfl
  cases hwritten

@[simp] theorem length_lengthField (length : ℕ) : (lengthField length).length = 8 := rfl

theorem length_sections {buffers : List Buffer} (hbuffers : ∀ buffer ∈ buffers, buffer.Valid) :
    (buffers.map fun buffer => lengthField buffer.length ++ buffer.contents).flatten.length =
      buffers.length * 8 + (buffers.map Buffer.length).sum := by
  induction buffers with
  | nil => rfl
  | cons buffer buffers ih =>
    obtain ⟨hbuffer, hbuffers⟩ := List.forall_mem_cons.1 hbuffers
    rw [List.map_cons, List.flatten_cons, List.length_append, List.length_append,
      length_lengthField, Buffer.length_contents hbuffer, ih hbuffers, List.map_cons, List.sum_cons,
      List.length_cons]
    omega

/-- Nor would there be room: the length that is asked for does not count the first length field. -/
theorem length_layout {packet : Packet} (hbuffers : ∀ buffer ∈ packet.buffers, buffer.Valid) :
    (layout codec packet).length = totalLength codec packet + 8 := by
  rw [layout, following, List.length_append, List.length_append, List.length_append,
    length_sections hbuffers, length_lengthField, length_lengthField, totalLength]
  omega

end PacketWriter

end Maplang
