import Maplang.Cpp.Logged
import Maplang.Nodes.PacketCodec
import Maplang.Stream.Windows

/-!
# Where a packet reader reads

A frame is meant to hold, behind eight bytes, the length and the bytes of the parameters, and the
length and the bytes of each buffer.  `readPacket` reads the parameters eight bytes too far, up to
the first null, and the first buffer length eight bytes too early.

What it adds, and which bytes it hands on, is written to a log; the log does not change what it
does (`loggedPacket_result`).

## Main definitions

* `PacketReader.loggedPacket` : `readPacket`, with a log.
* `PacketReader.StaysInside` : what is asked of it.
* `PacketReader.BuffersFit` : the buffer sections from an offset on are inside the frame.
* `PacketReader.StaysWhen` : the frames for which it does what is asked.

## Main results

* `PacketReader.staysInside_iff` : it does what is asked exactly for these frames.
-/

namespace Maplang

namespace PacketReader

open MemoryStream (bigEndian readBigEndian_spec readBigEndian_short)

/-! ### The log -/

/-- Bytes that are given to the decoder, or returned in a buffer. -/
structure Handed where
  /-- Where the section that is declared for them begins in the frame, ... -/
  start : ℕ
  /-- ... and how long it is declared to be. -/
  length : ℕ
  /-- The position in the frame from which bytes are copied, ... -/
  source : ℕ
  /-- ... and how many. -/
  copied : ℕ
  given : ByteString

/-- What `readPacket` does on the way to its result. -/
inductive Event where
  /-- Two offsets or sizes are added. -/
  | added (a b : ℕ)
  | handed (handed : Handed)

/-- `a + b`, on `uint64_t`. -/
def add (a b : ℕ) : Logged Event ℕ := do
  .tell (.added a b)
  return sizeAdd a b

theorem add_bind {α : Type} (a b : ℕ) (f : ℕ → Logged Event α) :
    add a b >>= f = ⟨.added a b :: (f (sizeAdd a b)).log, (f (sizeAdd a b)).result⟩ := rfl

/-- `readBuffers`, with a log. -/
def loggedBuffers (factory : BufferFactory) (stream : MemoryStream) :
    ℕ → ℕ → Logged Event (List Buffer)
  | 0, _ => .run (.error .nontermination)
  | fuel + 1, offset =>
    if stream.mSize ≤ offset then return []
    else do
      let bufferSize ← .run (stream.readBigEndian offset)
      let offset ← add offset 8
      let buffer ← .run (factory.Create bufferSize)
      let (bytesRead, memory) ← .run (stream.read offset bufferSize buffer.memory bufferSize)
      if bytesRead ≠ bufferSize then
        .run (throwRuntimeError ("Failed to parse data. Buffer length " ++ toString bufferSize ++
          " is longer than available byte count " ++ toString bytesRead ++ "."))
      else
        let buffer := { buffer with data := some memory }
        .tell (.handed ⟨offset, bufferSize, offset, bytesRead, buffer.contents⟩)
        let buffers ← loggedBuffers factory stream fuel (← add offset bufferSize)
        return buffer :: buffers

/-- `readPacket`, with a log. -/
def loggedPacket (codec : Msgpack) (factory : BufferFactory) (stream : MemoryStream) :
    Logged Event Packet := do
  let offset := 8
  let parametersLength ← .run (stream.readBigEndian offset)
  let offset ← add offset parametersLength
  let parameterStream ← .run (stream.subStream 8)
  let parameterBuffer ← .run (factory.Create (← add parametersLength 1))
  let (bytesRead, memory) ← .run
    (parameterStream.read 16 parametersLength parameterBuffer.memory parameterBuffer.length)
  -- the section is behind the length, at 16; byte 16 of the substream is byte 24 of the frame
  .tell (.handed ⟨16, parametersLength, 8 + 16, bytesRead, memory.takeWhile (· ≠ 0)⟩)
  let parameters ← .run (fromPointer codec memory)
  let buffers ← loggedBuffers factory stream (stream.mSize + 1) offset
  return { parameters, buffers }

theorem loggedBuffers_result (factory : BufferFactory) (stream : MemoryStream) (fuel offset : ℕ) :
    (loggedBuffers factory stream fuel offset).result =
      readBuffers factory stream fuel offset := by
  induction fuel generalizing offset with
  | zero => rfl
  | succ fuel ih =>
    rw [loggedBuffers, readBuffers]
    by_cases hend : stream.mSize ≤ offset
    · rw [if_pos hend, if_pos hend]
      rfl
    · rw [if_neg hend, if_neg hend]
      simp only [Logged.result_bind, Logged.result_run, add_bind]
      refine congrArg (Except.bind _) (funext fun bufferSize => ?_)
      refine congrArg (Except.bind _) (funext fun buffer => ?_)
      refine congrArg (Except.bind _) (funext fun read => ?_)
      by_cases hshort : read.1 ≠ bufferSize
      · rw [if_pos hshort, if_pos hshort]
        rfl
      · rw [if_neg hshort, if_neg hshort, ← ih]
        rfl

/-- **The log does not change what `readPacket` does.** -/
theorem loggedPacket_result (codec : Msgpack) (factory : BufferFactory) (stream : MemoryStream) :
    (loggedPacket codec factory stream).result = readPacket codec factory stream := by
  simp only [loggedPacket, Logged.result_bind, Logged.result_run, add_bind, Logged.tell_bind,
    loggedBuffers_result]
  rfl

/-! ### What is asked -/

/-- A sum does not wrap around. -/
def Event.Fits : Event → Prop
  | .added a b => a + b < 2 ^ 64
  | .handed _ => True

/-- The bytes that have been handed on. -/
def handed (log : List Event) : List Handed :=
  log.filterMap fun
    | .added _ _ => none
    | .handed handed => some handed

/-- The section is inside the frame, and every byte was copied from it. -/
structure Handed.FromSection (frame : ByteString) (c : Handed) : Prop where
  inside : c.start + c.length ≤ frame.length
  copied : ∀ i < c.given.length,
    i < c.copied ∧ c.start ≤ c.source + i ∧ c.source + i < c.start + c.length
  given : c.given = (frame.drop c.source).take c.given.length

/-- The sections of buffers, which follow an offset in the frame. -/
structure BufferSections (frame : ByteString) (offset : ℕ) (buffers : List Buffer)
    (sections : List Handed) : Prop where
  given : buffers.map Buffer.contents = sections.map Handed.given
  fromSection : ∀ c ∈ sections, c.FromSection frame
  ordered : sections.Pairwise fun c d => c.start + c.length ≤ d.start
  behind : ∀ c ∈ sections, offset ≤ c.start

/-- The packet was made from sections that are inside the frame, disjoint and in order. -/
def MadeFrom (codec : Msgpack) (frame : ByteString) (packet : Packet) (sections : List Handed) :
    Prop :=
  ∃ parameters buffers, sections = parameters :: buffers ∧
    codec.from_msgpack parameters.given = .ok packet.parameters ∧ parameters.FromSection frame ∧
    BufferSections frame (parameters.start + parameters.length) packet.buffers buffers

/-- No sum wraps around, and the run throws, or returns a packet that was made from sections of the
frame. -/
def StaysInside (codec : Msgpack) (frame : ByteString) (run : Logged Event Packet) : Prop :=
  (∀ event ∈ run.log, event.Fits) ∧
    ((∃ what, run.result = .error (.exception what)) ∨
      ∃ packet, run.result = .ok packet ∧ MadeFrom codec frame packet (handed run.log))

/-! ### What the frame says -/

/-- The length of the parameters. -/
def parametersLength (frame : ByteString) : ℕ := bigEndian ((frame.drop 8).take 8)

/-- What is in the parameter buffer after the read, in memory that held other bytes before. -/
def parameterMemory (frame memory : ByteString) : ByteString :=
  let n := min (parametersLength frame) (frame.length - 24)
  (frame.drop 24).take n ++ memory.drop n

/-- The buffer sections from an offset on are inside the frame, and there is memory for each. -/
inductive BuffersFit (factory : BufferFactory) (frame : ByteString) : ℕ → Prop
  | done {offset : ℕ} : frame.length ≤ offset → BuffersFit factory frame offset
  | next {offset bufferSize : ℕ} {buffer : Buffer} : offset + 8 ≤ frame.length →
      bufferSize = bigEndian ((frame.drop offset).take 8) →
      factory.Create bufferSize = .ok buffer → offset + 8 + bufferSize ≤ frame.length →
      BuffersFit factory frame (offset + 8 + bufferSize) → BuffersFit factory frame offset

/-- The frames for which `readPacket` does what is asked: there is no length of the parameters, or
it does not wrap around, and if there is memory for them, decoding them throws, or the buffers do
not fit, or what is decoded ends with the section, although it begins eight bytes too far. -/
def StaysWhen (codec : Msgpack) (factory : BufferFactory) (frame : ByteString) : Prop :=
  16 ≤ frame.length → 8 + parametersLength frame < 2 ^ 64 ∧
    ∀ buffer, factory.Create (parametersLength frame + 1) = .ok buffer →
      let memory := parameterMemory frame buffer.memory
      match fromPointer codec memory with
      | .error fault => ∃ what, fault = .exception what
      | .ok _ => BuffersFit factory frame (8 + parametersLength frame) →
        16 + parametersLength frame ≤ frame.length ∧
          ∀ i < (memory.takeWhile (· ≠ 0)).length, i + 8 < parametersLength frame

section

variable {codec : Msgpack} {factory : BufferFactory} {stream : MemoryStream}

/-- An iteration for which there is memory throws, or hands on the bytes of a buffer. -/
theorem loggedBuffers_created (h : stream.Valid) (hsize : stream.contents.length ≤ ptrdiffMax)
    (fuel : ℕ) {offset bufferSize : ℕ} (hlength : offset + 8 ≤ stream.contents.length)
    (hbufferSize : bigEndian ((stream.contents.drop offset).take 8) = bufferSize) {buffer : Buffer}
    (hcreate : factory.Create bufferSize = .ok buffer) :
    (stream.contents.length < offset + 8 + bufferSize ∧
      ∃ what, loggedBuffers factory stream (fuel + 1) offset =
        ⟨[.added offset 8], .error (.exception what)⟩) ∨
    offset + 8 + bufferSize ≤ stream.contents.length ∧
      ∃ filled : Buffer, filled.contents = (stream.contents.drop (offset + 8)).take bufferSize ∧
      loggedBuffers factory stream (fuel + 1) offset =
        ⟨.added offset 8 ::
          .handed ⟨offset + 8, bufferSize, offset + 8, bufferSize, filled.contents⟩ ::
          .added (offset + 8) bufferSize ::
          (loggedBuffers factory stream fuel (offset + 8 + bufferSize)).log,
        (loggedBuffers factory stream fuel
          (offset + 8 + bufferSize)).result.map (filled :: ·)⟩ := by
  have hmSize := h.mSize
  have hmax : ptrdiffMax < 2 ^ 63 := by decide
  have hend : ¬ stream.mSize ≤ offset := by omega
  have hadded : sizeAdd offset 8 = offset + 8 := Nat.mod_eq_of_lt (by omega)
  have hread := readBigEndian_spec h (by omega) hlength
  rw [hbufferSize] at hread
  have hallocated := factory.create_allocated hcreate
  have hcreated : buffer.length = bufferSize := factory.create_length hcreate
  have hmemory : buffer.memory.length = bufferSize := hallocated.length_memory.trans hcreated
  have hsmall : bufferSize ≤ ptrdiffMax := hcreated ▸ hallocated.length_le
  have hcopied := @MemoryStream.read_eq stream h (offset + 8) bufferSize bufferSize _ (by omega)
    (by omega) (by omega) (.inr (by omega)) buffer.memory (Nat.le_of_eq hmemory.symm) rfl
  rcases Nat.lt_or_ge stream.contents.length (offset + 8 + bufferSize) with houtside | hinside
  · have hshort : min bufferSize (min bufferSize (stream.mSize - (offset + 8))) ≠ bufferSize := by
      omega
    exact .inl ⟨houtside, _, by
      rw [loggedBuffers, if_neg hend, hread, Logged.run_ok_bind, add_bind, hcreate,
        Logged.run_ok_bind, hadded, hcopied, Logged.run_ok_bind]
      dsimp only
      rw [if_pos hshort]
      rfl⟩
  · have hall : min bufferSize (min bufferSize (stream.mSize - (offset + 8))) = bufferSize := by
      omega
    have hbytes : ((stream.contents.drop (offset + 8)).take bufferSize).length = bufferSize := by
      rw [List.length_take, List.length_drop]
      omega
    rw [hall] at hcopied
    refine .inr ⟨hinside, { buffer with data := some ((stream.contents.drop (offset + 8)).take
      bufferSize ++ buffer.memory.drop bufferSize) }, ?_, ?_⟩
    · rw [Buffer.contents, hcreated]
      exact List.take_left' hbytes
    · rw [loggedBuffers, if_neg hend, hread, Logged.run_ok_bind, add_bind, hcreate,
        Logged.run_ok_bind, hadded, hcopied, Logged.run_ok_bind]
      dsimp only
      rw [if_neg (not_not.2 rfl), Logged.tell_bind, add_bind, Logged.bind_pure, sizeAdd,
        Nat.mod_eq_of_lt (by omega : offset + 8 + bufferSize < 2 ^ 64)]

/-- An iteration throws, or hands on the bytes of a buffer. -/
theorem loggedBuffers_succ (h : stream.Valid) (hsize : stream.contents.length ≤ ptrdiffMax)
    (fuel : ℕ) {offset : ℕ} (hmore : offset < stream.contents.length) :
    (∃ log what, loggedBuffers factory stream (fuel + 1) offset =
        ⟨log, .error (.exception what)⟩ ∧ (∀ event ∈ log, event.Fits) ∧
      ¬ BuffersFit factory stream.contents offset) ∨
    ∃ (bufferSize : ℕ) (buffer : Buffer), offset + 8 + bufferSize ≤ stream.contents.length ∧
      (BuffersFit factory stream.contents offset ↔
        BuffersFit factory stream.contents (offset + 8 + bufferSize)) ∧
      buffer.contents = (stream.contents.drop (offset + 8)).take bufferSize ∧
      loggedBuffers factory stream (fuel + 1) offset =
        ⟨.added offset 8 ::
          .handed ⟨offset + 8, bufferSize, offset + 8, bufferSize, buffer.contents⟩ ::
          .added (offset + 8) bufferSize ::
          (loggedBuffers factory stream fuel (offset + 8 + bufferSize)).log,
        (loggedBuffers factory stream fuel
          (offset + 8 + bufferSize)).result.map (buffer :: ·)⟩ := by
  have hmSize := h.mSize
  have hmax : ptrdiffMax < 2 ^ 63 := by decide
  have hend : ¬ stream.mSize ≤ offset := by omega
  have hfits : ∀ event ∈ [Event.added offset 8], event.Fits :=
    List.forall_mem_singleton.2 (by rw [Event.Fits]; omega)
  rcases Nat.lt_or_ge stream.contents.length (offset + 8) with hshort | hlength
  · -- there is no whole length
    obtain ⟨what, hread⟩ := @readBigEndian_short stream offset (by omega) (by omega)
    refine .inl ⟨[], what, ?_, nofun, ?_⟩
    · rw [loggedBuffers, if_neg hend, hread, Logged.run_error_bind]
      rfl
    · rintro (hdone | ⟨hlength, -⟩) <;> omega
  generalize hbufferSize : bigEndian ((stream.contents.drop offset).take 8) = bufferSize
  cases hcreate : factory.Create bufferSize with
  | error fault =>
    obtain ⟨what, rfl⟩ := factory.create_error hcreate
    refine .inl ⟨[.added offset 8], what, ?_, hfits, ?_⟩
    · rw [loggedBuffers, if_neg hend, readBigEndian_spec h (by omega) hlength, hbufferSize,
        Logged.run_ok_bind, add_bind, hcreate, Logged.run_error_bind]
      rfl
    · rintro (hdone | ⟨-, rfl, hcreated, -⟩)
      · omega
      · rw [hbufferSize, hcreate] at hcreated
        cases hcreated
  | ok buffer =>
    rcases loggedBuffers_created h hsize fuel hlength hbufferSize hcreate with
      ⟨houtside, what, hrun⟩ | ⟨hinside, filled, hcontents, hrun⟩
    · refine .inl ⟨_, what, hrun, hfits, ?_⟩
      rintro (hdone | ⟨-, rfl, -, hinside, -⟩) <;> omega
    · refine .inr ⟨bufferSize, filled, hinside, ?_, hcontents, hrun⟩
      constructor
      · rintro (hdone | ⟨-, rfl, -, -, hrest⟩)
        · omega
        · exact hbufferSize ▸ hrest
      · exact fun hrest => .next (by omega) hbufferSize.symm hcreate hinside hrest

/-- One more buffer in front. -/
theorem BufferSections.cons {frame : ByteString} {offset bufferSize : ℕ} {buffers : List Buffer}
    {sections : List Handed}
    (h : BufferSections frame (offset + bufferSize + 8) buffers sections)
    (hinside : offset + bufferSize ≤ frame.length) {buffer : Buffer}
    (hcontents : buffer.contents = (frame.drop offset).take bufferSize) :
    BufferSections frame offset (buffer :: buffers)
      (⟨offset, bufferSize, offset, bufferSize, buffer.contents⟩ :: sections) where
  given := congrArg (buffer.contents :: ·) h.given
  fromSection := by
    have hlength : buffer.contents.length = bufferSize := by
      rw [hcontents, List.length_take, List.length_drop]
      omega
    refine List.forall_mem_cons.2 ⟨⟨hinside, fun i hi => ?_, ?_⟩, h.fromSection⟩
    · exact ⟨hlength ▸ hi, Nat.le_add_right _ _, by dsimp only at hi ⊢; omega⟩
    · exact hlength.symm ▸ hcontents
  ordered := List.pairwise_cons.2 ⟨fun c hc => by have := h.behind c hc; dsimp only; omega,
    h.ordered⟩
  behind := List.forall_mem_cons.2 ⟨Nat.le_refl _, fun c hc => by
    have := h.behind c hc
    omega⟩

/-- **The loop over the buffers ends**, no sum in it wraps around, and it returns the buffers if
their sections fit, and throws otherwise. -/
theorem loggedBuffers_spec (h : stream.Valid) (hsize : stream.contents.length ≤ ptrdiffMax)
    {fuel offset : ℕ} (hfuel : stream.contents.length - offset < fuel) :
    (∀ event ∈ (loggedBuffers factory stream fuel offset).log, event.Fits) ∧
      ((BuffersFit factory stream.contents offset ∧ ∃ buffers,
          (loggedBuffers factory stream fuel offset).result = .ok buffers ∧
          BufferSections stream.contents (offset + 8) buffers
            (handed (loggedBuffers factory stream fuel offset).log)) ∨
        (¬ BuffersFit factory stream.contents offset ∧
          ∃ what, (loggedBuffers factory stream fuel offset).result =
            .error (.exception what))) := by
  have hmax : ptrdiffMax < 2 ^ 63 := by decide
  induction fuel generalizing offset with
  | zero => omega
  | succ fuel ih =>
    rcases Nat.lt_or_ge offset stream.contents.length with hmore | hend
    · rcases loggedBuffers_succ h hsize fuel hmore with
        ⟨log, what, hrun, hfits, hnot⟩ | ⟨bufferSize, buffer, hinside, hiff, hcontents, hrun⟩
      · rw [hrun]
        exact ⟨hfits, .inr ⟨hnot, what, rfl⟩⟩
      · have hlater : stream.contents.length - (offset + 8 + bufferSize) < fuel := by omega
        obtain ⟨hfits, hrest⟩ := ih hlater
        rw [hrun, hiff]
        constructor
        · simp only [List.forall_mem_cons, Event.Fits, true_and]
          exact ⟨by omega, by omega, hfits⟩
        · rcases hrest with ⟨hfit, buffers, hresult, hsections⟩ | ⟨hnot, what, hresult⟩
          · exact .inl ⟨hfit, buffer :: buffers, by rw [hresult]; rfl,
              hsections.cons hinside hcontents⟩
          · exact .inr ⟨hnot, what, by rw [hresult]; rfl⟩
    · have hrun : loggedBuffers factory stream (fuel + 1) offset = pure [] := by
        rw [loggedBuffers, if_pos (h.mSize ▸ hend)]
      rw [hrun]
      exact ⟨nofun, .inl ⟨.done hend, [], rfl, ⟨rfl, nofun, .nil, nofun⟩⟩⟩

/-- The length of the parameters is added to the offset first. -/
theorem added_mem_log (h : stream.Valid) (hsize : stream.contents.length ≤ ptrdiffMax)
    (hlong : 16 ≤ stream.contents.length) :
    .added 8 (parametersLength stream.contents) ∈ (loggedPacket codec factory stream).log := by
  have hmax : ptrdiffMax < 2 ^ 63 := by decide
  rw [loggedPacket, readBigEndian_spec h (by omega) hlong, Logged.run_ok_bind, add_bind,
    parametersLength]
  exact List.mem_cons_self

/-- If that does not wrap around, the bytes that are in the parameter buffer after the read are
given to the decoder. -/
theorem loggedPacket_eq (h : stream.Valid) (hsize : stream.contents.length ≤ ptrdiffMax)
    (hlong : 16 ≤ stream.contents.length) {frame : ByteString} (hframe : stream.contents = frame)
    (hfits : 8 + parametersLength frame < 2 ^ 64) :
    loggedPacket codec factory stream =
      match factory.Create (parametersLength frame + 1) with
      | .error fault =>
        ⟨[.added 8 (parametersLength frame), .added (parametersLength frame) 1], .error fault⟩
      | .ok parameterBuffer =>
        let memory := parameterMemory frame parameterBuffer.memory
        let rest : Logged Event Packet := do
          let parameters ← .run (fromPointer codec memory)
          let buffers ← loggedBuffers factory stream (stream.mSize + 1)
            (8 + parametersLength frame)
          return { parameters, buffers }
        ⟨.added 8 (parametersLength frame) :: .added (parametersLength frame) 1 ::
          .handed ⟨16, parametersLength frame, 24, min (parametersLength frame) (frame.length - 24),
            memory.takeWhile (· ≠ 0)⟩ :: rest.log, rest.result⟩ := by
  subst hframe
  have hmax : ptrdiffMax < 2 ^ 63 := by decide
  obtain ⟨parameterStream, hsubStream, hvalid, hcontents⟩ := MemoryStream.subStream_spec h 8 none
  rw [MemoryStream.clampEnd_none h, ← List.length_drop, List.take_length] at hcontents
  have hparameters := hvalid.mSize
  rw [hcontents, List.length_drop] at hparameters
  rw [loggedPacket, readBigEndian_spec h (by omega) hlong, Logged.run_ok_bind, add_bind, hsubStream,
    Logged.run_ok_bind, ← parametersLength]
  generalize hlength : parametersLength stream.contents = length at hfits
  have hoffset : sizeAdd 8 length = 8 + length := Nat.mod_eq_of_lt hfits
  have hsum : sizeAdd length 1 = length + 1 := Nat.mod_eq_of_lt (by omega)
  dsimp only
  rw [add_bind, hoffset, hsum]
  cases hcreate : factory.Create (length + 1) with
  | error fault => rfl
  | ok buffer =>
    have hallocated := factory.create_allocated hcreate
    have hbuffer : buffer.length = length + 1 := factory.create_length hcreate
    have hsmall := hallocated.length_le
    have hread := @MemoryStream.read_eq parameterStream hvalid 16 length buffer.length _ (by omega)
      (by omega) (by omega) (.inr (by omega)) buffer.memory
      (Nat.le_of_eq hallocated.length_memory.symm) rfl
    have hn : min length (min buffer.length (parameterStream.mSize - 16)) =
        min length (stream.contents.length - 24) := by omega
    rw [hn, hcontents, List.drop_drop, ← hlength, ← parameterMemory, hlength] at hread
    rw [Logged.run_ok_bind, hread, Logged.run_ok_bind, Logged.tell_bind]

/-- What is decoded comes from where it was read, as far as bytes were copied. -/
theorem takeWhile_parameterMemory {frame memory : ByteString}
    (hinside : 16 + parametersLength frame ≤ frame.length)
    (hends : ∀ i < ((parameterMemory frame memory).takeWhile (· ≠ 0)).length,
      i + 8 < parametersLength frame) :
    (⟨16, parametersLength frame, 24, min (parametersLength frame) (frame.length - 24),
      (parameterMemory frame memory).takeWhile (· ≠ 0)⟩ : Handed).FromSection frame := by
  have hprefix := List.takeWhile_prefix (p := fun byte : UInt8 => decide (byte ≠ 0))
    (l := parameterMemory frame memory)
  generalize (parameterMemory frame memory).takeWhile (· ≠ 0) = text at hends hprefix ⊢
  have hlength : text.length = 0 ∨ text.length + 7 < parametersLength frame := by
    rcases Nat.eq_zero_or_pos text.length with hzero | hpos
    · exact .inl hzero
    · have := hends (text.length - 1) (by omega)
      exact .inr (by omega)
  refine ⟨hinside, fun i hi => ?_, ?_⟩
  · dsimp only at hi ⊢
    omega
  · dsimp only
    conv_lhs => rw [List.prefix_iff_eq_take.1 hprefix]
    rw [parameterMemory, List.take_append_of_le_length, List.take_take, Nat.min_eq_left]
    · omega
    · rw [List.length_take, List.length_drop]
      omega

theorem fromPointer_eq_ok {memory : List UInt8} {parameters : Json} :
    fromPointer codec memory = .ok parameters ↔
      0 ∈ memory ∧ codec.from_msgpack (memory.takeWhile (· ≠ 0)) = .ok parameters := by
  rw [fromPointer]
  split_ifs with hnull
  · exact (and_iff_right hnull).symm
  · exact iff_of_false nofun fun h => hnull h.1

/-- Once the parameters are decoded, the sections decide. -/
theorem staysInside_decoded (h : stream.Valid) (hsize : stream.contents.length ≤ ptrdiffMax)
    (hlong : 16 ≤ stream.contents.length) {frame : ByteString} (hframe : stream.contents = frame)
    (hfits : 8 + parametersLength frame < 2 ^ 64) {buffer : Buffer} {parameters : Json}
    (hcreate : factory.Create (parametersLength frame + 1) = .ok buffer)
    (hdecoded : fromPointer codec (parameterMemory frame buffer.memory) = .ok parameters) :
    StaysInside codec frame (loggedPacket codec factory stream) ↔
      (BuffersFit factory frame (8 + parametersLength frame) →
        16 + parametersLength frame ≤ frame.length ∧
        ∀ i < ((parameterMemory frame buffer.memory).takeWhile (· ≠ 0)).length,
          i + 8 < parametersLength frame) := by
  obtain ⟨hadded, hrest⟩ := @loggedBuffers_spec factory stream h hsize (stream.mSize + 1)
    (8 + parametersLength frame) (by have := h.mSize; omega)
  rw [loggedPacket_eq h hsize hlong hframe hfits, hcreate]
  subst hframe
  simp only [hdecoded, Logged.run_ok_bind, Logged.bind_pure]
  have hsums : ∀ event ∈ (.added 8 (parametersLength stream.contents) ::
      .added (parametersLength stream.contents) 1 :: .handed ⟨16, parametersLength stream.contents,
        24, min (parametersLength stream.contents) (stream.contents.length - 24),
        (parameterMemory stream.contents buffer.memory).takeWhile (· ≠ 0)⟩ ::
      (loggedBuffers factory stream (stream.mSize + 1)
        (8 + parametersLength stream.contents)).log : List Event), event.Fits := by
    simp only [List.forall_mem_cons, Event.Fits, true_and]
    exact ⟨hfits, by omega, hadded⟩
  rcases hrest with ⟨hfit, buffers, hresult, hsections⟩ | ⟨hnot, what, hresult⟩
  · rw [hresult]
    constructor
    · rintro ⟨-, ⟨what, hthrown⟩ | ⟨packet, -, _, _, hsplit, -, hfrom, -⟩⟩ -
      · cases hthrown
      · obtain ⟨rfl, -⟩ := List.cons.inj hsplit
        refine ⟨hfrom.inside, fun i hi => ?_⟩
        have hi := (hfrom.copied i hi).2.2
        dsimp only at hi
        omega
    · intro hinside
      obtain ⟨hinside, hends⟩ := hinside hfit
      refine ⟨hsums, .inr ⟨_, rfl, _, _, rfl, (fromPointer_eq_ok.1 hdecoded).2,
        takeWhile_parameterMemory hinside hends, ?_⟩⟩
      have hstart : 8 + parametersLength stream.contents + 8 =
        16 + parametersLength stream.contents := by omega
      rw [hstart] at hsections
      exact hsections
  · rw [hresult]
    exact iff_of_true ⟨hsums, .inl ⟨what, rfl⟩⟩ fun hfit => absurd hfit hnot

/-- **The sections which a reader uses are in the frame, in order, and all it hands on comes from
them**, exactly for these frames. -/
theorem staysInside_iff {frame : ByteString} (h : MemoryStream.Built stream frame)
    (hsize : frame.length ≤ ptrdiffMax) :
    (loggedPacket codec factory stream).result = readPacket codec factory stream ∧
      (StaysInside codec frame (loggedPacket codec factory stream) ↔
        StaysWhen codec factory frame) := by
  refine ⟨loggedPacket_result codec factory stream, ?_⟩
  obtain ⟨hvalid, rfl⟩ := h.valid
  have hmSize := hvalid.mSize
  rcases Nat.lt_or_ge stream.contents.length 16 with hshort | hlong
  · obtain ⟨what, hread⟩ := @readBigEndian_short stream 8 (by decide) (by omega)
    have hrun : loggedPacket codec factory stream = .run (.error (.exception what)) := by
      rw [loggedPacket, hread, Logged.run_error_bind]
    rw [hrun]
    exact iff_of_true ⟨nofun, .inl ⟨what, rfl⟩⟩ fun hlong => absurd hlong (Nat.not_le.2 hshort)
  rw [StaysWhen, forall_prop_of_true hlong]
  rcases Nat.lt_or_ge (8 + parametersLength stream.contents) (2 ^ 64) with hfits | hwraps
  swap
  · exact iff_of_false (fun hinside => Nat.not_lt.2 hwraps
      (hinside.1 _ (added_mem_log hvalid hsize hlong))) fun hwhen => Nat.not_lt.2 hwraps hwhen.1
  rw [and_iff_right hfits]
  have hsums : ∀ copied, ∀ event ∈ [Event.added 8 (parametersLength stream.contents),
      .added (parametersLength stream.contents) 1, .handed copied], event.Fits := by
    simp only [List.forall_mem_cons, Event.Fits, true_and]
    exact fun _ => ⟨hfits, by omega, nofun⟩
  cases hcreate : factory.Create (parametersLength stream.contents + 1) with
  | error fault =>
    obtain ⟨what, rfl⟩ := factory.create_error hcreate
    rw [loggedPacket_eq hvalid hsize hlong rfl hfits, hcreate]
    refine iff_of_true ⟨fun event hevent => hsums ⟨0, 0, 0, 0, []⟩ event ?_, .inl ⟨what, rfl⟩⟩ nofun
    exact List.mem_of_mem_take (i := 2) hevent
  | ok buffer =>
    have hbuffer : ∀ P : Buffer → Prop, (∀ buffer', .ok buffer = (.ok buffer' : Code Buffer) →
        P buffer') ↔ P buffer :=
      fun P => ⟨fun hP => hP buffer rfl, fun hP buffer' h => Except.ok.inj h ▸ hP⟩
    rw [hbuffer]
    dsimp only
    cases hdecoded : fromPointer codec (parameterMemory stream.contents buffer.memory) with
    | ok parameters => exact staysInside_decoded hvalid hsize hlong rfl hfits hcreate hdecoded
    | error fault =>
      rw [loggedPacket_eq hvalid hsize hlong rfl hfits, hcreate]
      simp only [hdecoded, Logged.run_error_bind]
      constructor
      · rintro ⟨-, ⟨what, hresult⟩ | ⟨packet, hresult, -⟩⟩
        · exact ⟨what, Except.error.inj hresult⟩
        · cases hresult
      · rintro ⟨what, rfl⟩
        exact ⟨hsums _, .inl ⟨what, rfl⟩⟩

end

/-- A codec that knows `null` only. -/
def nullCodec : Msgpack where
  to_msgpack _ := [0xC0]
  from_msgpack text := if text = [0xC0] then .ok .null else throwRuntimeError "parse error"

/-- Eight bytes of parameters, and a buffer of nine bytes, the first of which is a `null`. -/
def misread : ByteString :=
  [0, 0, 0, 0, 0, 0, 0, 0, 0, 0, 0, 0, 0, 0, 0, 8, 0, 0, 0, 0, 0, 0, 0, 9] ++
    [0xC0, 0, 0, 0, 0, 0, 0, 0, 0]

theorem built_misread : MemoryStream.Built ⟨[.ofBytes misread], 33⟩ misread :=
  .append .empty (by decide : (Buffer.ofBytes misread).Valid) (by decide) rfl

theorem staysInside_iff_misread :
    (loggedPacket nullCodec .zeros ⟨[.ofBytes misread], 33⟩).result =
        readPacket nullCodec .zeros ⟨[.ofBytes misread], 33⟩ ∧
      (StaysInside nullCodec misread (loggedPacket nullCodec .zeros ⟨[.ofBytes misread], 33⟩) ↔
        StaysWhen nullCodec .zeros misread) :=
  staysInside_iff built_misread (by decide)

/-- The first byte of the buffer is decoded. -/
theorem not_staysInside :
    ¬ ∀ (codec : Msgpack) (factory : BufferFactory) (stream : MemoryStream) (frame : ByteString),
      MemoryStream.Built stream frame → frame.length ≤ ptrdiffMax →
        StaysInside codec frame (loggedPacket codec factory stream) := by
  intro h
  obtain ⟨-, ⟨what, hthrown⟩ | ⟨packet, -, parameters, buffers, hsplit, -, hfrom, -⟩⟩ :=
    h nullCodec .zeros _ misread built_misread (by decide)
  · cases hthrown
  · have hhanded : handed (loggedPacket nullCodec .zeros ⟨[.ofBytes misread], 33⟩).log =
        [⟨16, 8, 24, 8, [0xC0]⟩, ⟨24, 9, 24, 9, [0xC0, 0, 0, 0, 0, 0, 0, 0, 0]⟩] := rfl
    obtain ⟨rfl, -⟩ := List.cons.inj (hhanded.symm.trans hsplit)
    exact absurd (hfrom.copied 0 (by decide)).2.2 (by decide)

end PacketReader

end Maplang
