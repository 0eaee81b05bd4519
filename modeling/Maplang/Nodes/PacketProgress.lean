import Maplang.Nodes.PacketReading

/-!
# When a packet reader comes to an end

The loop of `handlePacket` ends when fewer than eight bytes are pending.  It takes a frame off the
pending bytes if that is all there and can be read.  Otherwise it changes nothing, and goes on.

## Main definitions

* `PacketReader.ReadsFrame` : a frame that can be read.
* `PacketReader.Frames` : bytes that are frames, and fewer than eight bytes.
* `PacketReader.Terminating` : the packets are handled one after the other, and each call ends.
* `PacketReader.Delivered` : after each packet, the bytes are frames and fewer than eight bytes.

## Main results

* `PacketReader.readPackets_frames`, `PacketReader.frames_of_readPackets` : the loop ends exactly
  if the pending bytes are frames, and fewer than eight bytes.
* `PacketReader.terminating_iff` : a whole run.
-/

namespace Maplang

namespace PacketReader

open MemoryStream (bigEndian readBigEndian_spec)

/-- A frame that can be read. -/
def ReadsFrame (codec : Msgpack) (factory : BufferFactory) (frame : ByteString) : Prop :=
  16 ≤ frame.length ∧ 8 + parametersLength frame < 2 ^ 64 ∧
    ∃ buffer parameters, factory.Create (parametersLength frame + 1) = .ok buffer ∧
      fromPointer codec (parameterMemory frame buffer.memory) = .ok parameters ∧
      BuffersFit factory frame (8 + parametersLength frame)

/-- The length of the first frame, with its length field. -/
def frameLength (bs : ByteString) : ℕ := sizeAdd 8 (bigEndian (bs.take 8))

/-- So many frames, and fewer than eight bytes. -/
inductive Frames (codec : Msgpack) (factory : BufferFactory) :
    ByteString → ℕ → ByteString → Prop
  | pending {bs : ByteString} : bs.length < 8 → Frames codec factory bs 0 bs
  | frame {bs rest : ByteString} {count : ℕ} : 8 ≤ bs.length → frameLength bs ≤ bs.length →
      ReadsFrame codec factory ((bs.take (8 + frameLength bs)).drop 8) →
      Frames codec factory (bs.drop (frameLength bs)) count rest →
      Frames codec factory bs (count + 1) rest

section

variable {codec : Msgpack} {factory : BufferFactory} {stream : MemoryStream}

/-- When the length of the parameters wraps around, there is no such buffer, or an empty one. -/
theorem readPacket_wraps (h : stream.Valid) (hsize : stream.contents.length ≤ ptrdiffMax)
    (hlong : 16 ≤ stream.contents.length) (hwraps : 2 ^ 64 ≤ 8 + parametersLength stream.contents)
    (packet : Packet) : readPacket codec factory stream ≠ .ok packet := by
  have hmax : ptrdiffMax = 2 ^ 63 - 1 := rfl
  have hlt : parametersLength stream.contents < 2 ^ 64 := MemoryStream.bigEndian_lt _
  obtain ⟨parameterStream, hsubStream, hvalid, hcontents⟩ := MemoryStream.subStream_spec h 8 none
  have hparameters : parameterStream.mSize ≤ stream.contents.length := by
    rw [hvalid.mSize, hcontents, List.length_take, List.length_drop]
    omega
  intro hread
  rw [readPacket, readBigEndian_spec h (by omega) hlong, ← parametersLength, hsubStream] at hread
  obtain ⟨length, hlength, hread⟩ := bind_eq_ok.1 hread
  obtain rfl := Except.ok.inj hlength
  obtain ⟨stream', hstream', hread⟩ := bind_eq_ok.1 hread
  obtain rfl := Except.ok.inj hstream'
  obtain ⟨buffer, hcreate, hread⟩ := bind_eq_ok.1 hread
  obtain ⟨⟨bytesRead, memory⟩, hcopied, hread⟩ := bind_eq_ok.1 hread
  obtain ⟨parameters, hdecoded, -⟩ := bind_eq_ok.1 hread
  have hallocated := factory.create_allocated hcreate
  have hlength : buffer.length = (parametersLength stream.contents + 1) % 2 ^ 64 :=
    factory.create_length hcreate
  have hsmall := hallocated.length_le
  have hmemory : buffer.memory = [] := by
    rw [← List.length_eq_zero_iff, hallocated.length_memory]
    omega
  -- nothing is copied, and there is no null
  have hnothing := @MemoryStream.read_eq parameterStream hvalid 16
    (parametersLength stream.contents) buffer.length 0 (by decide) (by omega) hlt
    (.inr (by omega)) buffer.memory (Nat.le_of_eq hallocated.length_memory.symm) (by omega)
  rw [hmemory] at hnothing hcopied
  obtain ⟨-, rfl⟩ := ok_pair_unique hcopied hnothing
  cases hdecoded

/-- **The frames that can be read are the ones for which `readPacket` returns.** -/
theorem readPacket_ok_iff (h : stream.Valid) (hsize : stream.contents.length ≤ ptrdiffMax) :
    (∃ packet, readPacket codec factory stream = .ok packet) ↔
      ReadsFrame codec factory stream.contents := by
  have hmax : ptrdiffMax = 2 ^ 63 - 1 := rfl
  have hmSize := h.mSize
  rcases Nat.lt_or_ge stream.contents.length 16 with hshort | hlong
  · obtain ⟨what, hread⟩ := @MemoryStream.readBigEndian_short stream 8 (by decide) (by omega)
    refine iff_of_false ?_ fun hreads => absurd hreads.1 (Nat.not_le.2 hshort)
    rintro ⟨packet, hpacket⟩
    rw [readPacket, hread] at hpacket
    cases hpacket
  rcases Nat.lt_or_ge (8 + parametersLength stream.contents) (2 ^ 64) with hfits | hwraps
  swap
  · exact iff_of_false
      (fun ⟨packet, hpacket⟩ => readPacket_wraps h hsize hlong hwraps packet hpacket)
      fun hreads => absurd hreads.2.1 (Nat.not_lt.2 hwraps)
  obtain ⟨-, hbuffers⟩ := @loggedBuffers_spec factory stream h hsize (stream.mSize + 1)
    (8 + parametersLength stream.contents) (by omega)
  rw [← loggedPacket_result, loggedPacket_eq h hsize hlong rfl hfits]
  constructor
  · rintro ⟨packet, hpacket⟩
    cases hcreate : factory.Create (parametersLength stream.contents + 1) with
    | error fault =>
      rw [hcreate] at hpacket
      cases hpacket
    | ok buffer =>
      rw [hcreate] at hpacket
      simp only [Logged.result_bind, Logged.result_run] at hpacket
      obtain ⟨parameters, hdecoded, hpacket⟩ := bind_eq_ok.1 hpacket
      obtain ⟨buffers, hresult, -⟩ := bind_eq_ok.1 hpacket
      rcases hbuffers with ⟨hfit, -⟩ | ⟨-, what, hthrown⟩
      · exact ⟨hlong, hfits, buffer, parameters, hcreate, hdecoded, hfit⟩
      · cases hresult.symm.trans hthrown
  · rintro ⟨-, -, buffer, parameters, hcreate, hdecoded, hfit⟩
    rcases hbuffers with ⟨-, buffers, hresult, -⟩ | ⟨hnot, -⟩
    · refine ⟨{ parameters, buffers }, ?_⟩
      rw [hcreate]
      simp only [Logged.result_bind, Logged.result_run, hdecoded]
      rw [Except.bind, hresult]
      rfl
    · exact absurd hfit hnot

/-! ### One round -/

/-- `mLength` when the first frame has been looked at. -/
def nextLength (x : PacketReader) : ℕ :=
  if x.mLength = 0 then frameLength x.mPendingBytes.contents else x.mLength

variable {x : PacketReader}

theorem readLength (h : x.mPendingBytes.Valid)
    (hwide : x.mPendingBytes.contents.length + 8 < 2 ^ 64)
    (hmore : 8 ≤ x.mPendingBytes.contents.length) {α : Type} (f : ℕ → Code α) :
    (if x.mLength = 0 then (sizeAdd 8 ·) <$> x.mPendingBytes.readBigEndian 0 >>= f
      else pure x.mLength >>= f) = f (nextLength x) := by
  rw [nextLength]
  split_ifs with hzero
  · rw [@readBigEndian_spec _ h (by omega) 0 (by omega), List.drop_zero]
    rfl
  · rfl

/-- Nothing happens while the frame is not all there, ... -/
theorem readPackets_incomplete (h : x.mPendingBytes.Valid)
    (hwide : x.mPendingBytes.contents.length + 8 < 2 ^ 64)
    (hmore : 8 ≤ x.mPendingBytes.contents.length)
    (hincomplete : x.mPendingBytes.contents.length < nextLength x) (fuel : ℕ) :
    readPackets codec factory (fuel + 1) x =
      readPackets codec factory fuel { x with mLength := nextLength x } := by
  have hmSize := h.mSize
  rw [readPackets, if_neg (by omega), if_neg (by omega)]
  exact (readLength h hwide hmore _).trans (if_pos (by omega))

/-- ... and when it is, it is taken off the pending bytes if it can be read. -/
theorem readPackets_complete (h : x.mPendingBytes.Valid)
    (hwide : x.mPendingBytes.contents.length + 8 < 2 ^ 64)
    (hmore : 8 ≤ x.mPendingBytes.contents.length)
    (hcomplete : nextLength x ≤ x.mPendingBytes.contents.length) :
    ∃ frame rest : MemoryStream, frame.Valid ∧ rest.Valid ∧
      frame.contents = (x.mPendingBytes.contents.take (8 + nextLength x)).drop 8 ∧
      rest.contents = x.mPendingBytes.contents.drop (nextLength x) ∧
      ∀ fuel, readPackets codec factory (fuel + 1) x =
        match readPacket codec factory frame with
        | .ok packet => do
          let (pushes, x') ← readPackets codec factory fuel { mPendingBytes := rest }
          return (⟨packet, "Packet Ready"⟩ :: pushes, x')
        | .error (.exception what) => do
          let (pushes, x') ← readPackets codec factory fuel { x with mLength := nextLength x }
          return (⟨{ parameters := .object [(bytes "errorMessage", .string (bytes what))] },
            "error"⟩ :: pushes, x')
        | .error fault => .error fault := by
  have hmSize := h.mSize
  have hend : sizeAdd 8 (nextLength x) = 8 + nextLength x := Nat.mod_eq_of_lt (by omega)
  obtain ⟨frame, hframe, hvalid, hcontents⟩ :=
    MemoryStream.subStream_spec h 8 (some (8 + nextLength x))
  obtain ⟨rest, hrest, hvalid', hcontents'⟩ := MemoryStream.subStream_spec h (nextLength x) none
  rw [MemoryStream.take_clampEnd h, MemoryStream.between] at hcontents hcontents'
  rw [Option.getD_none, List.take_length] at hcontents'
  refine ⟨frame, rest, hvalid, hvalid', hcontents, hcontents', fun fuel => ?_⟩
  rw [readPackets, if_neg (by omega), if_neg (by omega)]
  refine (readLength h hwide hmore _).trans ((if_neg (by omega)).trans ?_)
  rw [hend, hframe]
  simp only [bind, Except.bind]
  cases readPacket codec factory frame with
  | ok packet =>
    dsimp only
    rw [hrest]
    rfl
  | error fault => cases fault <;> rfl

/-! ### The loop -/

theorem nextLength_nextLength (x : PacketReader) :
    nextLength { x with mLength := nextLength x } = nextLength x := by
  by_cases hzero : nextLength x = 0
  · -- then `mLength` was zero, too
    have hx : x.mLength = 0 := by
      by_contra hne
      rw [nextLength, if_neg hne] at hzero
      exact hne hzero
    rw [hzero, nextLength, if_pos rfl, ← hzero, nextLength, if_pos hx]
  · rw [nextLength, if_neg hzero]

/-- The first frame is not all there, or cannot be read. -/
def Stuck (codec : Msgpack) (factory : BufferFactory) (x : PacketReader) : Prop :=
  x.mPendingBytes.contents.length < nextLength x ∨
    ¬ ReadsFrame codec factory ((x.mPendingBytes.contents.take (8 + nextLength x)).drop 8)

/-- **There is no end when the first frame is not all there, or cannot be read.** -/
theorem readPackets_stuck (fuel : ℕ) {x : PacketReader} (h : x.mPendingBytes.Valid)
    (hsize : x.mPendingBytes.contents.length ≤ ptrdiffMax + 7)
    (hmore : 8 ≤ x.mPendingBytes.contents.length) (hstuck : Stuck codec factory x)
    (result : List Push × PacketReader) : readPackets codec factory fuel x ≠ .ok result := by
  have hmax : ptrdiffMax = 2 ^ 63 - 1 := rfl
  induction fuel generalizing x result with
  | zero => exact nofun
  | succ fuel ih =>
    have hagain : ∀ result,
        readPackets codec factory fuel { x with mLength := nextLength x } ≠ .ok result := by
      refine ih h hsize hmore ?_
      rw [Stuck, nextLength_nextLength]
      exact hstuck
    rcases Nat.lt_or_ge x.mPendingBytes.contents.length (nextLength x) with hincomplete | hcomplete
    · rw [readPackets_incomplete h (by omega) hmore hincomplete]
      exact hagain result
    · have hunread := hstuck.resolve_left (Nat.not_lt.2 hcomplete)
      obtain ⟨frame, rest, hframe, -, hcontents, -, hround⟩ :=
        @readPackets_complete codec factory x h (by omega) hmore hcomplete
      have hlength : frame.contents.length ≤ ptrdiffMax := by
        rw [hcontents, List.length_drop, List.length_take]
        omega
      rw [← hcontents, ← readPacket_ok_iff hframe hlength] at hunread
      intro hresult
      rw [hround fuel] at hresult
      cases hread : readPacket codec factory frame with
      | ok packet => exact hunread ⟨packet, hread⟩
      | error fault =>
        rw [hread] at hresult
        cases fault with
        | exception what =>
          obtain ⟨again, hok, -⟩ := bind_eq_ok.1 hresult
          exact hagain again hok
        | nontermination => cases hresult
        | undefinedBehaviour => cases hresult

variable {bs rest : ByteString} {count : ℕ}

theorem ReadsFrame.le_frameLength
    (h : ReadsFrame codec factory ((bs.take (8 + frameLength bs)).drop 8)) :
    16 ≤ frameLength bs := by
  have hlength := h.1
  rw [List.length_drop, List.length_take] at hlength
  omega

/-- There is a frame for every sixteen bytes at most. -/
theorem Frames.length_le (h : Frames codec factory bs count rest) :
    16 * count + rest.length ≤ bs.length ∧ rest.length < 8 := by
  induction h with
  | pending hfew => exact ⟨by omega, hfew⟩
  | @frame bs rest count _ _ hreads _ ih =>
    have hprogress := hreads.le_frameLength
    rw [List.length_drop] at ih
    omega

/-- **Frames are taken off one after the other**, and the loop ends. -/
theorem readPackets_frames (hframes : Frames codec factory bs count rest) {x : PacketReader}
    (hlength : x.mLength = 0) (h : x.mPendingBytes.Valid)
    (hcontents : x.mPendingBytes.contents = bs) (hsize : bs.length ≤ ptrdiffMax + 7) {fuel : ℕ}
    (hfuel : bs.length < fuel) :
    ∃ pushes x', readPackets codec factory fuel x = .ok (pushes, x') ∧ pushes.length = count ∧
      x'.mLength = 0 ∧ x'.mPendingBytes.Valid ∧ x'.mPendingBytes.contents = rest := by
  have hmax : ptrdiffMax = 2 ^ 63 - 1 := rfl
  induction hframes generalizing x fuel with
  | pending hfew =>
    obtain ⟨fuel, rfl⟩ := Nat.exists_eq_succ_of_ne_zero (Nat.ne_of_gt (Nat.zero_lt_of_lt hfuel))
    refine ⟨[], x, ?_, rfl, hlength, h, hcontents⟩
    rw [readPackets]
    split_ifs with hempty hpending
    · rfl
    · rfl
    · exact absurd ⟨hlength, by rw [h.mSize, hcontents]; exact hfew⟩ hpending
  | @frame bs rest count hmore hcomplete hreads _ ih =>
    obtain ⟨fuel, rfl⟩ := Nat.exists_eq_succ_of_ne_zero (Nat.ne_of_gt (Nat.zero_lt_of_lt hfuel))
    have hprogress := hreads.le_frameLength
    have hnext : nextLength x = frameLength bs := by rw [nextLength, if_pos hlength, hcontents]
    obtain ⟨frame, rest', hframe, hrest', hframeContents, hrestContents, hround⟩ :=
      @readPackets_complete codec factory x h (by rw [hcontents]; omega) (hcontents ▸ hmore)
        (by rw [hcontents, hnext]; exact hcomplete)
    rw [hcontents, hnext] at hframeContents hrestContents
    have hframeLength : frame.contents.length ≤ ptrdiffMax := by
      rw [hframeContents, List.length_drop, List.length_take]
      omega
    obtain ⟨packet, hread⟩ :=
      (readPacket_ok_iff hframe hframeLength).2 (hframeContents ▸ hreads)
    obtain ⟨pushes, x', hpushed, hcount, hx', hvalid', hcontents'⟩ :=
      @ih { mPendingBytes := rest' } rfl hrest' hrestContents
        (by rw [List.length_drop]; omega) fuel (by rw [List.length_drop]; omega)
    refine ⟨⟨packet, "Packet Ready"⟩ :: pushes, x', ?_, congrArg (· + 1) hcount, hx', hvalid',
      hcontents'⟩
    rw [hround, hread]
    simp only [bind, Except.bind, hpushed, pure, Except.pure]

/-- The loop only ends when the pending bytes are frames, and fewer than eight bytes. -/
theorem frames_of_readPackets {x : PacketReader} (hlength : x.mLength = 0)
    (h : x.mPendingBytes.Valid) (hsize : x.mPendingBytes.contents.length ≤ ptrdiffMax + 7)
    {fuel : ℕ} {result : List Push × PacketReader}
    (hresult : readPackets codec factory fuel x = .ok result) :
    ∃ count rest, Frames codec factory x.mPendingBytes.contents count rest := by
  have hmax : ptrdiffMax = 2 ^ 63 - 1 := rfl
  induction fuel generalizing x result with
  | zero => cases hresult
  | succ fuel ih =>
    rcases Nat.lt_or_ge x.mPendingBytes.contents.length 8 with hfew | hmore
    · exact ⟨0, _, .pending hfew⟩
    by_cases hstuck : Stuck codec factory x
    · exact absurd hresult (readPackets_stuck (fuel + 1) h hsize hmore hstuck result)
    rw [Stuck, not_or, not_not, Nat.not_lt] at hstuck
    obtain ⟨hcomplete, hreads⟩ := hstuck
    obtain ⟨frame, rest, hframe, hrest, hcontents, hcontents', hround⟩ :=
      @readPackets_complete codec factory x h (by omega) hmore hcomplete
    have hframeLength : frame.contents.length ≤ ptrdiffMax := by
      rw [hcontents, List.length_drop, List.length_take]
      omega
    obtain ⟨packet, hread⟩ := (readPacket_ok_iff hframe hframeLength).2 (hcontents ▸ hreads)
    rw [hround, hread] at hresult
    obtain ⟨again, hagain, -⟩ := bind_eq_ok.1 hresult
    obtain ⟨count, left, hframes⟩ := @ih { mPendingBytes := rest } rfl hrest
      (by rw [hcontents', List.length_drop]; omega) again hagain
    have hnext : nextLength x = frameLength x.mPendingBytes.contents := by
      rw [nextLength, if_pos hlength]
    rw [hnext] at hcomplete hreads hcontents'
    rw [hcontents'] at hframes
    exact ⟨count + 1, left, .frame hmore hcomplete hreads hframes⟩

/-! ### Whole runs -/

/-- The loop ends, having pushed at most one packet for every eight bytes; or the buffer is not
taken, and the loop is not reached. -/
inductive Ends (codec : Msgpack) (factory : BufferFactory) (x : PacketReader) (packet : Packet) :
    PacketReader → Prop
  | returned {pushes : List Push} {x' : PacketReader} :
      x.handlePacket codec factory packet = .ok (pushes, x') →
      8 * pushes.length ≤ x.mPendingBytes.contents.length + (firstBuffer packet).contents.length →
      Ends codec factory x packet x'
  | refused {what : String} :
      x.mPendingBytes.append (firstBuffer packet) = .error (.exception what) →
      Ends codec factory x packet x

/-- The packets are handled one after the other, and each call ends. -/
def Terminating (codec : Msgpack) (factory : BufferFactory) : PacketReader → List Packet → Prop
  | _, [] => True
  | x, packet :: packets =>
    ∃ x', Ends codec factory x packet x' ∧ Terminating codec factory x' packets

/-- After each packet, the bytes that are there are frames and fewer than eight bytes, which stay
pending. -/
def Delivered (codec : Msgpack) (factory : BufferFactory) : ByteString → List Packet → Prop
  | _, [] => True
  | pending, packet :: packets =>
    ∃ count rest, Frames codec factory (pending ++ (firstBuffer packet).contents) count rest ∧
      Delivered codec factory rest packets

theorem handlePacket_eq {packet : Packet} (hbuffers : packet.buffers ≠ []) {stream : MemoryStream}
    (happend : x.mPendingBytes.append (firstBuffer packet) = .ok stream) :
    x.handlePacket codec factory packet =
      readPackets codec factory (stream.mSize + 1) { x with mPendingBytes := stream } := by
  obtain ⟨buffer, buffers, hcons⟩ := List.exists_cons_of_ne_nil hbuffers
  rw [firstBuffer, hcons, List.headD_cons] at happend
  rw [handlePacket, hcons]
  simp only [bind, Except.bind, happend]

/-- The reader between two packets. -/
structure Waiting (pending : ByteString) (x : PacketReader) : Prop where
  mLength : x.mLength = 0
  valid : x.mPendingBytes.Valid
  contents : x.mPendingBytes.contents = pending
  few : pending.length < 8

variable {pending : ByteString}

/-- A buffer is appended, or not taken. -/
theorem Waiting.append (h : Waiting pending x) {packet : Packet} (hpacket : HasFirstBuffer packet) :
    (∃ stream, x.mPendingBytes.append (firstBuffer packet) = .ok stream ∧ stream.Valid ∧
      stream.contents = pending ++ (firstBuffer packet).contents) ∨
    ((∃ what, x.mPendingBytes.append (firstBuffer packet) = .error (.exception what)) ∧
      (firstBuffer packet).contents = []) := by
  by_cases hvalid : (firstBuffer packet).Valid
  · obtain ⟨stream, happend, hstream, hcontents⟩ := MemoryStream.append_spec h.valid hvalid
    exact .inl ⟨stream, happend, hstream, by rw [hcontents, h.contents]⟩
  · have hnull := hpacket.2.resolve_left hvalid
    refine .inr ⟨⟨_, MemoryStream.append_null hnull hvalid x.mPendingBytes⟩, ?_⟩
    rw [Buffer.contents, Buffer.memory, hnull]
    exact List.take_nil

/-- When there are frames, the call ends, ... -/
theorem Waiting.of_frames (h : Waiting pending x) {packet : Packet}
    (hpacket : HasFirstBuffer packet)
    (hlength : (firstBuffer packet).contents.length ≤ ptrdiffMax)
    (hframes : Frames codec factory (pending ++ (firstBuffer packet).contents) count rest) :
    ∃ x', Ends codec factory x packet x' ∧ Waiting rest x' := by
  have hfew := h.few
  obtain ⟨hcount, hrest⟩ := hframes.length_le
  rcases h.append hpacket with ⟨stream, happend, hvalid, hcontents⟩ | ⟨⟨what, hthrown⟩, hnone⟩
  · obtain ⟨pushes, x', hpushed, rfl, hx', hvalid', hcontents'⟩ :=
      @readPackets_frames codec factory _ _ _ hframes { x with mPendingBytes := stream } h.mLength
        hvalid hcontents (by rw [List.length_append]; omega) (stream.mSize + 1)
        (by rw [hvalid.mSize, hcontents]; omega)
    refine ⟨x', .returned ((handlePacket_eq hpacket.1 happend).trans hpushed) ?_,
      ⟨hx', hvalid', hcontents', hrest⟩⟩
    rw [h.contents, ← List.length_append]
    omega
  · -- nothing has arrived, and too few bytes are pending for a frame
    rw [hnone, List.append_nil] at hframes
    cases hframes with
    | pending hfew => exact ⟨x, .refused hthrown, h⟩
    | frame hmore => exact absurd hmore (Nat.not_le.2 h.few)

/-- ... and otherwise it does not. -/
theorem Waiting.frames_of_ends (h : Waiting pending x) {packet : Packet}
    (hpacket : HasFirstBuffer packet)
    (hlength : (firstBuffer packet).contents.length ≤ ptrdiffMax) {x' : PacketReader}
    (hends : Ends codec factory x packet x') :
    ∃ count rest, Frames codec factory (pending ++ (firstBuffer packet).contents) count rest ∧
      Waiting rest x' := by
  have hfew := h.few
  rcases h.append hpacket with ⟨stream, happend, hvalid, hcontents⟩ | ⟨⟨what, hthrown⟩, hnone⟩
  · cases hends with
    | refused hrefused => cases happend.symm.trans hrefused
    | @returned pushes _ hreturned hbound =>
      rw [handlePacket_eq hpacket.1 happend] at hreturned
      have hsize : stream.contents.length ≤ ptrdiffMax + 7 := by
        rw [hcontents, List.length_append]
        omega
      obtain ⟨count, rest, hframes⟩ :=
        @frames_of_readPackets codec factory { x with mPendingBytes := stream } h.mLength hvalid
          hsize (stream.mSize + 1) _ hreturned
      obtain ⟨pushes', x'', hpushed, -, hx', hvalid', hcontents'⟩ :=
        readPackets_frames hframes (x := { x with mPendingBytes := stream }) h.mLength hvalid rfl
          hsize (Nat.lt_succ_of_le (Nat.le_of_eq hvalid.mSize.symm))
      obtain ⟨rfl, rfl⟩ := ok_pair_unique hreturned hpushed
      exact ⟨count, rest, hcontents ▸ hframes, ⟨hx', hvalid', hcontents', hframes.length_le.2⟩⟩
  · rw [hnone, List.append_nil]
    refine ⟨0, pending, .pending h.few, ?_⟩
    cases hends with
    | refused _ => exact h
    | returned hreturned =>
      obtain ⟨buffer, buffers, hcons⟩ := List.exists_cons_of_ne_nil hpacket.1
      rw [firstBuffer, hcons, List.headD_cons] at hthrown
      rw [handlePacket, hcons] at hreturned
      simp only [bind, Except.bind, hthrown] at hreturned
      cases hreturned

theorem Waiting.terminating (h : Waiting pending x) {packets : List Packet}
    (hpackets : ∀ packet ∈ packets, HasFirstBuffer packet)
    (hlengths : ∀ packet ∈ packets, (firstBuffer packet).contents.length ≤ ptrdiffMax) :
    Terminating codec factory x packets ↔ Delivered codec factory pending packets := by
  induction packets generalizing pending x with
  | nil => exact Iff.rfl
  | cons packet packets ih =>
    obtain ⟨hpacket, hpackets⟩ := List.forall_mem_cons.1 hpackets
    obtain ⟨hlength, hlengths⟩ := List.forall_mem_cons.1 hlengths
    constructor
    · rintro ⟨x', hends, hterminating⟩
      obtain ⟨count, rest, hframes, hwaiting⟩ := h.frames_of_ends hpacket hlength hends
      exact ⟨count, rest, hframes, (ih hwaiting hpackets hlengths).1 hterminating⟩
    · rintro ⟨count, rest, hframes, hdelivered⟩
      obtain ⟨x', hends, hwaiting⟩ := h.of_frames hpacket hlength hframes
      exact ⟨x', hends, (ih hwaiting hpackets hlengths).2 hdelivered⟩

/-- **Every call ends exactly if each packet completes its frames**, which can be read, up to a
length field that is not all there. -/
theorem terminating_iff {packets : List Packet}
    (hpackets : ∀ packet ∈ packets, HasFirstBuffer packet)
    (hlengths : ∀ packet ∈ packets, (firstBuffer packet).contents.length ≤ ptrdiffMax) :
    Terminating codec factory {} packets ↔ Delivered codec factory [] packets := by
  have hempty : Waiting [] {} := ⟨rfl, MemoryStream.valid_empty, rfl, by decide⟩
  exact hempty.terminating hpackets hlengths

end

/-- A frame with its length field. -/
def misreadFrame : ByteString := [0, 0, 0, 0, 0, 0, 0, 33] ++ misread

/-- It can be read. -/
theorem readsFrame_misread : ReadsFrame nullCodec .zeros misread := by
  have hsize : 9 = bigEndian ((misread.drop 16).take 8) := by decide
  have hlen : parametersLength misread = 8 := by decide
  have hcreate : BufferFactory.zeros.Create 9 = .ok (.ofBytes (List.replicate 9 0)) := rfl
  have hmemory : parameterMemory misread (Buffer.ofBytes (List.replicate 9 0)).memory =
      0xC0 :: List.replicate 8 0 := by decide
  refine ⟨by decide, by decide, .ofBytes (List.replicate 9 0), .null, ?_, ?_, ?_⟩
  · rw [hlen]
    exact hcreate
  · rw [hmemory]
    rfl
  · rw [hlen]
    exact .next (by decide) hsize hcreate (by decide) (.done (by decide))

/-- One packet brings the whole frame, the next one half the length field of another. -/
theorem terminating_iff_frameAndHalf : Terminating nullCodec .zeros {}
    [{ buffers := [.ofBytes misreadFrame] }, { buffers := [.ofBytes [0, 0, 0, 0]] }] := by
  refine (terminating_iff ?_ ?_).2 ?_
  · exact List.forall_mem_cons.2 ⟨by decide, List.forall_mem_singleton.2 (by decide)⟩
  · exact List.forall_mem_cons.2 ⟨by decide, List.forall_mem_singleton.2 (by decide)⟩
  · exact ⟨1, [], .frame (by decide) (by decide) readsFrame_misread (.pending (by decide)),
      0, [0, 0, 0, 0], .pending (by decide), trivial⟩

/-- A frame of which only the length has arrived. -/
theorem not_terminating :
    ¬ ∀ (codec : Msgpack) (factory : BufferFactory) (packets : List Packet),
      (∀ packet ∈ packets, HasFirstBuffer packet) →
      (∀ packet ∈ packets, (firstBuffer packet).contents.length ≤ ptrdiffMax) →
        Terminating codec factory {} packets := by
  intro h
  obtain ⟨x', hends, -⟩ := h nullCodec .zeros [{ buffers := [.ofBytes [0, 0, 0, 0, 0, 0, 0, 16]] }]
    (List.forall_mem_singleton.2 (by decide)) (List.forall_mem_singleton.2 (by decide))
  cases hends with
  | returned hreturned => cases hreturned
  | refused hrefused => cases hrefused

end PacketReader

end Maplang
