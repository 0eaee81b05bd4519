import Maplang.Http.RequestExtractor

/-!
# The progress of a request extractor

What the extractor has pushed is a function of the bytes it has received, up to the borders of the
body buffers.  The empty line is searched from the fifth byte on, so a header block of fewer than
four bytes is not seen as one.

## Main definitions

* `HttpRequestExtractor.Progress` : the three things an extractor can be at, in terms of the bytes
  received: gathering headers, failing at a content length, and passing on a body.

## Main results

* `progress_step`, `progress_run` : the next packet, and any number of them, wherever the bytes are
  cut.
* `mSize_le_of_found` : the body starts in the buffer that completed the headers.
-/

namespace Maplang

open Http

namespace HttpRequestExtractor

/-- The New Request packet of a header block. -/
def requestPush (block requestId : ByteString) : Push where
  packet := { parameters := requestParameters block requestId }
  channel := "New Request"

/-- A Body Data packet. -/
def bodyPush (requestId : ByteString) (bodyBuffer : Buffer) : Push where
  packet :=
    { parameters := .object [(kParameter_HttpRequestId, .string requestId)]
      buffers := [bodyBuffer] }
  channel := "Body Data"

/-- The bytes of Body Data packets are those of their buffers. -/
theorem flatten_bodyPush (requestId : ByteString) (bodies : List Buffer) :
    ((bodies.map (bodyPush requestId)).map fun push =>
      MemoryStream.bytesOf push.packet.buffers).flatten = MemoryStream.bytesOf bodies := by
  induction bodies with
  | nil => rfl
  | cons b bodies ih =>
    rw [List.map_cons, List.map_cons, List.flatten_cons, ih, MemoryStream.bytesOf_cons]
    simp [bodyPush]

/-- No headers have been sent, and all bytes received are kept. -/
structure Gathering (requestId input : ByteString) (x : HttpRequestExtractor) : Prop where
  mRequestId : x.mRequestId = requestId
  mBodyLength : x.mBodyLength = sizeMax
  mSentHeaders : x.mSentHeaders = false
  mHeaderData : x.mHeaderData.Valid
  contents : x.mHeaderData.contents = input

/-- How far the extractor has got with the bytes received. -/
inductive Progress (requestId input : ByteString) : List Push → HttpRequestExtractor → Prop
  /-- The headers are not complete. -/
  | headers {x : HttpRequestExtractor} (gathering : Gathering requestId input x)
      (missing : Search.indexFrom? kDoubleCrLf input kDoubleCrLfLength = none) :
      Progress requestId input [] x
  /-- The last header is a content length: every packet fails. -/
  | failed {x : HttpRequestExtractor} {n : ℕ} {pushes : List Push}
      (gathering : Gathering requestId input x)
      (found : Search.indexFrom? kDoubleCrLf input kDoubleCrLfLength = some n)
      (last : ContentLengthLast (input.take n)) (nonempty : pushes ≠ [])
      (errors : ∀ push ∈ pushes, push = sendErrorPacket contentLengthWhat) :
      Progress requestId input pushes x
  /-- The headers have been sent, and the bytes after them are passed on. -/
  | body {x : HttpRequestExtractor} {n : ℕ} {bodies : List Buffer}
      (mRequestId : x.mRequestId = requestId) (mBodyLength : x.mBodyLength = sizeMax)
      (mSentHeaders : x.mSentHeaders = true)
      (found : Search.indexFrom? kDoubleCrLf input kDoubleCrLfLength = some n)
      (last : ¬ ContentLengthLast (input.take n))
      (passed : MemoryStream.bytesOf bodies = input.drop (n + kDoubleCrLfLength)) :
      Progress requestId input
        (requestPush (input.take n) requestId :: bodies.map (bodyPush requestId)) x

theorem kDoubleCrLf_ne_nil : kDoubleCrLf ≠ [] := by decide

/-- The search for the empty line, as the code calls it, starts at the fifth byte. -/
theorem firstIndexOfCString_spec {s : MemoryStream} (h : s.Valid) :
    s.firstIndexOfCString kDoubleCrLf kDoubleCrLfLength =
      .ok (Search.indexFrom? kDoubleCrLf s.contents kDoubleCrLfLength) :=
  MemoryStream.firstIndexOf_spec h kDoubleCrLf_ne_nil _ (MemoryStream.clampEnd_none h)

/-- **The body starts in the buffer that completed the headers.** -/
theorem mSize_le_of_found {requestId input more : ByteString} {x : HttpRequestExtractor} {n : ℕ}
    (h : Gathering requestId input x)
    (hmissing : Search.indexFrom? kDoubleCrLf input kDoubleCrLfLength = none)
    (hfound : Search.indexFrom? kDoubleCrLf (input ++ more) kDoubleCrLfLength = some n) :
    x.mHeaderData.mSize ≤ n + kDoubleCrLfLength := by
  rw [h.mHeaderData.mSize, h.contents]
  exact (Search.length_lt_of_append kDoubleCrLf_ne_nil hmissing hfound).le

/-- A block that has been found is not changed by what follows. -/
theorem take_of_found {input m : ByteString} {n : ℕ}
    (h : Search.indexFrom? kDoubleCrLf input kDoubleCrLfLength = some n) :
    n + kDoubleCrLfLength ≤ input.length ∧ (input ++ m).take n = input.take n ∧
      (input ++ m).drop (n + kDoubleCrLfLength) = input.drop (n + kDoubleCrLfLength) ++ m := by
  obtain ⟨-, hstarts, -⟩ := (Search.indexFrom?_eq_some kDoubleCrLf_ne_nil).1 h
  have hend : n + kDoubleCrLfLength ≤ input.length :=
    Search.add_length_le kDoubleCrLf_ne_nil hstarts
  exact ⟨hend, List.take_append_of_le_length (by omega), List.drop_append_of_le_length hend⟩

section

variable {requestId input : ByteString} {x : HttpRequestExtractor} {b : Buffer}

/-- The stream after another buffer. -/
theorem Gathering.append (h : Gathering requestId input x) (hb : b.Valid) :
    ∃ mHeaderData, x.mHeaderData.append b = .ok mHeaderData ∧
      Gathering requestId (input ++ b.contents) { x with mHeaderData } := by
  obtain ⟨s, hs, hvalid, hcontents⟩ := MemoryStream.append_spec h.mHeaderData hb
  exact ⟨s, hs, h.mRequestId, h.mBodyLength, h.mSentHeaders, hvalid, by rw [hcontents, h.contents]⟩

theorem handleHeaders_missing (h : Gathering requestId input x) (hb : b.Valid)
    (hmissing : Search.indexFrom? kDoubleCrLf (input ++ b.contents) kDoubleCrLfLength = none)
    (thrownBy : Push → Option Fault := fun _ => none) :
    ∃ x', x.handleHeaders b thrownBy = ⟨[], x', none⟩ ∧
      Gathering requestId (input ++ b.contents) x' := by
  obtain ⟨s, hs, hgathering⟩ := h.append hb
  refine ⟨_, ?_, hgathering⟩
  simp only [handleHeaders, hs, firstIndexOfCString_spec hgathering.mHeaderData,
    hgathering.contents, hmissing]

theorem handleHeaders_failed (h : Gathering requestId input x) (hb : b.Valid) {n : ℕ}
    (hfound : Search.indexFrom? kDoubleCrLf (input ++ b.contents) kDoubleCrLfLength = some n)
    (hlast : ContentLengthLast ((input ++ b.contents).take n))
    (thrownBy : Push → Option Fault := fun _ => none) :
    ∃ x', x.handleHeaders b thrownBy = ⟨[], x', some (.exception contentLengthWhat)⟩ ∧
      Gathering requestId (input ++ b.contents) x' := by
  obtain ⟨s, hs, hgathering⟩ := h.append hb
  have hrequest := createRequestPacket_spec hgathering.mHeaderData (n := n)
    (by rw [hgathering.contents]; have := (take_of_found (m := []) hfound).1; omega)
  rw [hgathering.contents, if_pos hlast] at hrequest
  refine ⟨_, ?_, hgathering⟩
  simp only [handleHeaders, hs, firstIndexOfCString_spec hgathering.mHeaderData,
    hgathering.contents, hfound, hrequest]

theorem handleHeaders_found (h : Gathering requestId input x) (hb : b.Valid) {n : ℕ}
    (hmissing : Search.indexFrom? kDoubleCrLf input kDoubleCrLfLength = none)
    (hfound : Search.indexFrom? kDoubleCrLf (input ++ b.contents) kDoubleCrLfLength = some n)
    (hlast : ¬ ContentLengthLast ((input ++ b.contents).take n)) :
    ∃ bodies x', x.handleHeaders b =
        ⟨requestPush ((input ++ b.contents).take n) requestId :: bodies.map (bodyPush requestId),
          x', none⟩ ∧
      x'.mRequestId = requestId ∧ x'.mBodyLength = sizeMax ∧ x'.mSentHeaders = true ∧
      MemoryStream.bytesOf bodies = (input ++ b.contents).drop (n + kDoubleCrLfLength) := by
  obtain ⟨s, hs, hgathering⟩ := h.append hb
  have hend := (take_of_found (m := []) hfound).1
  have hrequest := createRequestPacket_spec hgathering.mHeaderData (n := n)
    (by rw [hgathering.contents]; omega)
  rw [hgathering.contents, if_neg hlast] at hrequest
  have hsize : s.mSize = (input ++ b.contents).length := by
    rw [hgathering.mHeaderData.mSize, hgathering.contents]
  have hbefore := mSize_le_of_found h hmissing hfound
  have hlength : x.mHeaderData.mSize = input.length := by rw [h.mHeaderData.mSize, h.contents]
  simp only [handleHeaders, hs, firstIndexOfCString_spec hgathering.mHeaderData,
    hgathering.contents, hfound, hrequest, hsize, sizeSub_eq hend, sizeSub_eq hbefore]
  obtain rfl : x.mRequestId = requestId := h.mRequestId
  by_cases havailable : 0 < (input ++ b.contents).length - (n + kDoubleCrLfLength)
  -- the rest of this buffer is the first body buffer
  · let bodyBuffer := b.slice (n + kDoubleCrLfLength - x.mHeaderData.mSize)
    refine ⟨[bodyBuffer],
      { x with
        mSentHeaders := true
        mHeaderData := s.clear
        mSentBodyDataByteCount := x.mSentBodyDataByteCount + bodyBuffer.length },
      if_pos havailable, rfl, h.mBodyLength, rfl, ?_⟩
    have hgone : input.drop (n + kDoubleCrLfLength) = [] := List.drop_eq_nil_of_le (by omega)
    rw [MemoryStream.bytesOf_cons, MemoryStream.bytesOf_nil, List.append_nil, Buffer.contents_slice,
      hlength, List.drop_append, hgone, List.nil_append]
  · refine ⟨[], { x with mSentHeaders := true, mHeaderData := s.clear }, if_neg havailable, rfl,
      h.mBodyLength, rfl, ?_⟩
    rw [List.drop_eq_nil_of_le (by omega)]
    rfl

/-- A packet while headers are gathered, in terms of the header part. -/
theorem handlePacket_gathering (random : ℕ → ℕ) {packet : Packet} (hpacket : HasBuffer packet)
    (h : Gathering requestId input x) {attempt : Attempt} {thrownBy : Push → Option Fault}
    (hattempt : x.handleHeaders (firstBuffer packet) thrownBy = attempt) :
    x.handlePacket random packet thrownBy =
      match attempt.thrown with
      | none => .ok (attempt.pushes, attempt.extractor)
      | some (.exception what) => .ok (attempt.pushes ++ [sendErrorPacket what], attempt.extractor)
      | some fault => .error fault := by
  obtain ⟨b, bs, hbuffers⟩ := List.exists_cons_of_ne_nil hpacket.1
  rw [firstBuffer, hbuffers] at hattempt
  simp only [handlePacket, hbuffers, h.mSentHeaders, ← hattempt]
  rfl

/-- **One packet.** -/
theorem progress_step (random : ℕ → ℕ) {packet : Packet} (hpacket : HasBuffer packet)
    {pushes : List Push} (h : Progress requestId input pushes x) :
    ∃ new x', x.handlePacket random packet = .ok (new, x') ∧
      Progress requestId (input ++ (firstBuffer packet).contents) (pushes ++ new) x' := by
  cases h with
  | headers gathering missing =>
    cases hfound : Search.indexFrom? kDoubleCrLf (input ++ (firstBuffer packet).contents)
        kDoubleCrLfLength with
    | none =>
      obtain ⟨x', hx', hgathering⟩ := handleHeaders_missing gathering hpacket.2 hfound
      exact ⟨_, _, handlePacket_gathering random hpacket gathering hx', .headers hgathering hfound⟩
    | some n =>
      by_cases hlast : ContentLengthLast ((input ++ (firstBuffer packet).contents).take n)
      · obtain ⟨x', hx', hgathering⟩ := handleHeaders_failed gathering hpacket.2 hfound hlast
        exact ⟨_, _, handlePacket_gathering random hpacket gathering hx',
          .failed hgathering hfound hlast (by simp) (by simp)⟩
      · obtain ⟨bodies, x', hx', hid, hlength, hsent, hbodies⟩ :=
          handleHeaders_found gathering hpacket.2 missing hfound hlast
        exact ⟨_, _, handlePacket_gathering random hpacket gathering hx',
          .body hid hlength hsent hfound hlast hbodies⟩
  | failed gathering found last nonempty errors =>
    -- the header block is found again, and fails again
    have hfound := Search.indexFrom?_append kDoubleCrLf_ne_nil found (firstBuffer packet).contents
    have hlast := last
    rw [← (take_of_found (m := (firstBuffer packet).contents) found).2.1] at hlast
    obtain ⟨x', hx', hgathering⟩ := handleHeaders_failed gathering hpacket.2 hfound hlast
    refine ⟨_, _, handlePacket_gathering random hpacket gathering hx',
      .failed hgathering hfound hlast (by simp) fun push hpush => ?_⟩
    rcases List.mem_append.1 hpush with hpush | hpush
    · exact errors push hpush
    · exact List.mem_singleton.1 hpush
  | @body _ n bodies hid hlength hsent found last passed =>
    obtain ⟨b, bs, hbuffers⟩ := List.exists_cons_of_ne_nil hpacket.1
    have hfirst : firstBuffer packet = b := by rw [firstBuffer, hbuffers]; rfl
    obtain ⟨-, htake, hdrop⟩ := take_of_found (m := b.contents) found
    refine ⟨[bodyPush requestId b], x, ?_, ?_⟩
    · simp [handlePacket, hbuffers, hsent, handleBody, hlength, createBodyPacket, hid, bodyPush]
    · have hpassed : MemoryStream.bytesOf (bodies ++ [b]) =
          (input ++ b.contents).drop (n + kDoubleCrLfLength) := by
        rw [hdrop, MemoryStream.bytesOf_append, passed]
        simp
      have hbody := Progress.body hid hlength hsent
        (Search.indexFrom?_append kDoubleCrLf_ne_nil found b.contents)
        (by rwa [htake]) hpassed
      rw [htake, List.map_append] at hbody
      rw [hfirst]
      exact hbody

/-- **Any number of packets.** -/
theorem progress_run (random : ℕ → ℕ) {packets : List Packet}
    (hpackets : ∀ packet ∈ packets, HasBuffer packet) {pushes : List Push}
    (h : Progress requestId input pushes x) :
    ∃ new x', x.run random packets = .ok (new, x') ∧
      Progress requestId (input ++ received packets) (pushes ++ new) x' := by
  induction packets generalizing input pushes x with
  | nil => exact ⟨[], x, rfl, by simpa [received] using h⟩
  | cons packet packets ih =>
    obtain ⟨new, x', hhandle, h'⟩ := progress_step random (hpackets packet (by simp)) h
    obtain ⟨more, x'', hrun, h''⟩ := ih (fun p hp => hpackets p (by simp [hp])) h'
    refine ⟨new ++ more, x'', ?_, by simpa [received] using h''⟩
    simp only [run, bind, Except.bind, hhandle, hrun, pure, Except.pure]

end

/-- A new extractor has received nothing. -/
theorem progress_construct (random : ℕ → ℕ) :
    Progress (bytes (toString (random 0))) [] [] (construct random) :=
  .headers ⟨rfl, rfl, rfl, MemoryStream.valid_empty, rfl⟩ (by decide)

/-- **A whole run**, from the constructor on. -/
theorem progress_of_construct (random : ℕ → ℕ) {packets : List Packet}
    (hpackets : ∀ packet ∈ packets, HasBuffer packet) :
    ∃ pushes x, (construct random).run random packets = .ok (pushes, x) ∧
      Progress (bytes (toString (random 0))) (received packets) pushes x :=
  progress_run random hpackets (progress_construct random)

end HttpRequestExtractor

end Maplang
