import Maplang.Http.Framing

/-!
# The grammar of what a request extractor pushes

Whatever bytes arrive, and wherever they are cut, the packets pushed are blocks of a New Request
packet, Body Data packets and a Request Ended packet, all with one request id.  Errors are pushed
between the blocks only.  The last block is ended by the destructor at the latest.

## Main definitions

* `Blocks pending pushes` : the grammar, as what may be pushed next; `pending` is the request id of
  a block that has not been ended.
* `IsBlock part` : a whole block.
* `Advance` : what a packet adds, by whether headers have been sent before and after.

## Main results

* `Blocks.exists_parts` : pushes of the grammar are whole blocks once the errors are left out.
* `advance_step` : one packet.
* `blocks_of_construct` : a whole run, and the destructor.
-/

namespace Maplang

open Http

namespace HttpRequestExtractor

/-! ### The grammar -/

/-- Blocks with errors between them, and the request id of the last block if that has not been
ended. -/
inductive Blocks : Option ByteString → List Push → Prop
  | nil : Blocks none []
  | error {pushes : List Push} {push : Push} : Blocks none pushes → push.channel = "error" →
      Blocks none (pushes ++ [push])
  | request {pushes : List Push} {push : Push} {requestId : ByteString} : Blocks none pushes →
      push.channel = "New Request" → Carries requestId push →
      Blocks (some requestId) (pushes ++ [push])
  | body {pushes : List Push} {push : Push} {requestId : ByteString} :
      Blocks (some requestId) pushes → push.channel = "Body Data" → Carries requestId push →
      Blocks (some requestId) (pushes ++ [push])
  | ended {pushes : List Push} {push : Push} {requestId : ByteString} :
      Blocks (some requestId) pushes → push.channel = "Request Ended" → Carries requestId push →
      Blocks none (pushes ++ [push])

/-- A block that has not been ended. -/
structure IsOpen (requestId : ByteString) (part : List Push) : Prop where
  channels : ∃ head bodies, part = head :: bodies ∧ head.channel = "New Request" ∧
    ∀ push ∈ bodies, push.channel = "Body Data"
  carries : ∀ push ∈ part, Carries requestId push

/-- A block. -/
def IsBlock (part : List Push) : Prop :=
  ∃ requestId front last, part = front ++ [last] ∧ IsOpen requestId front ∧
    last.channel = "Request Ended" ∧ Carries requestId last

/-- What is pending is an open block. -/
def IsPending (pending : Option ByteString) (part : List Push) : Prop :=
  match pending with
  | none => part = []
  | some requestId => IsOpen requestId part

/-- **Once the errors are left out, there are blocks**, and what is pending. -/
theorem Blocks.exists_parts {pending : Option ByteString} {pushes : List Push}
    (h : Blocks pending pushes) :
    ∃ (parts : List (List Push)) (last : List Push),
      pushes.filter (·.channel ≠ "error") = parts.flatten ++ last ∧
        (∀ part ∈ parts, IsBlock part) ∧ IsPending pending last := by
  induction h with
  | nil => exact ⟨[], [], rfl, fun _ hpart => absurd hpart List.not_mem_nil, rfl⟩
  | error _ hchannel ih =>
    obtain ⟨parts, last, heq, hparts, hlast⟩ := ih
    exact ⟨parts, last, by rw [List.filter_append, heq]; simp [hchannel], hparts, hlast⟩
  | @request _ push requestId _ hchannel hcarries ih =>
    obtain ⟨parts, last, heq, hparts, rfl⟩ := ih
    refine ⟨parts, [push], by rw [List.filter_append, heq]; simp [hchannel], hparts,
      ⟨push, [], rfl, hchannel, fun _ hbody => absurd hbody List.not_mem_nil⟩,
      List.forall_mem_singleton.2 hcarries⟩
  | @body _ push requestId _ hchannel hcarries ih =>
    obtain ⟨parts, last, heq, hparts, ⟨head, bodies, rfl, hhead, hbodies⟩, hids⟩ := ih
    refine ⟨parts, head :: (bodies ++ [push]), by rw [List.filter_append, heq]; simp [hchannel],
      hparts, ⟨head, bodies ++ [push], rfl, hhead, ?_⟩, ?_⟩
    · exact List.forall_mem_append.2 ⟨hbodies, List.forall_mem_singleton.2 hchannel⟩
    · rw [← List.cons_append]
      exact List.forall_mem_append.2 ⟨hids, List.forall_mem_singleton.2 hcarries⟩
  | @ended _ push requestId _ hchannel hcarries ih =>
    obtain ⟨parts, last, heq, hparts, hlast⟩ := ih
    refine ⟨parts ++ [last ++ [push]], [], by rw [List.filter_append, heq]; simp [hchannel], ?_,
      rfl⟩
    exact List.forall_mem_append.2 ⟨hparts, List.forall_mem_singleton.2
      ⟨requestId, last, push, rfl, hlast, hchannel, hcarries⟩⟩

theorem Blocks.append_errors {pushes new : List Push} (h : Blocks none pushes)
    (hnew : ∀ push ∈ new, push.channel = "error") : Blocks none (pushes ++ new) := by
  induction new generalizing pushes with
  | nil => rwa [List.append_nil]
  | cons push new ih =>
    obtain ⟨hpush, hnew⟩ := List.forall_mem_cons.1 hnew
    rw [List.append_cons]
    exact ih (.error h hpush) hnew

theorem carries_bodyPush (requestId : ByteString) (b : Buffer) :
    Carries requestId (bodyPush requestId b) := by
  rw [Carries, bodyPush, Json.find_object, Json.lookup_cons, if_pos rfl]

theorem Blocks.append_bodies {requestId : ByteString} {pushes : List Push}
    (h : Blocks (some requestId) pushes) (bodies : List Buffer) :
    Blocks (some requestId) (pushes ++ bodies.map (bodyPush requestId)) := by
  induction bodies generalizing pushes with
  | nil => rwa [List.map_nil, List.append_nil]
  | cons b bodies ih =>
    rw [List.map_cons, List.append_cons]
    exact ih (.body h rfl (carries_bodyPush requestId b))

/-! ### One packet -/

/-- What is pushed for a packet. -/
inductive Advance (requestId : ByteString) :
    HttpRequestExtractor → List Push → HttpRequestExtractor → Prop
  /-- No headers have been sent; there may be errors. -/
  | waits {x x' : HttpRequestExtractor} {new : List Push} : x.mSentHeaders = false →
      x'.mSentHeaders = false → (∀ push ∈ new, push.channel = "error") → Advance requestId x new x'
  /-- The headers are sent. -/
  | requests {x x' : HttpRequestExtractor} (block : ByteString) (bodies : List Buffer) :
      x.mSentHeaders = false → x'.mSentHeaders = true →
      Advance requestId x (requestPush block requestId :: bodies.map (bodyPush requestId)) x'
  /-- The headers have been sent. -/
  | passes {x x' : HttpRequestExtractor} (bodies : List Buffer) : x.mSentHeaders = true →
      x'.mSentHeaders = true → Advance requestId x (bodies.map (bodyPush requestId)) x'

section

variable {requestId input input' : ByteString} {old new pushes : List Push}
  {x x' : HttpRequestExtractor}

theorem Progress.mRequestId (h : Progress requestId input pushes x) : x.mRequestId = requestId := by
  cases h with
  | headers gathering missing => exact gathering.mRequestId
  | failed gathering found last nonempty errors => exact gathering.mRequestId
  | body hid hlength hsent found last passed => exact hid

/-- What is added between two states of the progress. -/
theorem advance_of_progress (h : Progress requestId input old x)
    (h' : Progress requestId input' (old ++ new) x') : Advance requestId x new x' := by
  have herror : ∀ push, push = sendErrorPacket contentLengthWhat → push.channel = "error" :=
    fun push hpush => by rw [hpush]; rfl
  have hrequest : ∀ block, (requestPush block requestId).channel ≠ "error" := fun _ => by
    simp [requestPush]
  generalize hall : old ++ new = all at h'
  cases h with
  | headers gathering missing =>
    rw [List.nil_append] at hall
    subst hall
    cases h' with
    | headers gathering' missing' =>
      exact .waits gathering.mSentHeaders gathering'.mSentHeaders
        fun _ hpush => absurd hpush List.not_mem_nil
    | failed gathering' found' last' nonempty' errors' =>
      exact .waits gathering.mSentHeaders gathering'.mSentHeaders
        fun push hpush => herror push (errors' push hpush)
    | body hid hlength hsent found' last' passed' =>
      exact .requests _ _ gathering.mSentHeaders hsent
  | failed gathering found last nonempty errors =>
    obtain ⟨push, rest, rfl⟩ := List.exists_cons_of_ne_nil nonempty
    rw [List.cons_append] at hall
    cases h' with
    | headers gathering' missing' => cases hall
    | failed gathering' found' last' nonempty' errors' =>
      refine .waits gathering.mSentHeaders gathering'.mSentHeaders fun push' hpush' => ?_
      rw [← hall] at errors'
      exact herror push' (errors' push' (by simp [hpush']))
    | body hid hlength hsent found' last' passed' =>
      -- an error has been pushed already
      obtain ⟨rfl, -⟩ := List.cons.inj hall
      exact absurd (herror _ (errors _ List.mem_cons_self)) (hrequest _)
  | @body _ _ bodies hid hlength hsent found last passed =>
    rw [List.cons_append] at hall
    cases h' with
    | headers gathering' missing' => cases hall
    | failed gathering' found' last' nonempty' errors' =>
      exact absurd (herror _ (errors' _ (hall ▸ List.mem_cons_self))) (hrequest _)
    | @body _ _ bodies' hid' hlength' hsent' found' last' passed' =>
      obtain ⟨-, hrest⟩ := List.cons.inj hall
      obtain ⟨_, added, -, -, rfl⟩ := List.map_eq_append_iff.1 hrest.symm
      exact .passes added hsent hsent'

/-- A null buffer with a length is an error before the headers, and part of the body after them. -/
theorem handlePacket_null (random : ℕ → ℕ) {packet : Packet} (hbuffers : packet.buffers ≠ [])
    (hdata : (firstBuffer packet).data = none) (hb : ¬ (firstBuffer packet).Valid)
    (h : Progress requestId input old x) :
    ∃ new, x.handlePacket random packet = .ok (new, x) ∧ Advance requestId x new x := by
  obtain ⟨b, bs, hpacket⟩ := List.exists_cons_of_ne_nil hbuffers
  have hfirst : firstBuffer packet = b := by rw [firstBuffer, hpacket]; rfl
  rw [hfirst] at hdata hb
  cases hsent : x.mSentHeaders with
  | false =>
    refine ⟨[sendErrorPacket "Data length is > 0, but buffer is NULL."], ?_, ?_⟩
    · simp [handlePacket, hpacket, hsent, handleHeaders, MemoryStream.append_null hdata hb,
        throwRuntimeError]
    · exact .waits hsent hsent (List.forall_mem_singleton.2 rfl)
  | true =>
    refine ⟨[b].map (bodyPush requestId), ?_, .passes [b] hsent hsent⟩
    simp [handlePacket, hpacket, hsent, handleBody, h.mBodyLength, createBodyPacket, h.mRequestId,
      bodyPush]

/-- **One packet.** -/
theorem advance_step (random : ℕ → ℕ) {packet : Packet} (hpacket : HasFirstBuffer packet)
    (h : Progress requestId input old x) :
    ∃ new x' input' old', x.handlePacket random packet = .ok (new, x') ∧
      Progress requestId input' old' x' ∧ Advance requestId x new x' := by
  by_cases hb : (firstBuffer packet).Valid
  · obtain ⟨new, x', hhandle, h'⟩ := progress_step random ⟨hpacket.1, hb⟩ h
    exact ⟨new, x', _, _, hhandle, h', advance_of_progress h h'⟩
  · obtain ⟨new, hhandle, hadvance⟩ :=
      handlePacket_null random hpacket.1 (hpacket.2.resolve_left hb) hb h
    exact ⟨new, x, input, old, hhandle, h, hadvance⟩

/-! ### Runs -/

/-- The request id of a block that the extractor has not ended. -/
def pending (requestId : ByteString) (x : HttpRequestExtractor) : Option ByteString :=
  if x.mSentHeaders then some requestId else none

theorem Blocks.advance (h : Blocks (pending requestId x) pushes) (hx : Advance requestId x new x') :
    Blocks (pending requestId x') (pushes ++ new) := by
  unfold pending at h ⊢
  cases hx with
  | waits hsent hsent' hnew =>
    rw [hsent] at h
    rw [hsent']
    exact h.append_errors hnew
  | requests block bodies hsent hsent' =>
    rw [hsent] at h
    have hcarries : Carries requestId (requestPush block requestId) :=
      find_requestParameters block requestId
    rw [hsent', List.append_cons]
    exact (Blocks.request h rfl hcarries).append_bodies bodies
  | passes bodies hsent hsent' =>
    rw [hsent] at h
    rw [hsent']
    exact h.append_bodies bodies

/-- **Any number of packets.** -/
theorem blocks_run (random : ℕ → ℕ) {packets : List Packet}
    (hpackets : ∀ packet ∈ packets, HasFirstBuffer packet) (h : Progress requestId input old x)
    (hpushes : Blocks (pending requestId x) pushes) :
    ∃ new x', x.run random packets = .ok (new, x') ∧ x'.mRequestId = requestId ∧
      Blocks (pending requestId x') (pushes ++ new) := by
  induction packets generalizing input old pushes x with
  | nil => exact ⟨[], x, rfl, h.mRequestId, by rwa [List.append_nil]⟩
  | cons packet packets ih =>
    obtain ⟨hpacket, hpackets⟩ := List.forall_mem_cons.1 hpackets
    obtain ⟨new, x', input', old', hhandle, h', hadvance⟩ := advance_step random hpacket h
    obtain ⟨more, x'', hrun, hid, hblocks⟩ := ih hpackets h' (hpushes.advance hadvance)
    refine ⟨new ++ more, x'', ?_, hid, by rwa [← List.append_assoc]⟩
    simp only [run, bind, Except.bind, hhandle, hrun, pure, Except.pure]

/-- The destructor ends the last block. -/
theorem Blocks.destroy (h : Blocks (pending requestId x) pushes) (hid : x.mRequestId = requestId) :
    Blocks none (pushes ++ x.destroy) := by
  unfold pending at h
  cases hsent : x.mSentHeaders with
  | false =>
    rw [hsent] at h
    simpa [HttpRequestExtractor.destroy, sendEndOfRequestPacketIfRequestPending, hsent] using h
  | true =>
    rw [hsent] at h
    rw [HttpRequestExtractor.destroy, sendEndOfRequestPacketIfRequestPending, if_pos hsent, hid]
    exact .ended h rfl (by rw [Carries, Json.find_object, Json.lookup_cons, if_pos rfl])

end

/-- **The grammar**, whatever the packets are: blocks with errors between them, the last one ended
by the destructor at the latest. -/
theorem blocks_of_construct (random : ℕ → ℕ) {packets : List Packet}
    (hpackets : ∀ packet ∈ packets, HasFirstBuffer packet) :
    ∃ pushes x, (construct random).run random packets = .ok (pushes, x) ∧
      (∃ pending, Blocks pending pushes) ∧ Blocks none (pushes ++ x.destroy) ∧
      ∃ parts : List (List Push),
        (pushes ++ x.destroy).filter (·.channel ≠ "error") = parts.flatten ∧
          ∀ part ∈ parts, IsBlock part := by
  obtain ⟨pushes, x, hrun, hid, hblocks⟩ :=
    blocks_run random hpackets (progress_construct random) Blocks.nil
  rw [List.nil_append] at hblocks
  have hclosed := hblocks.destroy hid
  obtain ⟨parts, last, heq, hparts, rfl⟩ := hclosed.exists_parts
  rw [List.append_nil] at heq
  exact ⟨pushes, x, hrun, ⟨_, hblocks⟩, hclosed, parts, heq, hparts⟩

/-- A null buffer, and a request after it. -/
theorem blocks_of_construct_null :
    ∃ pushes x, (construct fun _ => 7).run (fun _ => 7)
        [{ buffers := [⟨none, 1⟩] }, { buffers := [.ofBytes (bytes "GET / HTTP/1.1\r\n\r\n")] }] =
          .ok (pushes, x) ∧
      (∃ pending, Blocks pending pushes) ∧ Blocks none (pushes ++ x.destroy) ∧
      ∃ parts : List (List Push),
        (pushes ++ x.destroy).filter (·.channel ≠ "error") = parts.flatten ∧
          ∀ part ∈ parts, IsBlock part :=
  blocks_of_construct (fun _ => 7) (by decide)

end HttpRequestExtractor

end Maplang
