import Maplang.Machine.Basic
import Maplang.Stream.RingReading

/-!
# Ring streams that stay inside their buffers

All positions in a ring are taken modulo its capacity.  So a write of more bytes than there is room
for goes on over unread bytes, and only the length says so; a capacity of zero makes the modulo
undefined; and the resizing of a ring that wraps around copies its tail behind the end of the old
buffer.

## Main definitions

* `RingStream.Operation`, `RingStream.machine` : a ring on which any calls are made.
* `RingStream.StaysInBounds` : no call does anything undefined, and the bounds hold after each.
* `RingStream.Stays`, `RingStream.StepsStay` : the states in which a call is safe, and the runs of
  such calls.

## Main results

* `RingStream.writeLoop_spec_any` : what the loop of `Write` does, with and without room.
* `RingStream.step_of_stays`, `RingStream.not_bounded_of_not_stays` : one call.
* `RingStream.staysInBounds_iff` : any number of calls.
-/

namespace Maplang

namespace RingStream

/-- An array that bytes are written from. -/
abbrev Source := {source : ByteString // source.length ≤ ptrdiffMax}

/-- A call, for which the caller has an array of the size it names. -/
inductive Operation where
  | Write (buffer : Source)
  | Read (bufferSize : ℕ)
  | Peek (bufferSize : ℕ)
  | Skip (skipByteCount : ℕ)
  | Clear

/-- Make a call: the ring after it. -/
def perform (factory : BufferFactory) (r : RingStream) : Operation → Code RingStream
  | .Write buffer => r.Write factory buffer
  | .Read bufferSize => (r.Read bufferSize).map Prod.snd
  | .Peek bufferSize => (r.Peek bufferSize).map fun _ => r
  | .Skip skipByteCount => (r.Skip skipByteCount).map Prod.snd
  | .Clear => .ok r.Clear

/-- The ring after a call, also if the call throws: nothing has been changed by then. -/
def after (r : RingStream) : Code RingStream → Option RingStream
  | .ok r' => some r'
  | .error (.exception _) => some r
  | .error _ => none

/-- One call after the other, as long as none of them does anything undefined. -/
def machine (factory : BufferFactory) : Machine RingStream Operation where
  step r operation := r.after (r.perform factory operation)

/-- The bounds. -/
def Bounded (r : RingStream) : Prop :=
  r.mLength ≤ r.mBuffer.length ∧ (r.mOffset < r.mBuffer.length ∨ r.mBuffer.length = 0)

/-- A call returns or throws, and the bounds hold after it. -/
def Survives (factory : BufferFactory) (r : RingStream) (operation : Operation) : Prop :=
  ∃ r', (machine factory).step r operation = some r' ∧ r'.Bounded

/-- No call on a new ring does anything undefined or goes on forever, and the bounds hold after
each. -/
def StaysInBounds (factory : BufferFactory) (initialSize : Option ℕ) (operations : List Operation) :
    Prop :=
  match construct factory initialSize with
  | .ok r => r.Bounded ∧ (machine factory).Meets (Survives factory) r operations
  | .error fault => ∃ what, fault = .exception what

/-- A write fills the ring, or it leaves room and the ring does not wrap around, unless there is no
memory to copy it to.  With no capacity, a ring cannot be read, and to skip no bytes of it is a
modulo by zero, too. -/
def Stays (factory : BufferFactory) (r : RingStream) : Operation → Prop
  | .Write buffer => r.mLength + buffer.1.length = r.mBuffer.length ∨
      r.mLength + buffer.1.length < r.mBuffer.length ∧
        (r.mOffset + r.mLength ≤ r.mBuffer.length ∨
          ∃ what, factory.Create (r.mBuffer.length * 2) = .error (.exception what))
  | .Read _ => 0 < r.mBuffer.length
  | .Peek _ => True
  | .Skip skipByteCount => 0 < r.mBuffer.length ∨ 0 < skipByteCount
  | .Clear => True

/-- All calls on a new ring are made in such states. -/
def StepsStay (factory : BufferFactory) (initialSize : Option ℕ) (operations : List Operation) :
    Prop :=
  match construct factory initialSize with
  | .ok r => (machine factory).Meets (Stays factory) r operations
  | .error _ => True

/-- The bounds, and a buffer that is an array of its own. -/
structure Inside (r : RingStream) : Prop where
  allocated : r.mBuffer.Allocated
  bounded : r.Bounded

variable {r r' : RingStream} {factory : BufferFactory} {source : ByteString}

theorem Valid.inside (h : r.Valid) : r.Inside := ⟨h.allocated, h.mLength, .inl h.mOffset⟩

theorem Inside.valid (h : r.Inside) (hcapacity : 0 < r.mBuffer.length) : r.Valid :=
  ⟨h.allocated, hcapacity, h.bounded.2.resolve_right (by omega), h.bounded.1⟩

/-- The length and the size of an array can be added up. -/
theorem Inside.sizeAdd_eq (h : r.Inside) (buffer : Source) :
    sizeAdd r.mLength buffer.1.length = r.mLength + buffer.1.length := by
  have hbuffer := buffer.2
  have hlength := h.bounded.1.trans h.allocated.length_le
  refine Maplang.sizeAdd_eq ?_
  unfold ptrdiffMax sizeMax at *
  omega

/-! ### Writing -/

/-- The loop of `Write` stays inside the buffer and counts all of its bytes, whether there is room
for them or not. -/
theorem writeLoop_spec_any (hallocated : r.mBuffer.Allocated) (hcapacity : 0 < r.mBuffer.length)
    {fuel : ℕ} (hfuel : source.length ≤ fuel) (hsum : r.mLength + source.length ≤ sizeMax) :
    ∃ r', writeLoop fuel r source = .ok r' ∧ r'.mBuffer.Allocated ∧
      r'.mBuffer.length = r.mBuffer.length ∧ r'.mOffset = r.mOffset ∧
      r'.mLength = r.mLength + source.length := by
  induction fuel generalizing r source with
  | zero =>
    obtain rfl : source = [] := List.length_eq_zero_iff.1 (by omega)
    exact ⟨r, rfl, hallocated, rfl, rfl, rfl⟩
  | succ fuel ih =>
    by_cases hdone : source = []
    · subst hdone
      exact ⟨r, if_pos rfl, hallocated, rfl, rfl, rfl⟩
    have hmemory := hallocated.length_memory
    have hnonempty := List.length_pos_iff.2 hdone
    have hinside := Nat.mod_lt (sizeAdd r.mOffset r.mLength) hcapacity
    generalize hunused : sizeAdd r.mOffset r.mLength % r.mBuffer.length = unused at hinside
    generalize hcopy : min (r.mBuffer.length - unused) source.length = copy
    rw [writeLoop_step hallocated hcapacity hdone hsum hunused hcopy]
    have htake : (source.take copy).length = copy := by
      rw [List.length_take]
      omega
    have hoverwrite : (Ring.overwrite r.mBuffer.memory unused (source.take copy)).length =
        r.mBuffer.length := by
      rw [Ring.length_overwrite (by omega), hmemory]
    have hdrop : (source.drop copy).length = source.length - copy := List.length_drop
    obtain ⟨r', hr', hallocated', hlength, hoffset, hcount⟩ := @ih
      { r with
        mBuffer := { r.mBuffer with
          data := some (Ring.overwrite r.mBuffer.memory unused (source.take copy)) }
        mLength := r.mLength + copy } (source.drop copy)
      ⟨hoverwrite, hallocated.length_le⟩ hcapacity (by omega)
      (by show r.mLength + copy + _ ≤ _; omega)
    refine ⟨r', hr', hallocated', hlength, hoffset, hcount.trans ?_⟩
    show r.mLength + copy + _ = _
    omega

/-- With room for its bytes, the loop keeps a ring inside its buffer. -/
theorem writeLoop_inside (h : r.Inside) (hcapacity : 0 < r.mBuffer.length)
    (hroom : r.mLength + source.length ≤ r.mBuffer.length) :
    ∃ r', writeLoop source.length r source = .ok r' ∧ r'.Inside := by
  have hsize := h.allocated.length_le
  obtain ⟨r', hr', hallocated, hlength, hoffset, hcount⟩ :=
    @writeLoop_spec_any r source h.allocated hcapacity _ (Nat.le_refl _)
      (by unfold ptrdiffMax sizeMax at *; omega)
  refine ⟨r', hr', hallocated, ?_, .inl ?_⟩
  · rw [hcount, hlength]
    exact hroom
  · rw [hoffset, hlength]
    exact (h.valid hcapacity).mOffset

/-- A write that leaves room. -/
theorem Write_of_lt (h : r.Inside) {buffer : Source}
    (hless : r.mLength + buffer.1.length < r.mBuffer.length) :
    r.Write factory buffer =
      (r.ResizeBuffer factory (r.mLength + buffer.1.length)).bind fun r =>
        writeLoop buffer.1.length r buffer := by
  rw [Write, h.sizeAdd_eq]
  simp only [if_pos hless]
  rfl

/-- A write that leaves none. -/
theorem Write_of_le (h : r.Inside) {buffer : Source}
    (hmore : r.mBuffer.length ≤ r.mLength + buffer.1.length) :
    r.Write factory buffer = writeLoop buffer.1.length r buffer := by
  rw [Write, h.sizeAdd_eq]
  simp only [if_neg (Nat.not_lt.2 hmore)]
  rfl

/-- **A write that is safe** returns a ring inside its buffer, or throws. -/
theorem Write_inside (h : r.Inside) {buffer : Source} (hstays : Stays factory r (.Write buffer)) :
    (∃ r', r.Write factory buffer = .ok r' ∧ r'.Inside) ∨
      ∃ what, r.Write factory buffer = .error (.exception what) := by
  rcases hstays with hfull | ⟨hless, hcopied⟩
  · rw [Write_of_le h hfull.ge]
    by_cases hcapacity : 0 < r.mBuffer.length
    · exact .inl (writeLoop_inside h hcapacity hfull.le)
    · -- nothing is written to a ring with no capacity
      have hnil : buffer.1 = [] := List.length_eq_zero_iff.1 (by omega)
      rw [hnil]
      exact .inl ⟨r, rfl, h⟩
  · have hcapacity : 0 < r.mBuffer.length := by omega
    have hvalid := h.valid hcapacity
    rw [Write_of_lt h hless]
    rcases hcopied with hwrap | ⟨what, hcreate⟩
    · rcases ResizeBuffer_eq factory hvalid hless.le hwrap with
        ⟨r', hresize, rfl⟩ | ⟨bufferSize, what, -, hresize⟩
      · rw [hresize]
        exact .inl (writeLoop_inside ⟨h.allocated, h.bounded.1, .inl hcapacity⟩ hcapacity hless.le)
      · rw [hresize]
        exact .inr ⟨what, rfl⟩
    · refine .inr ⟨what, ?_⟩
      rw [ResizeBuffer_error (doubleLoop_eq h.allocated.length_le hless.le) hcreate]
      rfl

/-- **A write that is not** does something undefined, or leaves the ring overfull. -/
theorem Write_overruns (h : r.Inside) {buffer : Source}
    (hstays : ¬ Stays factory r (.Write buffer)) :
    r.Write factory buffer = .error .undefinedBehaviour ∨
      ∃ r', r.Write factory buffer = .ok r' ∧ r'.mBuffer.length < r'.mLength := by
  obtain ⟨hne, hnot⟩ := not_or.1 hstays
  rcases Nat.lt_or_gt_of_ne hne with hless | hmore
  · obtain ⟨hwrap, hcreate⟩ := not_or.1 fun hcopied => hnot ⟨hless, hcopied⟩
    have hvalid := h.valid (by omega)
    left
    rw [Write_of_lt h hless]
    cases hnew : factory.Create (r.mBuffer.length * 2) with
    | error fault =>
      obtain ⟨what, rfl⟩ := factory.create_error hnew
      exact absurd ⟨what, hnew⟩ hcreate
    | ok newBuffer =>
      rw [ResizeBuffer_wrapped hvalid (doubleLoop_eq h.allocated.length_le hless.le) le_rfl
        (by omega) hnew]
      rfl
  · rw [Write_of_le h hmore.le]
    by_cases hcapacity : 0 < r.mBuffer.length
    · have hbuffer := buffer.2
      have hlength := h.bounded.1.trans h.allocated.length_le
      obtain ⟨r', hr', -, hsame, -, hcount⟩ :=
        @writeLoop_spec_any r buffer h.allocated hcapacity _ (Nat.le_refl _)
          (by unfold ptrdiffMax sizeMax at *; omega)
      exact .inr ⟨r', hr', by omega⟩
    · -- the first byte is written at an offset modulo zero
      have hempty := h.bounded.1
      obtain ⟨first, rest, hcons⟩ := List.exists_cons_of_length_pos
        (show 0 < buffer.1.length by omega)
      left
      rw [hcons, List.length_cons, writeLoop, if_neg (List.cons_ne_nil _ _), if_pos (by omega)]

/-! ### Calls -/

theorem Peek_of_zero (h : r.Inside) (hcapacity : ¬ 0 < r.mBuffer.length) (bufferSize : ℕ) :
    r.Peek bufferSize = .ok [] := by
  have hempty := h.bounded.1
  rw [Peek, show min r.mLength bufferSize = 0 by omega]
  rfl

theorem Read_of_zero (h : r.Inside) (hcapacity : ¬ 0 < r.mBuffer.length) (bufferSize : ℕ) :
    r.Read bufferSize = .error .undefinedBehaviour := by
  rw [Read, Peek_of_zero h hcapacity]
  exact if_pos (Nat.eq_zero_of_not_pos hcapacity)

/-- **A safe call** leaves a ring inside its buffer. -/
theorem step_of_stays (h : r.Inside) {operation : Operation} (hstays : r.Stays factory operation) :
    ∃ r', (machine factory).step r operation = some r' ∧ r'.Inside := by
  change ∃ r', r.after (r.perform factory operation) = some r' ∧ r'.Inside
  cases operation with
  | Write buffer =>
    rcases Write_inside h hstays with ⟨r', hwrite, hinside⟩ | ⟨what, hwrite⟩
    · exact ⟨r', by rw [perform, hwrite]; rfl, hinside⟩
    · exact ⟨r, by rw [perform, hwrite]; rfl, h⟩
  | Read bufferSize =>
    obtain ⟨r', hread, hvalid, -⟩ := Read_spec (h.valid hstays) bufferSize
    exact ⟨r', by rw [perform, hread]; rfl, hvalid.inside⟩
  | Peek bufferSize =>
    refine ⟨r, ?_, h⟩
    by_cases hcapacity : 0 < r.mBuffer.length
    · rw [perform, Peek_spec (h.valid hcapacity)]
      rfl
    · rw [perform, Peek_of_zero h hcapacity]
      rfl
  | Skip skipByteCount =>
    by_cases hall : r.mLength < skipByteCount
    · refine ⟨{ r with mOffset := 0, mLength := 0 }, by rw [perform, Skip_of_lt hall]; rfl,
        h.allocated, Nat.zero_le _, ?_⟩
      show 0 < r.mBuffer.length ∨ r.mBuffer.length = 0
      omega
    · have hempty := h.bounded.1
      have hvalid := h.valid (hstays.elim id (by omega))
      exact ⟨_, by rw [perform, Skip_of_le hvalid (Nat.le_of_not_lt hall)]; rfl,
        (hvalid.moveOffset skipByteCount).inside⟩
  | Clear =>
    refine ⟨r.Clear, rfl, h.allocated, Nat.zero_le _, ?_⟩
    show 0 < r.mBuffer.length ∨ r.mBuffer.length = 0
    omega

/-- **An unsafe call** does something undefined, or leaves a ring out of its bounds. -/
theorem not_bounded_of_not_stays (h : r.Inside) {operation : Operation}
    (hstays : ¬ r.Stays factory operation)
    (hstep : (machine factory).step r operation = some r') : ¬ r'.Bounded := by
  change r.after (r.perform factory operation) = some r' at hstep
  cases operation with
  | Write buffer =>
    rcases Write_overruns h hstays with hwrite | ⟨r₁, hwrite, hover⟩
    · rw [perform, hwrite] at hstep
      cases hstep
    · rw [perform, hwrite] at hstep
      obtain rfl := Option.some.inj hstep
      exact fun hbounded => absurd hbounded.1 (Nat.not_le.2 hover)
  | Read bufferSize =>
    rw [perform, Read_of_zero h hstays] at hstep
    cases hstep
  | Peek bufferSize => exact absurd trivial hstays
  | Skip skipByteCount =>
    obtain ⟨hcapacity, hcount⟩ := not_or.1 hstays
    rw [perform, Skip, if_neg (by omega), if_pos (Nat.eq_zero_of_not_pos hcapacity)] at hstep
    cases hstep
  | Clear => exact absurd trivial hstays

/-! ### Runs -/

/-- A new ring is inside its buffer, whatever its size. -/
theorem construct_inside (factory : BufferFactory) (initialSize : Option ℕ) :
    factory.Ensures (construct factory initialSize) Inside := by
  refine (factory.ensures_create _).bind fun mBuffer _ ⟨_, hallocated⟩ =>
    .ok ⟨hallocated, Nat.zero_le _, ?_⟩
  show 0 < mBuffer.length ∨ mBuffer.length = 0
  omega

/-- **A ring stream overruns its buffer** in just those runs in which some call is unsafe: a write
of more bytes than there is room for, a write that leaves room in a ring that wraps around, or a
call that takes a modulo of a capacity of zero. -/
theorem staysInBounds_iff (factory : BufferFactory) (initialSize : Option ℕ)
    (operations : List Operation) :
    StaysInBounds factory initialSize operations ↔ StepsStay factory initialSize operations := by
  rw [StaysInBounds, StepsStay]
  rcases construct_inside factory initialSize with
    ⟨r, hnew, hinside⟩ | ⟨bufferSize, what, -, hnew⟩
  · rw [hnew]
    refine (and_iff_right hinside.bounded).trans
      (Machine.meets_congr (I := Inside) (fun r operation h => ⟨?_, ?_⟩)
        (fun r operation r' h hstays hstep => ?_) hinside operations)
    · rintro ⟨r', hstep, hbounded⟩
      by_contra hstays
      exact not_bounded_of_not_stays h hstays hstep hbounded
    · intro hstays
      obtain ⟨r', hstep, hinside'⟩ := step_of_stays h hstays
      exact ⟨r', hstep, hinside'.bounded⟩
    · obtain ⟨u, hu, hinside'⟩ := step_of_stays h hstays
      obtain rfl := Option.some.inj (hu.symm.trans hstep)
      exact hinside'
  · rw [hnew]
    exact ⟨fun _ => trivial, fun _ => ⟨what, rfl⟩⟩

/-- The byte `1`. -/
def oneByte : Source := ⟨[1], by decide⟩

/-- A write to a ring with no capacity takes a modulo by zero. -/
theorem not_staysInBounds : ¬ ∀ (factory : BufferFactory) (initialSize : Option ℕ)
    (operations : List Operation), StaysInBounds factory initialSize operations := by
  intro h
  obtain ⟨-, ⟨r', hstep, -⟩, -⟩ := h .zeros (some 0) [.Write oneByte]
  cases hstep

end RingStream

end Maplang
