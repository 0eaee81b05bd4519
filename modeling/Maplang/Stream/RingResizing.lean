import Maplang.Stream.RingStream

/-!
# Resizing a ring stream

`ResizeBuffer` is meant to move the bytes of a ring to a larger buffer.  A ring that does not wrap
around is copied to the new buffer, but the two buffers are swapped twice, so that the old one is
kept, with the offset of the new one.  The tail of a ring that wraps around is copied behind the end
of the old buffer.

## Main definitions

* `RingStream.PreservesRing` : what the resizing is meant to do.
* `RingStream.DoubledTo` : the size of the new buffer.
* `RingStream.KeptInPlace` : the rings which the old buffer still holds at its beginning.

## Main results

* `RingStream.doubleLoop_spec` : the loop ends, with a size that is large enough.
* `RingStream.preservesRing_iff` : when the resizing does what it is meant to.
-/

namespace Maplang

namespace RingStream

/-- The resizing ends with a ring of the same bytes in a buffer that is large enough, or throws for
lack of memory; a copy that leaves a buffer would be undefined. -/
def PreservesRing (factory : BufferFactory) (r : RingStream) (minimumBufferSize : ℕ) : Prop :=
  factory.Ensures (r.ResizeBuffer factory minimumBufferSize) fun r' =>
    minimumBufferSize ≤ r'.mBuffer.length ∧ r'.mLength = r.mLength ∧ r'.contents = r.contents ∧
      r'.mOffset < r'.mBuffer.length

/-- The first of the sizes `2 * capacity`, `4 * capacity`, ... that is no less than the minimum. -/
def DoubledTo (capacity minimumBufferSize size : ℕ) : Prop :=
  ∃ k, size = capacity * 2 ^ (k + 1) ∧ minimumBufferSize ≤ size ∧
    ∀ j < k, capacity * 2 ^ (j + 1) < minimumBufferSize

/-- The old buffer is large enough, the ring does not wrap around in it, and its bytes are the first
ones of the buffer, too. -/
def KeptInPlace (r : RingStream) (minimumBufferSize : ℕ) : Prop :=
  minimumBufferSize ≤ r.mBuffer.length ∧ r.mOffset + r.mLength ≤ r.mBuffer.length ∧
    r.mBuffer.memory.take r.mLength = (r.mBuffer.memory.drop r.mOffset).take r.mLength

variable {r : RingStream} {factory : BufferFactory}

/-! ### The new size -/

/-- The doubled sizes grow, so that only one of them is the first that is large enough. -/
theorem DoubledTo.unique {capacity minimumBufferSize size size' : ℕ}
    (h : DoubledTo capacity minimumBufferSize size)
    (h' : DoubledTo capacity minimumBufferSize size') : size = size' := by
  obtain ⟨k, rfl, hlarge, hsmall⟩ := h
  obtain ⟨k', rfl, hlarge', hsmall'⟩ := h'
  rcases Nat.lt_trichotomy k k' with hlt | rfl | hgt
  · exact absurd (hsmall' k hlt) (Nat.not_lt.2 hlarge)
  · rfl
  · exact absurd (hsmall k' hgt) (Nat.not_lt.2 hlarge')

theorem DoubledTo.mul_two_le {capacity minimumBufferSize size : ℕ}
    (h : DoubledTo capacity minimumBufferSize size) : capacity * 2 ≤ size := by
  obtain ⟨k, rfl, -⟩ := h
  rw [Nat.pow_succ]
  exact Nat.mul_le_mul_left capacity (Nat.le_mul_of_pos_left 2 (Nat.two_pow_pos k))

/-- **The loop ends.**  No product wraps around, since only sizes below the minimum are doubled
again. -/
theorem doubleLoop_spec {capacity minimumBufferSize fuel : ℕ} (hcapacity : capacity ≤ ptrdiffMax)
    (hminimum : minimumBufferSize < 2 ^ 62)
    (hfuel : minimumBufferSize ≤ capacity * 2 ^ (fuel + 1)) :
    ∃ size, doubleLoop minimumBufferSize (fuel + 1) capacity = .ok size ∧
      DoubledTo capacity minimumBufferSize size := by
  induction fuel generalizing capacity with
  | zero =>
    refine ⟨capacity * 2, ?_, 0, by rw [Nat.pow_one], by simpa using hfuel, by simp⟩
    rw [doubleLoop, sizeMul_eq (by unfold ptrdiffMax sizeMax at *; omega)]
    exact if_neg (by rw [Nat.pow_one] at hfuel; omega)
  | succ fuel ih =>
    rw [doubleLoop, sizeMul_eq (by unfold ptrdiffMax sizeMax at *; omega)]
    by_cases hless : capacity * 2 < minimumBufferSize
    · have hagain : ∀ j, capacity * 2 * 2 ^ (j + 1) = capacity * 2 ^ (j + 1 + 1) := fun j => by
        rw [Nat.pow_succ 2 (j + 1), Nat.mul_assoc, Nat.mul_comm 2]
      obtain ⟨size, hsize, k, rfl, hlarge, hsmall⟩ :=
        @ih (capacity * 2) (by unfold ptrdiffMax; omega) (by rwa [hagain])
      refine ⟨_, (if_pos hless).trans hsize, k + 1, hagain k, hlarge, fun j hj => ?_⟩
      cases j with
      | zero => simpa using hless
      | succ j => rw [← hagain]; exact hsmall j (by omega)
    · exact ⟨capacity * 2, if_neg hless, 0, by rw [Nat.pow_one], by omega, by simp⟩

/-- A capacity of at least one is doubled to any minimum below `2 ^ 62` in the 65 rounds. -/
theorem Valid.doubleLoop_spec (h : r.Valid) {minimumBufferSize : ℕ}
    (hminimum : minimumBufferSize < 2 ^ 62) :
    ∃ size, doubleLoop minimumBufferSize 65 r.mBuffer.length = .ok size ∧
      DoubledTo r.mBuffer.length minimumBufferSize size := by
  refine RingStream.doubleLoop_spec h.allocated.length_le hminimum ?_
  have hpos := h.capacity
  calc minimumBufferSize ≤ 1 * 2 ^ (64 + 1) := by omega
    _ ≤ r.mBuffer.length * 2 ^ (64 + 1) := Nat.mul_le_mul_right _ hpos

/-! ### When the ring is preserved -/

/-- The bytes of a ring that does not wrap around. -/
theorem contents_unwrapped (h : r.Valid) (hwrap : r.mOffset + r.mLength ≤ r.mBuffer.length) :
    r.contents = (r.mBuffer.memory.drop r.mOffset).take r.mLength := by
  have hmOffset := h.mOffset
  have hmemory := h.memory
  rw [contents, Ring.window, List.rotate_eq_drop_append_take (by omega),
    List.take_append_of_le_length (by rw [List.length_drop]; omega)]

/-- **Resizing preserves a ring** exactly if the old buffer will do, or there is no memory for the
new one. -/
theorem preservesRing_iff (factory : BufferFactory) (h : r.Valid) {minimumBufferSize : ℕ}
    (hminimum : minimumBufferSize < 2 ^ 62) :
    PreservesRing factory r minimumBufferSize ↔
      (∃ size what, DoubledTo r.mBuffer.length minimumBufferSize size ∧
        factory.Create size = .error (.exception what)) ∨
      KeptInPlace r minimumBufferSize := by
  obtain ⟨size, hsize, hdoubled⟩ := h.doubleLoop_spec hminimum
  cases hcreate : factory.Create size with
  | error fault =>
    obtain ⟨what, rfl⟩ := factory.create_error hcreate
    exact iff_of_true (.inr ⟨size, what, hcreate, ResizeBuffer_error hsize hcreate⟩)
      (.inl ⟨size, what, hdoubled, hcreate⟩)
  | ok newBuffer =>
    have hnone : ¬ ∃ size what, DoubledTo r.mBuffer.length minimumBufferSize size ∧
        factory.Create size = .error (.exception what) := by
      rintro ⟨size', what, hdoubled', hthrown⟩
      rw [hdoubled'.unique hdoubled, hcreate] at hthrown
      cases hthrown
    rw [or_iff_right hnone]
    by_cases hwrap : r.mOffset + r.mLength ≤ r.mBuffer.length
    · have hresize := ResizeBuffer_unwrapped h hsize hdoubled.mul_two_le hwrap hcreate
      have hstart : RingStream.contents { r with mOffset := 0 } =
          r.mBuffer.memory.take r.mLength :=
        contents_unwrapped ⟨h.allocated, h.capacity, h.capacity, h.mLength⟩
          (by rw [Nat.zero_add]; exact h.mLength)
      rw [PreservesRing, hresize, KeptInPlace, ← contents_unwrapped h hwrap, ← hstart]
      constructor
      · rintro (⟨_, ⟨⟩, hlarge, -, hcontents, -⟩ | ⟨_, _, -, ⟨⟩⟩)
        exact ⟨hlarge, hwrap, hcontents⟩
      · rintro ⟨hlarge, -, hcontents⟩
        exact .ok ⟨hlarge, rfl, hcontents, h.capacity⟩
    · rw [PreservesRing,
        ResizeBuffer_wrapped h hsize hdoubled.mul_two_le (Nat.lt_of_not_le hwrap) hcreate]
      refine iff_of_false ?_ fun hkept => hwrap hkept.2.1
      rintro (⟨_, ⟨⟩, -⟩ | ⟨_, _, -, ⟨⟩⟩)

/-- A ring at the beginning of its buffer. -/
theorem preservesRing_iff_start :
    PreservesRing .zeros ⟨.ofBytes [1, 2, 3], 0, 2⟩ 3 ↔
      (∃ size what, DoubledTo 3 3 size ∧
        BufferFactory.zeros.Create size = .error (.exception what)) ∨
      KeptInPlace ⟨.ofBytes [1, 2, 3], 0, 2⟩ 3 :=
  preservesRing_iff .zeros
    ⟨⟨rfl, by decide⟩, by decide, by decide, by decide⟩ (by decide)

/-- The buffer does not grow. -/
theorem not_preservesRing : ¬ ∀ (factory : BufferFactory) (r : RingStream) (minimumBufferSize : ℕ),
    r.Valid → minimumBufferSize < 2 ^ 62 → PreservesRing factory r minimumBufferSize := by
  intro hall
  have hpreserves := hall .zeros ⟨.ofBytes [1], 0, 1⟩ 2
    ⟨⟨rfl, by decide⟩, by decide, by decide, by decide⟩ (by decide)
  have hresize : RingStream.ResizeBuffer .zeros ⟨.ofBytes [1], 0, 1⟩ 2 =
      .ok ⟨.ofBytes [1], 0, 1⟩ := rfl
  rw [PreservesRing, hresize] at hpreserves
  rcases hpreserves with ⟨_, ⟨⟩, hlarge, -⟩ | ⟨_, _, -, ⟨⟩⟩
  exact absurd hlarge (by decide)

end RingStream

end Maplang
