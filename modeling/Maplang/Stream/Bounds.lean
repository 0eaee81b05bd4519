import Mathlib.Data.Nat.Digits.Defs
import Maplang.Stream.Windows

/-!
# The bounds checks of a memory stream

`equals` and `readBigEndian` add an offset and a length before they compare the sum with the size of
the stream.  The sum wraps around, and then the check is passed by a range that begins behind the
end of the stream.

## Main definitions

* `MemoryStream.equalsAnywhere` : `equals` for any offset, with sums that wrap around.
* `MemoryStream.EqualsExact`, `MemoryStream.ReadsExact` : what the checks should lead to.

## Main results

* `MemoryStream.equalsAnywhere_eq` : it is `equals` where the sum does not wrap around.
* `MemoryStream.boundsChecked_iff` : the offsets for which the checks do what they should.
-/

namespace Maplang

namespace MemoryStream

variable {s : MemoryStream} {bs : ByteString}

/-- The loop of `equals`, from `compareIndex` on. -/
def equalsLoop (s : MemoryStream) (streamOffset : ℕ) : ℕ → ByteString → Code Bool
  | _, [] => .ok true
  | compareIndex, byte :: data => do
    if byte ≠ (← s.byteAt (sizeAdd streamOffset compareIndex)) then return false
    else equalsLoop s streamOffset (compareIndex + 1) data

/-- `MemoryStream::equals`, for any offset: both of its sums wrap around. -/
def equalsAnywhere (s : MemoryStream) (data : ByteString) (streamOffset : ℕ) : Code Bool :=
  if s.mSize < sizeAdd streamOffset data.length then .ok false
  else s.equalsLoop streamOffset 0 data

/-- Without a wrap the loop is the one of `equals`. -/
theorem equalsLoop_eq (s : MemoryStream) {streamOffset : ℕ} (data : ByteString) (compareIndex : ℕ)
    (hsum : streamOffset + compareIndex + data.length < 2 ^ 64) :
    s.equalsLoop streamOffset compareIndex data =
      s.equalsFrom (streamOffset + compareIndex) data := by
  induction data generalizing compareIndex with
  | nil => rfl
  | cons byte data ih =>
    rw [List.length_cons] at hsum
    rw [equalsLoop, equalsFrom, sizeAdd_eq (by unfold sizeMax; omega), ih _ (by omega),
      Nat.add_assoc]

theorem equalsAnywhere_eq (s : MemoryStream) {data : ByteString} {streamOffset : ℕ}
    (hsum : streamOffset + data.length < 2 ^ 64) :
    s.equalsAnywhere data streamOffset = s.equals data streamOffset := by
  rw [equalsAnywhere, equals, sizeAdd_eq (by unfold sizeMax; omega),
    equalsLoop_eq s data 0 (by omega), Nat.add_zero]

/-! ### Comparing -/

/-- `equals` says whether the bytes are there, and does not throw. -/
def EqualsExact (s : MemoryStream) (bs data : ByteString) (streamOffset : ℕ) : Prop :=
  s.equalsAnywhere data streamOffset = .ok (decide
    (streamOffset + data.length ≤ bs.length ∧ (bs.drop streamOffset).take data.length = data))

/-- A range that goes behind the end of the stream is compared up to the end; what comes next is a
byte that is not there. -/
theorem equalsLoop_behind (h : s.Valid) {streamOffset : ℕ} (hoffset : streamOffset < 2 ^ 64)
    (hsize : s.contents.length < 2 ^ 64) (data : ByteString) (compareIndex : ℕ)
    (hindex : streamOffset + compareIndex ≤ max streamOffset s.contents.length)
    (hbehind : max streamOffset s.contents.length < streamOffset + compareIndex + data.length) :
    s.equalsLoop streamOffset compareIndex data =
      if s.contents.drop (streamOffset + compareIndex) <+: data then
        throwRuntimeError "Index is out of bounds"
      else .ok false := by
  induction data generalizing compareIndex with
  | nil =>
    rw [List.length_nil] at hbehind
    omega
  | cons byte data ih =>
    rw [List.length_cons] at hbehind
    rw [equalsLoop, sizeAdd_eq (by unfold sizeMax; omega)]
    rcases Nat.lt_or_ge (streamOffset + compareIndex) s.contents.length with hinside | hend
    · rw [byteAt_spec h hinside, List.drop_eq_getElem_cons hinside]
      simp only [bind, Except.bind, pure, Except.pure]
      by_cases hbyte : byte = s.contents[streamOffset + compareIndex]
      · rw [if_neg (not_not_intro hbyte), ih _ (by omega) (by omega), ← hbyte]
        simp only [List.cons_prefix_cons, true_and, Nat.add_assoc]
      · rw [if_pos hbyte, if_neg fun hprefix => hbyte (List.cons_prefix_cons.1 hprefix).1.symm]
    · rw [byteAt_outOfBounds h hend, List.drop_of_length_le hend, if_pos List.nil_prefix]
      rfl

theorem Built.length_lt (h : Built s bs) : bs.length < 2 ^ 64 := by
  induction h with
  | empty => decide
  | append _ _ hsum _ ih =>
    rw [List.length_append, Buffer.contents, List.length_take]
    omega
  | clear => decide
  | subStream _ _ ih =>
    rw [between, List.length_drop, List.length_take]
    omega

/-- **`equals` is exact** exactly if its sum does not wrap around, or wraps to a number that is too
large all the same, or the bytes differ before the end of the stream is reached. -/
theorem equalsExact_iff (h : Built s bs) {data : ByteString} {streamOffset : ℕ}
    (hoffset : streamOffset < 2 ^ 64) (hdata : data.length < 2 ^ 64) :
    EqualsExact s bs data streamOffset ↔ streamOffset + data.length < 2 ^ 64 ∨
      bs.length < streamOffset + data.length - 2 ^ 64 ∨ ¬ bs.drop streamOffset <+: data := by
  have hsize := h.length_lt
  obtain ⟨hvalid, rfl⟩ := h.valid
  rcases Nat.lt_or_ge (streamOffset + data.length) (2 ^ 64) with hsum | hwrap
  · refine iff_of_true ?_ (.inl hsum)
    rw [EqualsExact, equalsAnywhere_eq s hsum]
    rcases Nat.lt_or_ge s.contents.length (streamOffset + data.length) with hlong | hinside
    · rw [equals, hvalid.mSize, if_pos hlong, decide_eq_false fun h => absurd h.1 (by omega)]
    · rw [equals_spec hvalid data (by omega)]
      simp only [hinside, true_and, List.prefix_iff_eq_take, eq_comm]
  -- a range that ends behind `SIZE_MAX` is not in the stream
  have hexpected : decide (streamOffset + data.length ≤ s.contents.length ∧
      (s.contents.drop streamOffset).take data.length = data) = false :=
    decide_eq_false fun hinside => absurd hinside.1 (by omega)
  have hsum : sizeAdd streamOffset data.length = streamOffset + data.length - 2 ^ 64 := by
    rw [sizeAdd]
    omega
  rw [EqualsExact, hexpected, equalsAnywhere, hvalid.mSize, hsum]
  by_cases hlarge : s.contents.length < streamOffset + data.length - 2 ^ 64
  · rw [if_pos hlarge]
    exact iff_of_true rfl (.inr (.inl hlarge))
  rw [if_neg hlarge, equalsLoop_behind hvalid hoffset hsize data 0 (by omega) (by omega),
    Nat.add_zero]
  by_cases hprefix : s.contents.drop streamOffset <+: data
  · rw [if_pos hprefix]
    constructor
    · intro hthrown
      cases hthrown
    · rintro (hsmall | hlarge' | hdiffers)
      · omega
      · exact absurd hlarge' hlarge
      · exact absurd hprefix hdiffers
  · rw [if_neg hprefix]
    exact iff_of_true rfl (.inr (.inr hprefix))

/-! ### Reading a number -/

/-- The number that bytes stand for, the most significant one first. -/
def bigEndianValue (bs : ByteString) : ℕ := Nat.ofDigits (2 ^ 8) (bs.reverse.map UInt8.toNat)

/-- The code's loop computes the number of up to eight bytes: nothing is shifted out. -/
theorem bigEndian_eq (bs : ByteString) (hlength : bs.length ≤ 8) :
    bigEndian bs = bigEndianValue bs ∧ bigEndianValue bs < (2 ^ 8) ^ bs.length := by
  induction bs using List.reverseRecOn with
  | nil => exact ⟨rfl, by decide⟩
  | append_singleton bs byte ih =>
    rw [List.length_append, List.length_singleton] at hlength ⊢
    obtain ⟨hvalue, hlt⟩ := ih (by omega)
    have hbyte := byte.toNat_lt
    have hseven : (2 ^ 8 : ℕ) ^ bs.length ≤ (2 ^ 8) ^ 7 :=
      Nat.pow_le_pow_right (by decide) (by omega)
    have hnext : bigEndianValue (bs ++ [byte]) = byte.toNat + 2 ^ 8 * bigEndianValue bs := by
      rw [bigEndianValue, List.reverse_concat, List.map_cons, Nat.ofDigits_cons]
      rfl
    have hstep : bigEndian (bs ++ [byte]) = bigEndian bs * 2 ^ 8 % 2 ^ 64 + byte.toNat := by
      rw [bigEndian, List.foldl_concat, bigEndian]
    refine ⟨?_, ?_⟩
    · rw [hstep, hnext, hvalue, Nat.mod_eq_of_lt (by omega)]
      omega
    · rw [hnext, pow_succ (2 ^ 8) bs.length]
      generalize (2 ^ 8 : ℕ) ^ bs.length = bound at hlt ⊢
      omega

/-- `readBigEndian` throws exactly if the eight bytes are not all there; otherwise it reads them. -/
structure ReadsExact (s : MemoryStream) (bs : ByteString) (streamOffset : ℕ) : Prop where
  throws_iff : (∃ what, s.readBigEndian streamOffset = .error (.exception what)) ↔
    bs.length < streamOffset + 8
  value : streamOffset + 8 ≤ bs.length →
    s.readBigEndian streamOffset = .ok (bigEndianValue ((bs.drop streamOffset).take 8))

/-- When the sum wraps around, nothing is read; the array is used as it is. -/
theorem readBigEndian_wrapped {streamOffset : ℕ} (hoffset : streamOffset < 2 ^ 64)
    (hwrap : 2 ^ 64 ≤ streamOffset + 8) (hsmall : streamOffset + 8 - 2 ^ 64 ≤ s.mSize) :
    s.readBigEndian streamOffset = .error .undefinedBehaviour := by
  have hsum : sizeAdd streamOffset 8 = streamOffset + 8 - 2 ^ 64 := by
    rw [sizeAdd]
    omega
  have hnothing : s.visitBuffers streamOffset (some (streamOffset + 8 - 2 ^ 64)) = .ok [] := by
    rw [visitBuffers, if_pos]
    rw [clampEnd, Option.getD_some]
    omega
  have hread : s.read streamOffset 8 (List.replicate 8 0) 8 = .ok (0, List.replicate 8 0) := by
    rw [read, hsum, if_neg (by omega), Nat.min_self, hsum, hnothing]
    rfl
  rw [readBigEndian, hsum, if_neg (by omega), hread]
  rfl

theorem readsExact_iff (h : Built s bs) {streamOffset : ℕ} (hoffset : streamOffset < 2 ^ 64) :
    ReadsExact s bs streamOffset ↔
      streamOffset + 8 < 2 ^ 64 ∨ bs.length < streamOffset + 8 - 2 ^ 64 := by
  have hsize := h.length_lt
  obtain ⟨hvalid, rfl⟩ := h.valid
  have hmSize := hvalid.mSize
  constructor
  · intro hexact
    by_contra hnot
    -- the eight bytes are not there, and nothing is thrown
    obtain ⟨what, hthrown⟩ := hexact.throws_iff.2 (by omega)
    rw [readBigEndian_wrapped hoffset (by omega) (by omega)] at hthrown
    cases hthrown
  · intro hchecked
    rcases Nat.lt_or_ge s.contents.length (streamOffset + 8) with hshort | hinside
    · have hthrown : ∃ what, s.readBigEndian streamOffset = .error (.exception what) :=
        ⟨_, by rw [readBigEndian, if_pos (by rw [sizeAdd]; omega), throwRuntimeError]⟩
      exact ⟨iff_of_true hthrown hshort, fun hle => absurd hle (by omega)⟩
    · have hlength : ((s.contents.drop streamOffset).take 8).length ≤ 8 := List.length_take_le _ _
      have hread := readBigEndian_spec hvalid hsize hinside
      rw [(bigEndian_eq _ hlength).1] at hread
      refine ⟨iff_of_false ?_ (by omega), fun _ => hread⟩
      rintro ⟨what, hthrown⟩
      cases hread.symm.trans hthrown

/-- **The offsets for which the bounds checks do what they should.** -/
theorem boundsChecked_iff (h : Built s bs) {streamOffset : ℕ} (hoffset : streamOffset < 2 ^ 64)
    {data : ByteString} (hdata : data.length < 2 ^ 64) :
    (EqualsExact s bs data streamOffset ↔ streamOffset + data.length < 2 ^ 64 ∨
      bs.length < streamOffset + data.length - 2 ^ 64 ∨ ¬ bs.drop streamOffset <+: data) ∧
    (ReadsExact s bs streamOffset ↔
      streamOffset + 8 < 2 ^ 64 ∨ bs.length < streamOffset + 8 - 2 ^ 64) :=
  ⟨equalsExact_iff h hoffset hdata, readsExact_iff h hoffset⟩

/-- The offset behind every stream. -/
theorem boundsChecked_iff_last :
    (EqualsExact ⟨[.ofBytes (bytes "abc")], 3⟩ (bytes "abc") (bytes "c") sizeMax ↔
      sizeMax + (bytes "c").length < 2 ^ 64 ∨
      (bytes "abc").length < sizeMax + (bytes "c").length - 2 ^ 64 ∨
      ¬ (bytes "abc").drop sizeMax <+: bytes "c") ∧
    (ReadsExact ⟨[.ofBytes (bytes "abc")], 3⟩ (bytes "abc") sizeMax ↔
      sizeMax + 8 < 2 ^ 64 ∨ (bytes "abc").length < sizeMax + 8 - 2 ^ 64) :=
  boundsChecked_iff built_abc (by decide) (by decide)

/-- **The bounds checks wrap around**: a byte behind every stream is compared, and a number is read
where its bytes are not. -/
theorem not_boundsChecked : ¬ ∀ (s : MemoryStream) (bs data : ByteString) (streamOffset : ℕ),
    Built s bs → streamOffset < 2 ^ 64 → data.length < 2 ^ 64 →
      EqualsExact s bs data streamOffset ∧ ReadsExact s bs streamOffset := by
  intro h
  obtain ⟨hequals, -⟩ := h _ _ (bytes "c") sizeMax built_abc (by decide) (by decide)
  have hthrown : (⟨[.ofBytes (bytes "abc")], 3⟩ : MemoryStream).equalsAnywhere (bytes "c") sizeMax =
    throwRuntimeError "Index is out of bounds" := rfl
  rw [EqualsExact, hthrown] at hequals
  cases hequals

end MemoryStream

end Maplang
