import Mathlib.Data.List.Rotate

/-!
# Rings

A list read in a circle: the `length` elements from an offset on, going on at the start when the end
is reached.

## Main definitions

* `Ring.window memory offset length` : the elements of the ring.
* `Ring.overwrite memory position xs` : the memory with `xs` in place.

## Main results

* `Ring.take_window`, `Ring.drop_window` : the first elements, and the others.
* `Ring.take_drop_window` : a piece of the ring that does not wrap is a piece of the memory.
* `Ring.window_overwrite` : elements written after the last one are appended.
-/

namespace Maplang

namespace Ring

variable {α : Type*}

/-- The elements of a ring. -/
def window (memory : List α) (offset length : ℕ) : List α := (memory.rotate offset).take length

/-- Put elements in place of others. -/
def overwrite (memory : List α) (position : ℕ) (xs : List α) : List α :=
  memory.take position ++ xs ++ memory.drop (position + xs.length)

variable {memory xs : List α} {offset length position k : ℕ}

@[simp] theorem window_zero : window memory offset 0 = [] := rfl

theorem length_window (h : length ≤ memory.length) :
    (window memory offset length).length = length := by
  rw [window, List.length_take, List.length_rotate, Nat.min_eq_left h]

theorem length_overwrite (h : position + xs.length ≤ memory.length) :
    (overwrite memory position xs).length = memory.length := by
  simp only [overwrite, List.length_append, List.length_take, List.length_drop]
  omega

theorem getElem?_window (hlength : length ≤ memory.length) (hk : k < length) :
    (window memory offset length)[k]? = memory[(offset + k) % memory.length]? := by
  rw [window, List.getElem?_take, if_pos hk, List.getElem?_rotate (by omega), Nat.add_comm]

/-- An offset that has gone around once. -/
theorem mod_eq_ite (ho : offset < length) (hk : k ≤ length) :
    (offset + k) % length = if offset + k < length then offset + k else offset + k - length := by
  split
  · exact Nat.mod_eq_of_lt ‹_›
  · rw [Nat.mod_eq_sub_mod (by omega), Nat.mod_eq_of_lt (by omega)]

/-- The first elements of a ring. -/
theorem take_window :
    (window memory offset length).take k = window memory offset (min k length) := by
  rw [window, List.take_take, window]

/-- The elements after the first ones. -/
theorem drop_window (hlength : length ≤ memory.length) (hk : k ≤ length) :
    (window memory offset length).drop k =
      window memory ((offset + k) % memory.length) (length - k) := by
  have hrotate : (memory.rotate offset).rotate k =
      (memory.rotate offset).drop k ++ (memory.rotate offset).take k :=
    List.rotate_eq_drop_append_take (by rw [List.length_rotate]; omega)
  rw [window, window, List.rotate_mod, ← List.rotate_rotate, hrotate, List.drop_take,
    List.take_append_of_le_length (by rw [List.length_drop, List.length_rotate]; omega)]

/-- **A piece of a ring that does not wrap** is a piece of the memory. -/
theorem take_drop_window (hlength : length ≤ memory.length) {count : ℕ} (hk : k + count ≤ length)
    (hend : (offset + k) % memory.length + count ≤ memory.length) :
    ((window memory offset length).drop k).take count =
      (memory.drop ((offset + k) % memory.length)).take count := by
  rw [drop_window hlength (by omega), take_window, Nat.min_eq_left (by omega), window,
    List.rotate_eq_drop_append_take (by omega),
    List.take_append_of_le_length (by rw [List.length_drop]; omega)]

theorem getElem?_overwrite (h : position + xs.length ≤ memory.length) (i : ℕ) :
    (overwrite memory position xs)[i]? =
      if position ≤ i ∧ i < position + xs.length then xs[i - position]? else memory[i]? := by
  have htake : (memory.take position).length = position := by
    rw [List.length_take]
    omega
  rw [overwrite, List.append_assoc]
  rcases Nat.lt_or_ge i position with hi | hi
  · rw [List.getElem?_append_left (by omega), List.getElem?_take, if_pos hi, if_neg (by omega)]
  · rw [List.getElem?_append_right (by omega), htake]
    rcases Nat.lt_or_ge i (position + xs.length) with hi' | hi'
    · rw [List.getElem?_append_left (by omega), if_pos ⟨hi, hi'⟩]
    · rw [List.getElem?_append_right (by omega), List.getElem?_drop, if_neg (by omega)]
      congr 1
      omega

/-- **Elements written after the last one are appended.** -/
theorem window_overwrite (ho : offset < memory.length) (hfits : length + xs.length ≤ memory.length)
    (hend : (offset + length) % memory.length + xs.length ≤ memory.length) :
    window (overwrite memory ((offset + length) % memory.length) xs) offset (length + xs.length) =
      window memory offset length ++ xs := by
  have hmemory := length_overwrite hend
  refine List.ext_getElem? fun i => ?_
  rcases Nat.lt_or_ge i (length + xs.length) with hi | hi
  · rw [getElem?_window (by omega) hi, getElem?_overwrite hend, hmemory]
    have hposition := mod_eq_ite ho (show length ≤ memory.length by omega)
    have hindex := mod_eq_ite ho (show i ≤ memory.length by omega)
    rcases Nat.lt_or_ge i length with hold | hnew
    · -- an element that was there before lies outside the elements written
      rw [List.getElem?_append_left (by rw [length_window (by omega)]; exact hold),
        getElem?_window (by omega) hold, if_neg]
      split at hposition <;> split at hindex <;> omega
    -- an element that was written
    · rw [List.getElem?_append_right (by rw [length_window (by omega)]; exact hnew),
        length_window (by omega)]
      have hwritten : (offset + i) % memory.length =
          (offset + length) % memory.length + (i - length) := by
        split at hposition <;> split at hindex <;> omega
      rw [hwritten, if_pos (by omega), Nat.add_sub_cancel_left]
  · rw [List.getElem?_eq_none (by rw [length_window (by omega)]; exact hi),
      List.getElem?_eq_none]
    rw [List.length_append, length_window (by omega)]
    exact hi

end Ring

end Maplang
