import Mathlib.Data.List.Infix
import Mathlib.Data.List.DropRight
import Mathlib.Data.Nat.Find
import Mathlib.Data.Nat.Notation

/-!
# Searching and cutting lists

Where a pattern occurs first in a list, how a list is cut at the occurrences of a separator, and
how it is trimmed.

## Main definitions

* `Search.indexOf? pattern xs` : the first position at which the pattern occurs.
* `Search.indexFrom? pattern xs start` : the first one from a position on.
* `Search.splitAtMost separator cuts xs`, `Search.splitOn separator xs` : the pieces.
* `Search.occurrences pattern xs` : how often the pattern occurs, without overlaps.
* `Search.trim p xs` : what is left without the `p` at both ends.

## Main results

* `Search.indexOf?_eq_some`, `Search.indexOf?_eq_none` : what the search says.
* `Search.length_lt_of_append` : a pattern found only after more elements arrived ends in them.
* `Search.indexFrom?_take` : a pattern is found in a part of a list if it ends there.
* `Search.splitAtMost_stable` : enough cuts are all cuts.
* `Search.splitOn_intercalate`, `Search.intercalate_splitAtMost` : splitting undoes joining, and
  joining undoes splitting.
* `Search.length_splitAtMost` : the number of pieces.
-/

namespace Maplang

namespace Search

variable {α : Type*}

section

variable [DecidableEq α]

/-- The first position at which a pattern occurs. -/
def indexOf? (pattern : List α) : List α → Option ℕ
  | [] => if pattern = [] then some 0 else none
  | x :: xs => if pattern <+: x :: xs then some 0 else (indexOf? pattern xs).map (· + 1)

/-- The first position from `start` on at which a pattern occurs. -/
def indexFrom? (pattern xs : List α) (start : ℕ) : Option ℕ :=
  (indexOf? pattern (xs.drop start)).map (start + ·)

/-- The pieces between separators, with at most so many cuts. -/
def splitAtMost (separator : List α) : ℕ → List α → List (List α)
  | 0, xs => [xs]
  | cuts + 1, xs =>
    match indexOf? separator xs with
    | none => [xs]
    | some n => xs.take n :: splitAtMost separator cuts (xs.drop (n + separator.length))

/-- The pieces between separators. -/
def splitOn (separator xs : List α) : List (List α) := splitAtMost separator xs.length xs

end

/-- Scan a list from left to right for a pattern, after so many elements that are skipped.  What has
been counted is skipped. -/
def scan [DecidableEq α] (pattern : List α) : ℕ → List α → ℕ
  | _, [] => 0
  | skip + 1, _ :: xs => scan pattern skip xs
  | 0, x :: xs =>
    if pattern <+: x :: xs then scan pattern (pattern.length - 1) xs + 1 else scan pattern 0 xs

/-- The number of occurrences of a pattern that do not overlap, found from left to right. -/
def occurrences [DecidableEq α] (pattern xs : List α) : ℕ := scan pattern 0 xs

/-- Drop the elements at both ends that satisfy `p`. -/
def trim (p : α → Bool) (xs : List α) : List α := (xs.dropWhile p).rdropWhile p

/-! ### Where a pattern occurs -/

section

variable {pattern xs ys : List α} {n : ℕ}

theorem infix_iff_exists_drop : pattern <:+: xs ↔ ∃ i, pattern <+: xs.drop i := by
  constructor
  · rintro ⟨before, after, rfl⟩
    exact ⟨before.length, by rw [List.append_assoc, List.drop_left]; exact List.prefix_append _ _⟩
  · rintro ⟨i, hi⟩
    exact hi.isInfix.trans (List.drop_suffix i xs).isInfix

/-- A pattern that occurs at a position ends inside the list. -/
theorem add_length_le (hp : pattern ≠ []) (h : pattern <+: xs.drop n) :
    n + pattern.length ≤ xs.length := by
  have hlength := h.length_le
  have hpos := List.length_pos_iff.2 hp
  rw [List.length_drop] at hlength
  omega

/-- An occurrence that ends in `xs` is there whatever follows. -/
theorem prefix_drop_append_iff (h : n + pattern.length ≤ xs.length) (ys : List α) :
    pattern <+: (xs ++ ys).drop n ↔ pattern <+: xs.drop n := by
  rw [List.drop_append_of_le_length (by omega), List.prefix_iff_eq_take, List.prefix_iff_eq_take,
    List.take_append_of_le_length (by rw [List.length_drop]; omega)]

/-- What occurs in the front of a list ends there. -/
theorem prefix_drop_take_iff (hp : pattern ≠ []) (stop : ℕ) :
    pattern <+: (xs.take stop).drop n ↔ pattern <+: xs.drop n ∧ n + pattern.length ≤ stop := by
  constructor
  · intro h
    have hend := add_length_le hp h
    rw [List.length_take] at hend
    have happend := (prefix_drop_append_iff (by rw [List.length_take]; omega) (xs.drop stop)).2 h
    rw [List.take_append_drop] at happend
    exact ⟨happend, by omega⟩
  · rintro ⟨h, hstop⟩
    have hend := add_length_le hp h
    rw [← List.take_append_drop stop xs] at h
    exact (prefix_drop_append_iff (by rw [List.length_take]; omega) (xs.drop stop)).1 h

/-- A pattern occurs at a position when its first element is there and the rest follows. -/
theorem cons_prefix_drop_iff {p : α} : p :: pattern <+: xs.drop n ↔
    xs[n]? = some p ∧ pattern <+: xs.drop (n + 1) := by
  rcases Nat.lt_or_ge n xs.length with hn | hn
  · rw [List.drop_eq_getElem_cons hn, List.cons_prefix_cons, List.getElem?_eq_getElem hn,
      Option.some.injEq, eq_comm]
  · simp [List.drop_eq_nil_of_le hn, List.getElem?_eq_none hn]

variable [DecidableEq α]

theorem indexOf?_eq_some (hp : pattern ≠ []) : indexOf? pattern xs = some n ↔
    pattern <+: xs.drop n ∧ ∀ i < n, ¬ pattern <+: xs.drop i := by
  induction xs generalizing n with
  | nil => simp [indexOf?, hp, List.prefix_nil]
  | cons x xs ih =>
    rw [indexOf?]
    by_cases hfirst : pattern <+: x :: xs
    · rw [if_pos hfirst]
      constructor
      · rintro ⟨rfl⟩
        exact ⟨by simpa using hfirst, by simp⟩
      · rintro ⟨-, hnone⟩
        cases n with
        | zero => rfl
        | succ n => exact absurd (by simpa using hfirst) (hnone 0 (Nat.succ_pos n))
    · rw [if_neg hfirst]
      cases n with
      | zero => simp [hfirst]
      | succ n =>
        simp only [Option.map_eq_some_iff, Nat.add_right_cancel_iff, exists_eq_right, ih,
          List.drop_succ_cons]
        refine and_congr_right fun _ => ⟨fun h i hi => ?_, fun h i hi => ?_⟩
        · cases i with
          | zero => simpa using hfirst
          | succ i => simpa using h i (by omega)
        · simpa using h (i + 1) (by omega)

theorem indexOf?_eq_none (hp : pattern ≠ []) :
    indexOf? pattern xs = none ↔ ∀ i, ¬ pattern <+: xs.drop i := by
  constructor
  · intro h i hi
    -- the least position at which the pattern occurs would have been found
    have hex : ∃ m, pattern <+: xs.drop m := ⟨i, hi⟩
    classical
    rw [(indexOf?_eq_some hp).2 ⟨Nat.find_spec hex, fun j hj => Nat.find_min hex hj⟩] at h
    cases h
  · intro h
    by_contra hsome
    obtain ⟨m, hm⟩ := Option.ne_none_iff_exists'.1 hsome
    exact h m ((indexOf?_eq_some hp).1 hm).1

theorem indexOf?_eq_none_iff_infix (hp : pattern ≠ []) :
    indexOf? pattern xs = none ↔ ¬ pattern <:+: xs := by
  rw [indexOf?_eq_none hp, infix_iff_exists_drop, not_exists]

theorem indexFrom?_eq_some (hp : pattern ≠ []) {start : ℕ} :
    indexFrom? pattern xs start = some n ↔ start ≤ n ∧ pattern <+: xs.drop n ∧
      ∀ i, start ≤ i → i < n → ¬ pattern <+: xs.drop i := by
  rw [indexFrom?, Option.map_eq_some_iff]
  constructor
  · rintro ⟨m, hm, rfl⟩
    rw [indexOf?_eq_some hp, List.drop_drop] at hm
    refine ⟨Nat.le_add_right _ _, hm.1, fun i hi hlt h => hm.2 (i - start) (by omega) ?_⟩
    rwa [List.drop_drop, Nat.add_sub_cancel' hi]
  · rintro ⟨hle, hn, hfirst⟩
    refine ⟨n - start, (indexOf?_eq_some hp).2 ⟨?_, fun i hi h => ?_⟩, Nat.add_sub_cancel' hle⟩
    · rwa [List.drop_drop, Nat.add_sub_cancel' hle]
    · rw [List.drop_drop] at h
      exact hfirst (start + i) (Nat.le_add_right _ _) (by omega) h

theorem indexFrom?_eq_none (hp : pattern ≠ []) {start : ℕ} :
    indexFrom? pattern xs start = none ↔ ∀ i, start ≤ i → ¬ pattern <+: xs.drop i := by
  rw [indexFrom?, Option.map_eq_none_iff, indexOf?_eq_none hp]
  refine ⟨fun h i hi hstarts => h (i - start) ?_, fun h i => ?_⟩
  · rwa [List.drop_drop, Nat.add_sub_cancel' hi]
  · rw [List.drop_drop]
    exact h _ (Nat.le_add_right _ _)

/-- What occurs somewhere is found there or before. -/
theorem exists_indexFrom?_le (hp : pattern ≠ []) {start : ℕ} (hle : start ≤ n)
    (h : pattern <+: xs.drop n) : ∃ m ≤ n, indexFrom? pattern xs start = some m := by
  cases hfound : indexFrom? pattern xs start with
  | none => exact absurd h ((indexFrom?_eq_none hp).1 hfound n hle)
  | some m =>
    refine ⟨m, ?_, rfl⟩
    by_contra hlt
    exact ((indexFrom?_eq_some hp).1 hfound).2.2 n hle (by omega) h

/-- **A pattern is found in the front of a list if it ends there.** -/
theorem indexFrom?_take (hp : pattern ≠ []) (start stop : ℕ) :
    indexFrom? pattern (xs.take stop) start =
      (indexFrom? pattern xs start).filter fun m => m + pattern.length ≤ stop := by
  refine Option.ext fun m => ?_
  simp only [Option.filter_eq_some_iff, decide_eq_true_eq, indexFrom?_eq_some hp,
    prefix_drop_take_iff hp]
  constructor
  · rintro ⟨hle, ⟨hm, hstop⟩, hfirst⟩
    exact ⟨⟨hle, hm, fun i hi hlt h => hfirst i hi hlt ⟨h, by omega⟩⟩, hstop⟩
  · rintro ⟨⟨hle, hm, hfirst⟩, hstop⟩
    exact ⟨hle, ⟨hm, hstop⟩, fun i hi hlt h => hfirst i hi hlt h.1⟩

/-- A pattern of one element is looked for as that element is. -/
theorem indexOf?_singleton (x : α) (xs : List α) : indexOf? [x] xs = xs.idxOf? x := by
  induction xs with
  | nil => rfl
  | cons y xs ih =>
    rw [indexOf?, List.idxOf?_cons, ih]
    by_cases hxy : x = y
    · simp [hxy]
    · simp [hxy, Ne.symm hxy, List.cons_prefix_cons]

/-- What was found stays where it was found. -/
theorem indexFrom?_append (hp : pattern ≠ []) {start : ℕ}
    (h : indexFrom? pattern xs start = some n) (ys : List α) :
    indexFrom? pattern (xs ++ ys) start = some n := by
  rw [indexFrom?_eq_some hp] at h ⊢
  obtain ⟨hle, hn, hfirst⟩ := h
  have hend := add_length_le hp hn
  refine ⟨hle, (prefix_drop_append_iff hend _).2 hn, fun i hi hlt hstarts => hfirst i hi hlt ?_⟩
  exact (prefix_drop_append_iff (by omega) _).1 hstarts

/-- **A pattern found only after more elements arrived ends in them.** -/
theorem length_lt_of_append (hp : pattern ≠ []) {start : ℕ}
    (hnone : indexFrom? pattern xs start = none)
    (h : indexFrom? pattern (xs ++ ys) start = some n) : xs.length < n + pattern.length := by
  obtain ⟨hle, hn, -⟩ := (indexFrom?_eq_some hp).1 h
  by_contra hlt
  exact (indexFrom?_eq_none hp).1 hnone n hle ((prefix_drop_append_iff (by omega) _).1 hn)

/-- A position at which the pattern does not occur can be skipped. -/
theorem indexFrom?_succ (hp : pattern ≠ []) {start : ℕ} (h : ¬ pattern <+: xs.drop start) :
    indexFrom? pattern xs (start + 1) = indexFrom? pattern xs start := by
  refine Option.ext fun m => ?_
  rw [indexFrom?_eq_some hp, indexFrom?_eq_some hp]
  constructor
  · rintro ⟨hle, hm, hfirst⟩
    refine ⟨by omega, hm, fun i hi hlt => ?_⟩
    rcases Nat.eq_or_lt_of_le hi with rfl | hi
    · exact h
    · exact hfirst i hi hlt
  · rintro ⟨hle, hm, hfirst⟩
    refine ⟨?_, hm, fun i hi hlt => hfirst i (by omega) hlt⟩
    rcases Nat.eq_or_lt_of_le hle with rfl | hle
    · exact absurd hm h
    · exact hle

/-- A later start finds the same when the first occurrence is not before it. -/
theorem indexFrom?_of_le (hp : pattern ≠ []) {start : ℕ} (h : indexOf? pattern xs = some n)
    (hle : start ≤ n) : indexFrom? pattern xs start = some n := by
  obtain ⟨hn, hfirst⟩ := (indexOf?_eq_some hp).1 h
  exact (indexFrom?_eq_some hp).2 ⟨hle, hn, fun i _ hi => hfirst i hi⟩

/-- A pattern does not occur where its first element does not. -/
theorem indexOf?_cons_of_ne {p x : α} (h : p ≠ x) :
    indexOf? (p :: pattern) (x :: xs) = (indexOf? (p :: pattern) xs).map (· + 1) := by
  rw [indexOf?, if_neg (by simp [List.cons_prefix_cons, h])]

end

/-- A pattern is not found before its first element is. -/
theorem indexOf?_append_of_notMem [DecidableEq α] {p : α} {pattern xs : List α} (h : p ∉ xs)
    (ys : List α) : indexOf? (p :: pattern) (xs ++ ys) =
      (indexOf? (p :: pattern) ys).map (xs.length + ·) := by
  induction xs with
  | nil => simp
  | cons x xs ih =>
    rw [List.mem_cons, not_or] at h
    rw [List.cons_append, indexOf?_cons_of_ne h.1, ih h.2, Option.map_map]
    congr 1
    funext n
    simp only [Function.comp_apply, List.length_cons]
    omega

theorem indexOf?_of_notMem [DecidableEq α] {p : α} {pattern xs : List α} (h : p ∉ xs) :
    indexOf? (p :: pattern) xs = none := by
  rw [← List.append_nil xs, indexOf?_append_of_notMem h]
  simp [indexOf?]

/-- What comes after the last separator. -/
theorem eq_of_append_cons [DecidableEq α] {s : α} {xs ys last last' : List α} (h : s ∉ last)
    (h' : s ∉ last') (heq : xs ++ s :: last = ys ++ s :: last') : last = last' := by
  have hlast : ∀ {zs last : List α}, s ∉ last →
      (zs ++ s :: last).reverse.takeWhile (· ≠ s) = last.reverse := by
    intro zs last hnot
    rw [List.reverse_append, List.reverse_cons, List.append_assoc, List.takeWhile_append_of_pos]
    · simp
    · intro x hx
      rw [List.mem_reverse] at hx
      refine decide_eq_true fun heq => hnot ?_
      rwa [← heq]
  rw [← List.reverse_inj, ← hlast h, heq, hlast h']

/-! ### Counting -/

section

variable [DecidableEq α] {pattern xs : List α}

theorem scan_eq (skip : ℕ) (xs : List α) :
    scan pattern skip xs = occurrences pattern (xs.drop skip) := by
  induction xs generalizing skip with
  | nil => rw [List.drop_nil, occurrences, scan, scan]
  | cons x xs ih =>
    cases skip with
    | zero => rfl
    | succ skip => rw [scan, ih, List.drop_succ_cons]

theorem occurrences_cons_of_prefix {x : α} (h : pattern <+: x :: xs) (hp : pattern ≠ []) :
    occurrences pattern (x :: xs) = occurrences pattern ((x :: xs).drop pattern.length) + 1 := by
  obtain ⟨k, hk⟩ := Nat.exists_eq_succ_of_ne_zero (mt List.length_eq_zero_iff.1 hp)
  rw [occurrences, scan, if_pos h, scan_eq, hk, List.drop_succ_cons, Nat.succ_sub_one]

theorem occurrences_cons_of_differs {x : α} (h : ¬ pattern <+: x :: xs) :
    occurrences pattern (x :: xs) = occurrences pattern xs := by
  rw [occurrences, scan, if_neg h, occurrences]

theorem occurrences_of_none (h : indexOf? pattern xs = none) : occurrences pattern xs = 0 := by
  induction xs with
  | nil => rfl
  | cons x xs ih =>
    rw [indexOf?] at h
    by_cases hfirst : pattern <+: x :: xs
    · simp [hfirst] at h
    · rw [if_neg hfirst, Option.map_eq_none_iff] at h
      rw [occurrences_cons_of_differs hfirst, ih h]

/-- The scan goes on behind the first occurrence. -/
theorem occurrences_of_some (hp : pattern ≠ []) {n : ℕ} (h : indexOf? pattern xs = some n) :
    occurrences pattern xs = occurrences pattern (xs.drop (n + pattern.length)) + 1 := by
  induction xs generalizing n with
  | nil => simp [indexOf?, hp] at h
  | cons x xs ih =>
    rw [indexOf?] at h
    by_cases hfirst : pattern <+: x :: xs
    · rw [if_pos hfirst] at h
      cases h
      rw [Nat.zero_add]
      exact occurrences_cons_of_prefix hfirst hp
    · rw [if_neg hfirst, Option.map_eq_some_iff] at h
      obtain ⟨m, hm, rfl⟩ := h
      rw [occurrences_cons_of_differs hfirst, ih hm, Nat.add_right_comm, List.drop_succ_cons]

end

/-! ### Trimming -/

section

variable {p : α → Bool} {xs ys : List α}

/-- Nothing is trimmed from a list without `p`. -/
theorem trim_of_forall_not (h : ∀ x ∈ xs, ¬ p x = true) : trim p xs = xs := by
  have hdrop : xs.dropWhile p = xs := by
    cases xs with
    | nil => rfl
    | cons x xs => rw [List.dropWhile_cons, if_neg (h x (by simp))]
  rw [trim, hdrop, List.rdropWhile_eq_self_iff]
  exact fun hne => h _ (List.getLast_mem hne)

theorem trim_sublist : (trim p xs).Sublist xs :=
  (List.rdropWhile_prefix _ _).sublist.trans (List.dropWhile_sublist _)

theorem rdropWhile_append (h : ys.rdropWhile p ≠ []) :
    (xs ++ ys).rdropWhile p = xs ++ ys.rdropWhile p := by
  unfold List.rdropWhile at h ⊢
  rw [List.reverse_append, List.dropWhile_append, if_neg, List.reverse_append, List.reverse_reverse]
  simpa using h

/-- Nothing is left exactly of a list that is trimmed throughout, ... -/
theorem trim_eq_nil_iff : trim p xs = [] ↔ ∀ x ∈ xs, p x = true := by
  rw [trim, List.rdropWhile_eq_nil_iff]
  constructor
  · intro hrest x hx
    rw [← List.takeWhile_append_dropWhile (p := p) (l := xs), List.mem_append] at hx
    exact hx.elim List.mem_takeWhile_imp (hrest x)
  · exact fun hall x hx => hall x ((List.dropWhile_sublist p).mem hx)

/-- ... and what is left is trimmed. -/
theorem trim_trim : trim p (trim p xs) = trim p xs := by
  have hstarts := List.rdropWhile_prefix p (l := xs.dropWhile p)
  have hfront : (trim p xs).dropWhile p = trim p xs := by
    rw [List.dropWhile_eq_self_iff]
    intro hpos
    have hkept := List.dropWhile_get_zero_not p xs (hpos.trans_le hstarts.length_le)
    rwa [List.get_eq_getElem, ← hstarts.getElem hpos] at hkept
  rw [trim, hfront, trim, List.rdropWhile_idempotent]

/-- The end can be trimmed first. -/
theorem trim_eq : trim p xs = (xs.rdropWhile p).drop (xs.takeWhile p).length := by
  rw [trim]
  have hsplit := List.takeWhile_append_dropWhile (p := p) (l := xs)
  by_cases hnil : (xs.dropWhile p).rdropWhile p = []
  · -- nothing is left
    have hall : ∀ x ∈ xs, p x = true := by
      intro x hx
      rw [← hsplit, List.mem_append] at hx
      rcases hx with hx | hx
      · exact List.mem_takeWhile_imp hx
      · exact List.rdropWhile_eq_nil_iff.1 hnil x hx
    rw [hnil, List.rdropWhile_eq_nil_iff.2 hall, List.drop_nil]
  · have hkeep : xs.rdropWhile p = xs.takeWhile p ++ (xs.dropWhile p).rdropWhile p := by
      conv_lhs => rw [← hsplit]
      exact rdropWhile_append hnil
    rw [hkeep, List.drop_left]

end

/-! ### Pieces -/

section

variable [DecidableEq α] {separator xs : List α}

/-- **Enough cuts are all cuts.** -/
theorem splitAtMost_stable (hs : separator ≠ []) {cuts cuts' : ℕ} (h : xs.length ≤ cuts)
    (h' : xs.length ≤ cuts') : splitAtMost separator cuts xs = splitAtMost separator cuts' xs := by
  induction cuts generalizing cuts' xs with
  | zero =>
    obtain rfl : xs = [] := List.length_eq_zero_iff.1 (by omega)
    cases cuts' with
    | zero => rfl
    | succ cuts' => simp [splitAtMost, indexOf?, hs]
  | succ cuts ih =>
    cases hn : indexOf? separator xs with
    | none =>
      cases cuts' with
      | zero => simp [splitAtMost, hn]
      | succ cuts' => simp [splitAtMost, hn]
    | some n =>
      have hend := add_length_le hs ((indexOf?_eq_some hs).1 hn).1
      have hpos := List.length_pos_iff.2 hs
      cases cuts' with
      | zero => omega
      | succ cuts' =>
        simp only [splitAtMost, hn]
        refine congrArg _ (ih ?_ ?_) <;> rw [List.length_drop] <;> omega

theorem splitAtMost_ne_nil (separator : List α) (cuts : ℕ) (xs : List α) :
    splitAtMost separator cuts xs ≠ [] := by
  cases cuts with
  | zero => exact List.cons_ne_nil _ _
  | succ cuts =>
    rw [splitAtMost]
    cases indexOf? separator xs <;> exact List.cons_ne_nil _ _

/-- There is no occurrence in front of the first one. -/
theorem indexOf?_take (hs : separator ≠ []) {n : ℕ} (h : indexOf? separator xs = some n) :
    indexOf? separator (xs.take n) = none := by
  obtain ⟨hstarts, hfirst⟩ := (indexOf?_eq_some hs).1 h
  have hend := add_length_le hs hstarts
  have hpos := List.length_pos_iff.2 hs
  -- an occurrence there would be an earlier one in the list
  refine (indexOf?_eq_none hs).2 fun i hi => ?_
  have hi' := add_length_le hs hi
  rw [List.length_take] at hi'
  refine hfirst i (by omega) ?_
  have happend := (prefix_drop_append_iff (by rw [List.length_take]; omega) (xs.drop n)).2 hi
  rwa [List.take_append_drop] at happend

/-- **Joining undoes splitting**, wherever the splitting stops. -/
theorem intercalate_splitAtMost (hs : separator ≠ []) (cuts : ℕ) (xs : List α) :
    separator.intercalate (splitAtMost separator cuts xs) = xs := by
  induction cuts generalizing xs with
  | zero => exact List.intercalate_singleton
  | succ cuts ih =>
    rw [splitAtMost]
    cases hn : indexOf? separator xs with
    | none => exact List.intercalate_singleton
    | some n =>
      obtain ⟨rest, hrest⟩ := ((indexOf?_eq_some hs).1 hn).1
      have hdrop : xs.drop (n + separator.length) = rest := by
        rw [← List.drop_drop, ← hrest, List.drop_left]
      simp only
      rw [List.intercalate_cons_of_ne_nil (splitAtMost_ne_nil separator cuts _), ih, hdrop,
        List.append_assoc, hrest, List.take_append_drop]

/-- One cut, at the first separator. -/
theorem splitAtMost_one_append {s : α} {piece : List α} (h : s ∉ piece) (rest : List α) :
    splitAtMost [s] 1 (piece ++ s :: rest) = [piece, rest] := by
  have hfound : indexOf? [s] (piece ++ s :: rest) = some piece.length := by
    rw [indexOf?_append_of_notMem h]
    simp [indexOf?, List.cons_prefix_cons]
  rw [splitAtMost, hfound]
  simp [splitAtMost, ← List.drop_drop]

/-- No cut, when there is no separator. -/
theorem splitAtMost_of_notMem {s : α} {piece : List α} (h : s ∉ piece) (cuts : ℕ) :
    splitAtMost [s] cuts piece = [piece] := by
  cases cuts with
  | zero => rfl
  | succ cuts => rw [splitAtMost, indexOf?_of_notMem h]

/-- **The number of pieces.** -/
theorem length_splitAtMost (hs : separator ≠ []) (cuts : ℕ) (xs : List α) :
    (splitAtMost separator cuts xs).length = min (cuts + 1) (1 + occurrences separator xs) := by
  induction cuts generalizing xs with
  | zero => simp [splitAtMost]
  | succ cuts ih =>
    rw [splitAtMost]
    cases hn : indexOf? separator xs with
    | none => simp [occurrences_of_none hn]
    | some n =>
      rw [List.length_cons, ih, occurrences_of_some hs hn]
      omega

/-- The pieces that end at a cut contain no separator, and neither does the rest if there was a cut
left. -/
theorem indexOf?_getElem_splitAtMost (hs : separator ≠ []) {cuts i : ℕ} (hi : i < cuts)
    {piece : List α} (hpiece : (splitAtMost separator cuts xs)[i]? = some piece) :
    indexOf? separator piece = none := by
  induction cuts generalizing i xs with
  | zero => omega
  | succ cuts ih =>
    rw [splitAtMost] at hpiece
    cases hn : indexOf? separator xs with
    | none =>
      rw [hn] at hpiece
      rw [List.mem_singleton.1 (List.mem_of_getElem? hpiece), hn]
    | some n =>
      simp only [hn] at hpiece
      cases i with
      | zero =>
        rw [List.getElem?_cons_zero, Option.some.injEq] at hpiece
        rw [← hpiece, indexOf?_take hs hn]
      | succ i => exact ih (by omega) hpiece

/-- The pieces contain no separator. -/
theorem indexOf?_of_mem_splitAtMost (hs : separator ≠ []) {cuts : ℕ} (h : xs.length ≤ cuts)
    {piece : List α} (hpiece : piece ∈ splitAtMost separator cuts xs) :
    indexOf? separator piece = none := by
  induction cuts generalizing xs with
  | zero =>
    obtain rfl : xs = [] := List.length_eq_zero_iff.1 (by omega)
    rw [splitAtMost, List.mem_singleton] at hpiece
    simp [hpiece, indexOf?, hs]
  | succ cuts ih =>
    rw [splitAtMost] at hpiece
    cases hn : indexOf? separator xs with
    | none =>
      rw [hn] at hpiece
      rw [List.mem_singleton.1 hpiece, hn]
    | some n =>
      have hend := add_length_le hs ((indexOf?_eq_some hs).1 hn).1
      have hpos := List.length_pos_iff.2 hs
      simp only [hn, List.mem_cons] at hpiece
      rcases hpiece with rfl | hpiece
      · exact indexOf?_take hs hn
      · exact ih (by rw [List.length_drop]; omega) hpiece

theorem indexOf?_of_mem_splitOn (hs : separator ≠ []) {piece : List α}
    (hpiece : piece ∈ splitOn separator xs) : indexOf? separator piece = none :=
  indexOf?_of_mem_splitAtMost hs le_rfl hpiece

/-- A list without separators is one piece. -/
theorem splitOn_of_none (h : indexOf? separator xs = none) : splitOn separator xs = [xs] := by
  rw [splitOn]
  cases xs.length <;> simp [splitAtMost, h]

theorem splitAtMost_of_some (hs : separator ≠ []) {cuts n : ℕ}
    (h : indexOf? separator xs = some n) (hcuts : xs.length ≤ cuts) :
    splitAtMost separator cuts xs =
      xs.take n :: splitOn separator (xs.drop (n + separator.length)) := by
  have hend := add_length_le hs ((indexOf?_eq_some hs).1 h).1
  have hpos := List.length_pos_iff.2 hs
  cases cuts with
  | zero => omega
  | succ cuts =>
    simp only [splitAtMost, h]
    rw [splitOn, splitAtMost_stable hs (by rw [List.length_drop]; omega) le_rfl]

/-- Without a separator at the start, the first piece begins as the list does. -/
theorem splitOn_cons {x : α} (hs : separator ≠ []) (h : ¬ separator <+: x :: xs) :
    ∃ piece pieces, splitOn separator (x :: xs) = (x :: piece) :: pieces := by
  cases hfound : indexOf? separator (x :: xs) with
  | none => exact ⟨xs, [], splitOn_of_none hfound⟩
  | some n =>
    cases n with
    | zero => exact absurd ((indexOf?_eq_some hs).1 hfound).1 h
    | succ n => exact ⟨xs.take n, _, splitAtMost_of_some hs hfound le_rfl⟩

/-- The first piece is empty if a separator is at the start. -/
theorem splitOn_of_prefix (hs : separator ≠ []) (h : separator <+: xs) :
    splitOn separator xs = [] :: splitOn separator (xs.drop separator.length) := by
  have hfound : indexOf? separator xs = some 0 :=
    (indexOf?_eq_some hs).2 ⟨h, fun i hi => absurd hi (Nat.not_lt_zero i)⟩
  rw [splitOn, splitAtMost_of_some hs hfound le_rfl, List.take_zero, Nat.zero_add]

/-- The first piece, if it is followed by a separator. -/
theorem splitOn_append {s : α} {ss piece : List α} (h : s ∉ piece) (rest : List α) :
    splitOn (s :: ss) (piece ++ ((s :: ss) ++ rest)) = piece :: splitOn (s :: ss) rest := by
  have hfound : indexOf? (s :: ss) (piece ++ ((s :: ss) ++ rest)) = some piece.length := by
    rw [indexOf?_append_of_notMem h, (indexOf?_eq_some (List.cons_ne_nil _ _)).2
      ⟨List.prefix_append _ _, fun i hi => absurd hi (Nat.not_lt_zero i)⟩]
    rfl
  rw [splitOn, splitAtMost_of_some (List.cons_ne_nil _ _) hfound le_rfl, List.take_left,
    ← List.drop_drop, List.drop_left, List.drop_left]

/-- The last piece. -/
theorem splitOn_of_notMem {s : α} {ss piece : List α} (h : s ∉ piece) :
    splitOn (s :: ss) piece = [piece] := splitOn_of_none (indexOf?_of_notMem h)

/-- A separator whose first element does not come again does not overlap with what is in front of
it. -/
theorem indexOf?_append_separator {s : α} {ss : List α} (hs : s ∉ ss)
    (h : indexOf? (s :: ss) xs = none) (rest : List α) :
    indexOf? (s :: ss) (xs ++ ((s :: ss) ++ rest)) = some xs.length := by
  induction xs with
  | nil =>
    exact (indexOf?_eq_some (List.cons_ne_nil _ _)).2
      ⟨List.prefix_append _ _, fun i hi => absurd hi (Nat.not_lt_zero i)⟩
  | cons x xs ih =>
    rw [indexOf?] at h
    split_ifs at h with hprefix
    rw [Option.map_eq_none_iff] at h
    rw [List.cons_append, indexOf?, if_neg, ih h]
    · rfl
    -- an occurrence that is not in front of the separator has its first element again
    · intro hstarts
      rcases List.prefix_or_prefix_of_prefix hstarts (List.prefix_append (x :: xs) _) with
        hin | ⟨more, heq⟩
      · exact hprefix hin
      · have hmore : more <+: (s :: ss) ++ rest := by
          rw [← List.prefix_append_right_inj (x :: xs), heq]
          exact hstarts
        cases more with
        | nil => exact hprefix ⟨[], by rw [← heq, List.append_nil, List.append_nil]⟩
        | cons y more =>
          obtain ⟨rfl, -⟩ := List.cons_prefix_cons.1 hmore
          refine hs ?_
          rw [← (List.cons.inj heq).2]
          exact List.mem_append_right _ List.mem_cons_self

/-- **A list is cut at a separator** into the pieces before and after it. -/
theorem splitOn_append_separator {s : α} {ss : List α} (hs : s ∉ ss) (xs rest : List α) :
    splitOn (s :: ss) (xs ++ ((s :: ss) ++ rest)) =
      splitOn (s :: ss) xs ++ splitOn (s :: ss) rest := by
  have hne : s :: ss ≠ [] := List.cons_ne_nil _ _
  induction hlength : xs.length using Nat.strong_induction_on generalizing xs with
  | _ length ih =>
    subst hlength
    cases hfound : indexOf? (s :: ss) xs with
    | none =>
      rw [splitOn_of_none hfound, splitOn,
        splitAtMost_of_some hne (indexOf?_append_separator hs hfound rest) le_rfl, List.take_left,
        ← List.drop_drop, List.drop_left, List.drop_left]
      rfl
    | some n =>
      have hstarts := (indexOf?_eq_some hne).1 hfound
      have hend := add_length_le hne hstarts.1
      have hfound' : indexOf? (s :: ss) (xs ++ ((s :: ss) ++ rest)) = some n :=
        (indexOf?_eq_some hne).2 ⟨(prefix_drop_append_iff hend _).2 hstarts.1, fun i hi hearlier =>
          hstarts.2 i hi ((prefix_drop_append_iff (by omega) _).1 hearlier)⟩
      have hcut : splitOn (s :: ss) xs = xs.take n ::
          splitOn (s :: ss) (xs.drop (n + (s :: ss).length)) :=
        splitAtMost_of_some hne hfound le_rfl
      have hshorter : (xs.drop (n + (s :: ss).length)).length < xs.length := by
        rw [List.length_drop, List.length_cons] at *
        omega
      have hrest := congrArg (xs.take n :: ·) (ih _ hshorter (xs.drop (n + (s :: ss).length)) rfl)
      rw [hcut]
      refine Eq.trans ?_ hrest
      rw [splitOn, splitAtMost_of_some hne hfound' le_rfl, List.take_append_of_le_length (by omega),
        List.drop_append_of_le_length hend]

/-- The first piece is the whole list exactly if there is no separator. -/
theorem exists_splitOn_eq_cons (s : α) (xs : List α) :
    ∃ first rest, splitOn [s] xs = first :: rest ∧ (first = xs ↔ s ∉ xs) := by
  by_cases h : s ∈ xs
  · obtain ⟨before, after, rfl, hbefore⟩ := List.eq_append_cons_of_mem h
    refine ⟨before, _, splitOn_append hbefore after, iff_of_false (fun heq => ?_) fun hne => hne h⟩
    have hlength := congrArg List.length heq
    rw [List.length_append, List.length_cons] at hlength
    omega
  · exact ⟨xs, [], splitOn_of_notMem h, iff_of_true rfl h⟩

/-- **Splitting undoes joining**, when the first element of the separator is in no piece. -/
theorem splitOn_intercalate {s : α} {ss : List α} {pieces : List (List α)} (hne : pieces ≠ [])
    (h : ∀ piece ∈ pieces, s ∉ piece) :
    splitOn (s :: ss) ((s :: ss).intercalate pieces) = pieces := by
  induction pieces with
  | nil => exact absurd rfl hne
  | cons piece pieces ih =>
    have hpiece := h piece (by simp)
    cases pieces with
    | nil => simpa [List.intercalate] using splitOn_of_notMem hpiece
    | cons piece' pieces =>
      rw [List.intercalate_cons_cons, List.append_assoc, splitOn_append hpiece,
        ih (List.cons_ne_nil _ _) fun p hp => h p (by simp [hp])]

end

end Search

end Maplang
