import Mathlib.Data.List.Perm.Basic
import Mathlib.Data.List.Basic
import Mathlib.Tactic.Ring

/-!
# Concurrent queues

A concurrent queue is a list in the order of the enqueues.  A dequeue removes *some* element: the
position is a choice of the environment, so every ordering discipline is covered.  A queue that is
first-in-first-out for each producer only makes the choices `fifoPicks` admits.

* `takeMany q picks` : remove the elements at the given positions, one after the other.
* `takeMany_perm` : nothing is lost, nothing is duplicated.
* `takeMany_filter` : under `fifoPicks` the elements of each producer keep their order.
* `share_perm` : a list that is shared out, each element to one taker, is the shares together.
-/

namespace Maplang

namespace Bag

variable {α P : Type*}

/-- Remove the elements at positions `picks`, each counted in what the earlier ones left. -/
def takeMany : List α → List ℕ → Option (List α × List α)
  | q, [] => some ([], q)
  | q, k :: ks =>
    match q[k]? with
    | none => none
    | some x => (takeMany (q.eraseIdx k) ks).map fun taken => (x :: taken.1, taken.2)

/-- No pick overtakes an older element of the same producer. -/
def fifoPicks [DecidableEq P] (producer : α → P) : List α → List ℕ → Bool
  | _, [] => true
  | q, k :: ks =>
    (q[k]?.all fun x => (q.take k).all fun y => producer y ≠ producer x) &&
      fifoPicks producer (q.eraseIdx k) ks

theorem eq_take_cons_drop {q : List α} {k : ℕ} {x : α} (h : q[k]? = some x) :
    q = q.take k ++ x :: q.drop (k + 1) := by
  obtain ⟨hk, rfl⟩ := List.getElem?_eq_some_iff.1 h
  rw [← List.drop_eq_getElem_cons hk, List.take_append_drop]

/-- Taking at some positions takes at the first and then at the others. -/
theorem takeMany_cons {q xs rest : List α} {k : ℕ} {ks : List ℕ}
    (h : takeMany q (k :: ks) = some (xs, rest)) : ∃ x ys, q[k]? = some x ∧
      takeMany (q.eraseIdx k) ks = some (ys, rest) ∧ xs = x :: ys := by
  rw [takeMany] at h
  cases hx : q[k]? with
  | none => simp [hx] at h
  | some x =>
    simp only [hx, Option.map_eq_some_iff, Prod.mk.injEq] at h
    obtain ⟨⟨ys, rest'⟩, hys, rfl, rfl⟩ := h
    exact ⟨x, ys, rfl, hys, rfl⟩

theorem takeMany_perm {q xs rest : List α} {ks : List ℕ} (h : takeMany q ks = some (xs, rest)) :
    (xs ++ rest).Perm q := by
  induction ks generalizing q xs with
  | nil => cases h; exact .refl _
  | cons k ks ih =>
    obtain ⟨x, ys, hx, hys, rfl⟩ := takeMany_cons h
    obtain ⟨hk, rfl⟩ := List.getElem?_eq_some_iff.1 hx
    exact ((ih hys).cons q[k]).trans (List.getElem_cons_eraseIdx_perm hk)

/-- Moving an element that overtakes none of its producer to the front keeps every producer's
elements in order. -/
theorem filter_cons_eraseIdx [DecidableEq P] {producer : α → P} {q : List α} {k : ℕ} {x : α}
    (hx : q[k]? = some x) (hfifo : ∀ y ∈ q.take k, producer y ≠ producer x) (p : P) :
    (x :: q.eraseIdx k).filter (fun y => producer y = p) = q.filter fun y => producer y = p := by
  conv_rhs => rw [eq_take_cons_drop hx]
  rw [List.eraseIdx_eq_take_drop_succ, List.filter_cons, List.filter_append, List.filter_append,
    List.filter_cons]
  by_cases hp : producer x = p
  · have hnil : (q.take k).filter (fun y => producer y = p) = [] := by
      rw [List.filter_eq_nil_iff]
      intro y hy
      simpa [hp] using hfifo y hy
    simp [hp, hnil]
  · simp [hp]

theorem takeMany_filter [DecidableEq P] {producer : α → P} {q xs rest : List α} {ks : List ℕ}
    (h : takeMany q ks = some (xs, rest)) (hfifo : fifoPicks producer q ks = true) (p : P) :
    (xs ++ rest).filter (fun y => producer y = p) = q.filter fun y => producer y = p := by
  induction ks generalizing q xs with
  | nil => cases h; rfl
  | cons k ks ih =>
    rw [fifoPicks, Bool.and_eq_true] at hfifo
    obtain ⟨x, ys, hx, hys, rfl⟩ := takeMany_cons h
    have hover : ∀ y ∈ q.take k, producer y ≠ producer x := by
      have := hfifo.1
      simpa [hx] using this
    rw [← filter_cons_eraseIdx hx hover, List.cons_append, List.filter_cons, List.filter_cons,
      ih hys hfifo.2]

theorem takeMany_length {q xs rest : List α} {ks : List ℕ} (h : takeMany q ks = some (xs, rest)) :
    xs.length = ks.length := by
  induction ks generalizing q xs with
  | nil => cases h; rfl
  | cons k ks ih =>
    obtain ⟨x, ys, -, hys, rfl⟩ := takeMany_cons h
    rw [List.length_cons, List.length_cons, ih hys]

/-- Only an empty pick takes nothing. -/
theorem takeMany_nil {q rest : List α} {ks : List ℕ} (h : takeMany q ks = some ([], rest)) :
    rest = q := by
  cases ks with
  | nil => cases h; rfl
  | cons k ks =>
    obtain ⟨x, ys, -, -, hnil⟩ := takeMany_cons h
    cases hnil

/-! ### Sharing out a list -/

/-- If exactly one of the shares takes each element, the shares together are the whole list. -/
theorem share_perm {K : Type*} [DecidableEq α] (l : List α) (kept : α → Bool) (ks : List K)
    (takes : K → α → Bool)
    (h : ∀ a ∈ l, (if kept a then 1 else 0) + ks.countP (fun k => takes k a) = 1) :
    (l.filter kept ++ ks.flatMap fun k => l.filter (takes k)).Perm l := by
  rw [List.perm_iff_count]
  intro a
  have hshare : ∀ p : α → Bool, (l.filter p).count a = if p a then l.count a else 0 := by
    intro p
    split_ifs with hp
    · exact List.count_filter hp
    · exact List.count_eq_zero.2 fun hmem => hp (List.mem_filter.1 hmem).2
  have hshares : (ks.flatMap fun k => l.filter (takes k)).count a =
      ks.countP (fun k => takes k a) * l.count a := by
    clear h
    induction ks with
    | nil => simp
    | cons k ks ih =>
      rw [List.flatMap_cons, List.count_append, ih, hshare, List.countP_cons]
      split_ifs <;> ring
  rw [List.count_append, hshare, hshares]
  by_cases ha : a ∈ l
  · have hone := h a ha
    split_ifs at hone ⊢ with hkept
    · rw [show ks.countP (fun k => takes k a) = 0 by omega]
      omega
    · rw [show ks.countP (fun k => takes k a) = 1 by omega]
      omega
  · simp [List.count_eq_zero.2 ha]

end Bag

end Maplang
