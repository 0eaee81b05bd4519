import Mathlib.Algebra.BigOperators.Group.Finset.Basic
import Mathlib.Data.List.Perm.Basic

/-!
# Growing trees

Elements that have successors, and all that grows from them.  When a collection consists of some
roots and, once for each of its elements, the successors of this element, it is what grows from the
roots, in whatever order it came together.

* `unfold f n a` : what grows from `a` in `n` rounds.
* `perm_unfold` : a collection of roots and successors is what grows from the roots.
* `perm_flatMap_fibers` : a list is made of its parts with the same key.
-/

namespace Maplang

open scoped List

section

variable {α : Type*} {f : α → List α}

variable (f) in
/-- What grows from an element in `n` rounds, the element itself included. -/
def unfold : ℕ → α → List α
  | 0, _ => []
  | n + 1, a => a :: (f a).flatMap (unfold n)

variable (f) in
/-- What is added in the rounds after the first `n`. -/
def later : ℕ → List α → List α
  | 0, as => as
  | n + 1, as => (later n as).flatMap f

/-- Successors may be added in front of the first round or behind the last one. -/
theorem flatMap_unfold_perm (n : ℕ) (a : α) :
    (unfold f n a).flatMap f ~ (f a).flatMap (unfold f n) := by
  induction n generalizing a with
  | zero => simp [unfold]
  | succ n ih =>
    rw [unfold, List.flatMap_cons, List.flatMap_assoc]
    calc f a ++ (f a).flatMap (fun b => (unfold f n b).flatMap f)
      _ ~ f a ++ (f a).flatMap (fun b => (f b).flatMap (unfold f n)) :=
          (List.Perm.flatMap_left _ fun b _ => ih b).append_left _
      _ = (f a).flatMap (fun b => [b]) ++ (f a).flatMap (fun b => (f b).flatMap (unfold f n)) := by
          rw [List.flatMap_singleton' (f a)]
      _ ~ (f a).flatMap (unfold f (n + 1)) := List.flatMap_append_perm _ _ _

/-- A collection of roots and successors is what grows from the roots in `n` rounds, and what is
added later. -/
theorem perm_unfold_later {all roots : List α} (h : all ~ roots ++ all.flatMap f) (n : ℕ) :
    all ~ roots.flatMap (unfold f n) ++ later f n all := by
  induction n with
  | zero =>
    have hnil : roots.flatMap (unfold f 0) = [] := List.flatMap_eq_nil_iff.2 fun _ _ => rfl
    rw [hnil, List.nil_append, later]
  | succ n ih =>
    have hgrown : (roots.flatMap (unfold f n)).flatMap f ~
        roots.flatMap fun a => (f a).flatMap (unfold f n) := by
      rw [List.flatMap_assoc]
      exact List.Perm.flatMap_left _ fun a _ => flatMap_unfold_perm n a
    calc all
      _ ~ roots ++ all.flatMap f := h
      _ ~ roots ++ ((roots.flatMap (unfold f n)).flatMap f ++ later f (n + 1) all) := by
          refine .append_left _ ?_
          rw [later, ← List.flatMap_append]
          exact ih.flatMap_right f
      _ ~ roots ++ ((roots.flatMap fun a => (f a).flatMap (unfold f n)) ++
            later f (n + 1) all) := (hgrown.append_right _).append_left _
      _ = roots.flatMap (fun a => [a]) ++ (roots.flatMap fun a => (f a).flatMap (unfold f n)) ++
            later f (n + 1) all := by
          rw [List.flatMap_singleton' roots, List.append_assoc]
      _ ~ roots.flatMap (unfold f (n + 1)) ++ later f (n + 1) all :=
          (List.flatMap_append_perm _ _ _).append_right _

/-- What is added later is further from where it has grown from. -/
theorem exists_of_mem_later {rank : α → ℕ} (hrank : ∀ a, ∀ b ∈ f a, rank b < rank a)
    {as : List α} {n : ℕ} {b : α} (hb : b ∈ later f n as) : ∃ a ∈ as, rank b + n ≤ rank a := by
  induction n generalizing b with
  | zero => exact ⟨b, hb, le_rfl⟩
  | succ n ih =>
    obtain ⟨c, hc, hbc⟩ := List.mem_flatMap.1 hb
    obtain ⟨a, ha, hle⟩ := ih hc
    have hlt := hrank c b hbc
    exact ⟨a, ha, by omega⟩

/-- **A collection of roots and successors is what grows from the roots.** -/
theorem perm_unfold {all roots : List α} (h : all ~ roots ++ all.flatMap f) {rank : α → ℕ}
    (hrank : ∀ a, ∀ b ∈ f a, rank b < rank a) {n : ℕ} (hn : ∀ a ∈ all, rank a < n) :
    all ~ roots.flatMap (unfold f n) := by
  have hnil : later f n all = [] := by
    rw [List.eq_nil_iff_forall_not_mem]
    intro b hb
    obtain ⟨a, ha, hle⟩ := exists_of_mem_later hrank hb
    have hlt := hn a ha
    omega
  have hperm := perm_unfold_later h n
  rwa [hnil, List.append_nil] at hperm

end

/-! ### Parts with the same key -/

theorem flatMap_range_ite {α : Type*} {k n : ℕ} (h : k < n) (a : α) :
    ((List.range n).flatMap fun i => if i = k then [a] else []) = [a] := by
  induction n with
  | zero => cases h
  | succ n ih =>
    rw [List.range_succ, List.flatMap_append, List.flatMap_singleton]
    by_cases hk : n = k
    · have hnil : ((List.range n).flatMap fun i => if i = k then [a] else []) = [] := by
        rw [List.flatMap_eq_nil_iff]
        intro i hi
        rw [if_neg (by have := List.mem_range.1 hi; omega)]
      rw [hnil, if_pos hk, List.nil_append]
    · rw [ih (by omega), if_neg hk, List.append_nil]

/-- All positions of a list are those of its elements. -/
theorem flatMap_range_getElem? {α β : Type*} (as : List α) (g : α → List β) :
    ((List.range as.length).flatMap fun i => as[i]?.toList.flatMap g) = as.flatMap g := by
  induction as using List.reverseRecOn with
  | nil => rfl
  | append_singleton as a ih =>
    have hinit : ((List.range as.length).flatMap fun i => (as ++ [a])[i]?.toList.flatMap g) =
        (List.range as.length).flatMap fun i => as[i]?.toList.flatMap g :=
      List.flatMap_congr fun i hi => by rw [List.getElem?_append_left (List.mem_range.1 hi)]
    rw [List.length_append, List.length_singleton, List.range_succ, List.flatMap_append, hinit, ih,
      List.flatMap_singleton, List.getElem?_concat_length, List.flatMap_append]
    rfl

/-- **A list is made of its parts with the same key.** -/
theorem perm_flatMap_fibers {α : Type*} (key : α → Option ℕ) {n : ℕ} {l : List α}
    (h : ∀ a ∈ l, ∀ k, key a = some k → k < n) :
    l.filter (fun a => (key a).isSome) ~
      (List.range n).flatMap fun k => l.filter fun a => key a == some k := by
  induction l with
  | nil => simp
  | cons a l ih =>
    have ih := ih fun b hb => h b (List.mem_cons_of_mem _ hb)
    cases hkey : key a with
    | none => simpa [List.filter_cons, hkey] using ih
    | some k =>
      have hsplit : ((List.range n).flatMap fun i => (a :: l).filter fun b => key b == some i) =
          (List.range n).flatMap fun i =>
            (if i = k then [a] else []) ++ l.filter fun b => key b == some i := by
        refine List.flatMap_congr fun i _ => ?_
        by_cases hi : i = k
        · simp [hkey, hi]
        · simp [hkey, hi, Ne.symm hi]
      rw [hsplit, List.filter_cons_of_pos (by simp [hkey])]
      refine .trans ?_ (List.flatMap_append_perm _ _ _)
      rw [flatMap_range_ite (h a List.mem_cons_self k hkey) a]
      exact ih.cons a

end Maplang
