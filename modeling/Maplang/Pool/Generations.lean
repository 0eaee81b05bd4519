import Mathlib.Data.List.Perm.Subperm

/-!
# Pools with generations

A pool keeps the objects that are not in use in a queue.  An object that is lent goes back to the
queue it belongs to: when the pool is renewed it gets a new queue, and the objects that are out do
not come back to it.  A dequeue removes *some* object: the position is a choice of the environment.

## Main definitions

* `Pool`, `Lease` : a pool, and the objects that are out, with the generation they belong to.
* `Pool.renew`, `Pool.drop`, `Pool.dequeue`, `Pool.lend`, `Pool.release` : the operations.
* `Pool.alive`, `Pool.current` : the objects that exist, and those of the current generation.

## Main results

For each operation, what it does to the objects that exist and to the current ones, as multisets: a
dequeued object that is lent changes neither, a new one is added to both (`alive_lend`,
`current_lend`), and a released one is lost at most (`release_alive`, `release_current`).
-/

namespace Maplang

/-- An object that is out, and the generation it belongs to. -/
structure Lease (α : Type*) where
  object : α
  generation : ℕ
  deriving DecidableEq

/-- A pool of objects. -/
structure Pool (α : Type*) where
  /-- How often the pool has been renewed. -/
  generation : ℕ := 0
  /-- The objects that are not in use; there is no queue before the pool is renewed for the first
  time, and after it is dropped. -/
  queue : Option (List α) := none
  held : List (Lease α) := []
  deriving DecidableEq

namespace Pool

variable {α : Type*}

/-- A new queue; the objects in the old one are lost. -/
def renew (p : Pool α) : Pool α :=
  { p with generation := p.generation + 1, queue := some [] }

/-- The queue is lost. -/
def drop (p : Pool α) : Pool α := { p with queue := none }

/-- Take the object at an index out of the queue. -/
def dequeue (p : Pool α) (i : ℕ) : Option (α × Pool α) :=
  p.queue.bind fun xs => xs[i]?.map fun x => (x, { p with queue := some (xs.eraseIdx i) })

/-- An object is lent, and belongs to the current generation. -/
def lend (p : Pool α) (x : α) : Pool α := { p with held := ⟨x, p.generation⟩ :: p.held }

/-- An object comes back: it goes to the queue, if that is still the one it belongs to. -/
def release (p : Pool α) (i : ℕ) : Option (Pool α) :=
  p.held[i]?.map fun lease => { p with
    held := p.held.eraseIdx i
    queue := if lease.generation = p.generation then p.queue.map (· ++ [lease.object])
      else p.queue }

/-- The objects that are not in use. -/
def stock (p : Pool α) : List α := p.queue.getD []

/-- The objects that are out. -/
def out (p : Pool α) : List α := p.held.map Lease.object

/-- The objects of the current generation that are out, ... -/
def inUse (p : Pool α) : List α := (p.held.filter (·.generation = p.generation)).map Lease.object

/-- ... and those of earlier ones. -/
def older (p : Pool α) : List α := (p.held.filter (·.generation ≠ p.generation)).map Lease.object

/-- The objects that exist. -/
def alive (p : Pool α) : List α := p.stock ++ p.out

/-- The objects of the current generation. -/
def current (p : Pool α) : List α := p.stock ++ p.inUse

/-- No object belongs to a generation to come. -/
def Valid (p : Pool α) : Prop := ∀ lease ∈ p.held, lease.generation ≤ p.generation

theorem valid_empty : Valid ({} : Pool α) := by simp [Valid]

theorem out_perm (p : Pool α) : p.out.Perm (p.inUse ++ p.older) := by
  have hsplit :=
    List.filter_append_perm (fun lease => decide (lease.generation = p.generation)) p.held
  simp only [← decide_not] at hsplit
  rw [inUse, older, ← List.map_append, out]
  exact hsplit.symm.map _

theorem alive_perm (p : Pool α) : p.alive.Perm (p.current ++ p.older) := by
  rw [alive, current, List.append_assoc]
  exact p.out_perm.append_left p.stock

/-- Distinct objects stay so when some are lost. -/
theorem nodup_map_of_subperm {β : Type*} {f : α → β} {xs ys : List α} (h : xs.Subperm ys)
    (hnodup : (ys.map f).Nodup) : (xs.map f).Nodup := by
  obtain ⟨zs, hperm, hsublist⟩ := h
  exact (hperm.map f).nodup_iff.1 ((hsublist.map f).nodup hnodup)

variable {p p' : Pool α} {x : α} {i : ℕ}

/-! ### Renewing -/

theorem Valid.renew (h : p.Valid) : p.renew.Valid := fun lease hlease =>
  Nat.le_succ_of_le (h lease hlease)

@[simp] theorem alive_renew (p : Pool α) : p.renew.alive = p.out := rfl

theorem out_subperm_alive (p : Pool α) : p.out.Subperm p.alive :=
  (List.sublist_append_right _ _).subperm

theorem inUse_renew (h : p.Valid) : p.renew.inUse = [] := by
  have hnone : p.held.filter (·.generation = p.generation + 1) = [] :=
    List.filter_eq_nil_iff.2 fun lease hlease => by
      have hle := h lease hlease
      simp only [decide_eq_true_eq]
      omega
  exact congrArg (List.map Lease.object) hnone

theorem current_renew (h : p.Valid) : p.renew.current = [] := inUse_renew h

/-! ### Dropping -/

theorem current_drop_subperm (p : Pool α) : p.drop.current.Subperm p.current :=
  (List.sublist_append_right _ _).subperm

/-! ### Lending -/

theorem Valid.lend (h : p.Valid) (x : α) : (p.lend x).Valid :=
  List.forall_mem_cons.2 ⟨Nat.le_refl _, h⟩

@[simp] theorem out_lend (p : Pool α) (x : α) : (p.lend x).out = x :: p.out := rfl

@[simp] theorem inUse_lend (p : Pool α) (x : α) : (p.lend x).inUse = x :: p.inUse :=
  congrArg (List.map Lease.object) (List.filter_cons_of_pos (decide_eq_true rfl))

@[simp] theorem older_lend (p : Pool α) (x : α) : (p.lend x).older = p.older :=
  congrArg (List.map Lease.object) (List.filter_cons_of_neg (by simp [lend]))

/-- A new object is one more. -/
theorem alive_lend (p : Pool α) (x : α) : (p.lend x).alive.Perm (x :: p.alive) :=
  List.perm_middle

theorem current_lend (p : Pool α) (x : α) : (p.lend x).current.Perm (x :: p.current) := by
  rw [current, inUse_lend]
  exact List.perm_middle

/-! ### Dequeuing -/

theorem dequeue_eq_some (h : p.dequeue i = some (x, p')) :
    ∃ xs, p.queue = some xs ∧ (x :: xs.eraseIdx i).Perm xs ∧
      p' = { p with queue := some (xs.eraseIdx i) } := by
  obtain ⟨xs, hxs, hx⟩ := Option.bind_eq_some_iff.1 h
  obtain ⟨y, hy, heq⟩ := Option.map_eq_some_iff.1 hx
  obtain ⟨rfl, rfl⟩ := Prod.mk.inj heq
  obtain ⟨hi, rfl⟩ := List.getElem?_eq_some_iff.1 hy
  exact ⟨xs, hxs, List.getElem_cons_eraseIdx_perm hi, rfl⟩

theorem stock_dequeue (h : p.dequeue i = some (x, p')) : (x :: p'.stock).Perm p.stock := by
  obtain ⟨xs, hxs, hperm, rfl⟩ := dequeue_eq_some h
  rw [stock, stock, hxs]
  exact hperm

/-- A dequeued object that is lent stays one of those that exist, ... -/
theorem alive_dequeue (h : p.dequeue i = some (x, p')) : (p'.lend x).alive.Perm p.alive := by
  obtain ⟨xs, hxs, -, rfl⟩ := dequeue_eq_some h
  exact (alive_lend _ x).trans ((stock_dequeue h).append_right p.out)

/-- ... and of the current ones. -/
theorem current_dequeue (h : p.dequeue i = some (x, p')) :
    (p'.lend x).current.Perm p.current := by
  obtain ⟨xs, hxs, -, rfl⟩ := dequeue_eq_some h
  exact (current_lend _ x).trans ((stock_dequeue h).append_right p.inUse)

@[simp] theorem generation_dequeue (h : p.dequeue i = some (x, p')) :
    p'.generation = p.generation := by
  obtain ⟨xs, -, -, rfl⟩ := dequeue_eq_some h
  rfl

theorem held_dequeue (h : p.dequeue i = some (x, p')) : p'.held = p.held := by
  obtain ⟨xs, -, -, rfl⟩ := dequeue_eq_some h
  rfl

theorem queue_dequeue (h : p.dequeue i = some (x, p')) : p'.queue ≠ none := by
  obtain ⟨xs, -, -, rfl⟩ := dequeue_eq_some h
  exact Option.some_ne_none _

theorem Valid.dequeue (hvalid : p.Valid) (h : p.dequeue i = some (x, p')) : p'.Valid := by
  obtain ⟨xs, -, -, rfl⟩ := dequeue_eq_some h
  exact hvalid

/-! ### Releasing -/

theorem release_eq_some (h : p.release i = some p') :
    ∃ lease, (lease :: p.held.eraseIdx i).Perm p.held ∧ p' = { p with
      held := p.held.eraseIdx i
      queue := if lease.generation = p.generation then p.queue.map (· ++ [lease.object])
        else p.queue } := by
  obtain ⟨lease, hlease, rfl⟩ := Option.map_eq_some_iff.1 h
  obtain ⟨hi, rfl⟩ := List.getElem?_eq_some_iff.1 hlease
  exact ⟨_, List.getElem_cons_eraseIdx_perm hi, rfl⟩

theorem Valid.release (hvalid : p.Valid) (h : p.release i = some p') : p'.Valid := by
  obtain ⟨lease, -, rfl⟩ := release_eq_some h
  exact fun lease' hlease' => hvalid lease' (List.mem_of_mem_eraseIdx hlease')

@[simp] theorem generation_release (h : p.release i = some p') :
    p'.generation = p.generation := by
  obtain ⟨lease, -, rfl⟩ := release_eq_some h
  rfl

theorem queue_release (h : p.release i = some p') : p'.queue = none ↔ p.queue = none := by
  obtain ⟨lease, -, rfl⟩ := release_eq_some h
  dsimp only
  split
  · exact Option.map_eq_none_iff
  · rfl

/-- The object that comes back goes to the queue, is lost with it, or belonged to an earlier one. -/
theorem release_cases (h : p.release i = some p') : ∃ x, (x :: p'.out).Perm p.out ∧
    (p'.stock = p.stock ++ [x] ∧ (x :: p'.inUse).Perm p.inUse ∨
      p'.stock = p.stock ∧ p.queue = none ∧ (x :: p'.inUse).Perm p.inUse ∨
      p'.stock = p.stock ∧ p'.inUse.Perm p.inUse) := by
  obtain ⟨lease, hperm, rfl⟩ := release_eq_some h
  have hfilter := (hperm.filter (·.generation = p.generation)).map Lease.object
  refine ⟨lease.object, hperm.map Lease.object, ?_⟩
  by_cases hmine : lease.generation = p.generation
  · rw [List.filter_cons_of_pos (by simpa using hmine)] at hfilter
    cases hqueue : p.queue with
    | none => exact .inr (.inl ⟨by simp [stock, hqueue, hmine], rfl, hfilter⟩)
    | some xs => exact .inl ⟨by simp [stock, hqueue, hmine], hfilter⟩
  · rw [List.filter_cons_of_neg (by simpa using hmine)] at hfilter
    exact .inr (.inr ⟨by simp [stock, hmine], hfilter⟩)

/-- An object that comes back stays one of those that exist, or is lost. -/
theorem release_alive (h : p.release i = some p') : p'.alive.Subperm p.alive := by
  obtain ⟨x, hout, hcases⟩ := release_cases h
  have hkept : p'.stock = p.stock → p'.alive.Subperm p.alive := fun hstock => by
    rw [alive, alive, hstock]
    exact (((List.sublist_cons_self x _).append_left _).subperm).trans
      (hout.append_left p.stock).subperm
  rcases hcases with ⟨hstock, -⟩ | ⟨hstock, -⟩ | ⟨hstock, -⟩
  · rw [alive, alive, hstock, List.append_assoc]
    exact (hout.append_left p.stock).subperm
  · exact hkept hstock
  · exact hkept hstock

/-- As long as there is a queue, the current objects stay as they are. -/
theorem release_current (h : p.release i = some p') :
    p'.current.Subperm p.current ∧ (p.queue ≠ none → p'.current.Perm p.current) := by
  obtain ⟨x, -, hcases⟩ := release_cases h
  rw [current, current]
  rcases hcases with ⟨hstock, hinUse⟩ | ⟨hstock, hnone, hinUse⟩ | ⟨hstock, hinUse⟩
  · have hperm := hinUse.append_left p.stock
    rw [hstock, List.append_assoc]
    exact ⟨hperm.subperm, fun _ => hperm⟩
  · rw [hstock]
    refine ⟨?_, fun hsome => absurd hnone hsome⟩
    exact (((List.sublist_cons_self x _).append_left _).subperm).trans
      (hinUse.append_left p.stock).subperm
  · have hperm := hinUse.append_left p.stock
    rw [hstock]
    exact ⟨hperm.subperm, fun _ => hperm⟩

end Pool

end Maplang
