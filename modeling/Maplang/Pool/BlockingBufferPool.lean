import Maplang.Pool.BufferPool

/-!
# Pools of a limited number of buffers

A `BlockingBufferPool` should not have more than `maxAllocatedBuffers` buffers: when it has created
as many, a call waits for one to be released.  When a larger buffer is asked for, it starts a new
queue, and counts from zero again, although buffers may be out that do not come back to it.

## Main definitions

* `BlockingBufferPool`, `BlockingBufferPool.get` : the pool.
* `BlockingBufferPool.StaysBelow` : the step condition for calls that create a buffer.

## Main results

* `BlockingBufferPool.get_cases` : what a call does.
* `BlockingBufferPool.alive_le_iff` : the limit is kept exactly as long as the calls meet the
  condition.
-/

namespace Maplang

/-- `class BlockingBufferPool`, less its factory, and the buffers that are out. -/
structure BlockingBufferPool extends Pool BufferRef where
  maxAllocatedBuffers : ℕ
  bufferSize : ℕ := 0
  totalAllocatedBuffers : ℕ := 0

namespace BlockingBufferPool

/-- The queue is replaced when a larger buffer is asked for, and nothing is counted yet. -/
def grow (s : BlockingBufferPool) (bufferSize : ℕ) : BlockingBufferPool :=
  if s.bufferSize < bufferSize then
    { s with toPool := s.renew, bufferSize, totalAllocatedBuffers := 0 }
  else s

/-- `BlockingBufferPool::get`, where `Create` returns `created`, or `wait_dequeue` finds the buffer
at an index.  The buffer of length zero is `none`, and so is the result of a call that waits. -/
def get (s : BlockingBufferPool) (bufferSize dequeued : ℕ) (created : BufferRef) :
    Code (Option (Option BufferRef × BlockingBufferPool)) :=
  if bufferSize = 0 then .ok (some (none, s))
  else
    let s := s.grow bufferSize
    if s.totalAllocatedBuffers < s.maxAllocatedBuffers then do
      let (poolBuffer, pool) ← BufferPool.handOut s.toPool bufferSize created
      return some (some poolBuffer,
        { s with toPool := pool, totalAllocatedBuffers := s.totalAllocatedBuffers + 1 })
    else
      match s.queue, s.dequeue dequeued with
      | none, _ => .error .undefinedBehaviour
      | some _, none => .ok none
      | some _, some (sourceBuffer, pool) => do
        let (poolBuffer, pool) ← BufferPool.handOut pool bufferSize sourceBuffer
        return some (some poolBuffer, { s with toPool := pool })

/-- What happens to a pool. -/
inductive Event where
  | get (bufferSize dequeued : ℕ) (created : BufferRef)
  | release (index : ℕ)

/-- New buffers are new. -/
def CreatesFresh (s : BlockingBufferPool) : Event → Prop
  | .get bufferSize _ created =>
    BufferPool.Creates (s.grow bufferSize).toPool (s.grow bufferSize).bufferSize created
  | .release _ => True

/-- A call that creates a buffer leaves room for those that are out from before the pool has
grown. -/
def StaysBelow (s : BlockingBufferPool) : Event → Prop
  | .get bufferSize _ _ =>
    let g := s.grow bufferSize
    bufferSize ≠ 0 → g.totalAllocatedBuffers < g.maxAllocatedBuffers →
      g.older.length + g.totalAllocatedBuffers < g.maxAllocatedBuffers
  | .release _ => True

instance (s : BlockingBufferPool) : DecidablePred (CreatesFresh s)
  | .get _ _ _ => inferInstanceAs (Decidable (BufferPool.Creates _ _ _))
  | .release _ => inferInstanceAs (Decidable True)

instance (s : BlockingBufferPool) : DecidablePred (StaysBelow s)
  | .get _ _ _ => inferInstanceAs (Decidable (_ → _))
  | .release _ => inferInstanceAs (Decidable True)

end BlockingBufferPool

/-- The machine of a pool; calls that wait are not taken. -/
def blockingBufferPoolMachine : Machine BlockingBufferPool BlockingBufferPool.Event where
  step s
    | .get bufferSize dequeued created =>
      (s.get bufferSize dequeued created).toOption.bind fun result => result.map Prod.snd
    | .release index => (s.release index).map fun pool => { s with toPool := pool }

namespace BlockingBufferPool

/-- The invariant of a pool: the counter counts the current buffers. -/
structure Inv (s : BlockingBufferPool) : Prop where
  serves : BufferPool.Serves s.toPool s.bufferSize
  queue : s.queue = none → s.bufferSize = 0 ∧ s.held = []
  total : s.current.length = s.totalAllocatedBuffers
  total_le : s.totalAllocatedBuffers ≤ s.maxAllocatedBuffers

theorem inv_empty (maxAllocatedBuffers : ℕ) : Inv { maxAllocatedBuffers } where
  serves := BufferPool.serves_empty
  queue _ := ⟨rfl, rfl⟩
  total := rfl
  total_le := Nat.zero_le _

section

variable {s s' : BlockingBufferPool} {bufferSize dequeued : ℕ} {created : BufferRef}

/-- The buffers that exist are those from before the pool has grown, and those that are counted. -/
theorem Inv.alive_length (h : Inv s) :
    s.alive.length = s.older.length + s.totalAllocatedBuffers := by
  rw [s.alive_perm.length_eq, List.length_append, h.total, Nat.add_comm]

theorem Inv.grow (h : Inv s) (hsize : bufferSize ≠ 0) : Inv (s.grow bufferSize) ∧
    bufferSize ≤ (s.grow bufferSize).bufferSize ∧ (s.grow bufferSize).queue ≠ none ∧
    (s.grow bufferSize).alive.Subperm s.alive := by
  rw [BlockingBufferPool.grow]
  split
  · refine ⟨⟨h.serves.renew bufferSize, fun hnone => absurd hnone (Option.some_ne_none _), ?_,
      Nat.zero_le _⟩, le_rfl, Option.some_ne_none _, s.out_subperm_alive⟩
    exact congrArg List.length (Pool.current_renew h.serves.valid)
  · rename_i hlarge
    refine ⟨h, Nat.le_of_not_lt hlarge, fun hnone => ?_, .refl _⟩
    have := (h.queue hnone).1
    omega

/-- **What a call does** that does not wait: it creates a buffer, or takes one out of the queue. -/
theorem get_cases (h : Inv s) (hsize : bufferSize ≠ 0)
    (hfresh : CreatesFresh s (.get bufferSize dequeued created)) :
    let g := s.grow bufferSize
    (g.totalAllocatedBuffers < g.maxAllocatedBuffers ∧
      ∃ poolBuffer, s.get bufferSize dequeued created = .ok (some (some poolBuffer,
        { g with
          toPool := g.lend created
          totalAllocatedBuffers := g.totalAllocatedBuffers + 1 }))) ∨
    (g.maxAllocatedBuffers ≤ g.totalAllocatedBuffers ∧
      (s.get bufferSize dequeued created = .ok none ∨ ∃ buffer pool poolBuffer,
        g.dequeue dequeued = some (buffer, pool) ∧ s.get bufferSize dequeued created =
          .ok (some (some poolBuffer, { g with toPool := pool.lend buffer })))) := by
  obtain ⟨hinv, hle, hqueue, -⟩ := h.grow hsize
  rw [CreatesFresh] at hfresh
  simp only [get, if_neg hsize]
  generalize s.grow bufferSize = g at hinv hle hqueue hfresh ⊢
  by_cases hroom : g.totalAllocatedBuffers < g.maxAllocatedBuffers
  · obtain ⟨hhand, -⟩ := (hinv.serves.create hfresh).handOut hle
    rw [if_pos hroom, hhand]
    exact .inl ⟨hroom, _, rfl⟩
  · obtain ⟨xs, hxs⟩ := Option.ne_none_iff_exists'.1 hqueue
    rw [if_neg hroom]
    refine .inr ⟨Nat.le_of_not_lt hroom, ?_⟩
    cases hdequeue : g.dequeue dequeued with
    | none => exact .inl (by rw [hxs])
    | some taken =>
      obtain ⟨hhand, -⟩ := (hinv.serves.dequeue hdequeue).handOut hle
      rw [hxs]
      dsimp only
      rw [hhand]
      exact .inr ⟨taken.1, taken.2, _, rfl, rfl⟩

/-- What a step does to the buffers that exist. -/
structure Keeps (s s' : BlockingBufferPool) (count : ℕ) : Prop where
  inv : Inv s'
  max : s'.maxAllocatedBuffers = s.maxAllocatedBuffers
  alive : s'.alive.length = count

theorem grow_max (s : BlockingBufferPool) (bufferSize : ℕ) :
    (s.grow bufferSize).maxAllocatedBuffers = s.maxAllocatedBuffers := by
  rw [grow]
  split <;> rfl

theorem step_get (h : Inv s) (hsize : bufferSize ≠ 0)
    (hfresh : CreatesFresh s (.get bufferSize dequeued created))
    (hs : blockingBufferPoolMachine.step s (.get bufferSize dequeued created) = some s') :
    let g := s.grow bufferSize
    Keeps s s' (g.alive.length +
      if g.totalAllocatedBuffers < g.maxAllocatedBuffers then 1 else 0) := by
  obtain ⟨hinv, -, hqueue, -⟩ := h.grow hsize
  have hmax := grow_max s bufferSize
  rw [CreatesFresh] at hfresh
  simp only [blockingBufferPoolMachine] at hs
  rcases get_cases h hsize hfresh with ⟨hroom, _, hget⟩ | ⟨hroom, hget | ⟨buffer, pool, _, hdequeue,
    hget⟩⟩
  · rw [hget] at hs
    obtain rfl := Option.some.inj hs
    have hcurrent := (Pool.current_lend (s.grow bufferSize).toPool created).length_eq
    have halive := (Pool.alive_lend (s.grow bufferSize).toPool created).length_eq
    rw [List.length_cons] at hcurrent halive
    refine ⟨⟨hinv.serves.create hfresh, fun hnone => absurd hnone hqueue, ?_, hroom⟩, hmax, ?_⟩
    · exact hcurrent.trans (congrArg (· + 1) hinv.total)
    · rw [if_pos hroom]
      exact halive
  · rw [hget] at hs
    cases hs
  · rw [hget] at hs
    obtain rfl := Option.some.inj hs
    have hqueue' := Pool.queue_dequeue hdequeue
    refine ⟨⟨hinv.serves.dequeue hdequeue, fun hnone => absurd hnone hqueue', ?_,
      hinv.total_le⟩, hmax, ?_⟩
    · exact (Pool.current_dequeue hdequeue).length_eq.trans hinv.total
    · rw [if_neg (Nat.not_lt.2 hroom)]
      exact (Pool.alive_dequeue hdequeue).length_eq

theorem step_release (h : Inv s) {index : ℕ}
    (hs : blockingBufferPoolMachine.step s (.release index) = some s') :
    ∃ count ≤ s.alive.length, Keeps s s' count := by
  obtain ⟨pool, hpool, rfl⟩ := Option.map_eq_some_iff.1 hs
  have hqueue : s.queue ≠ none := by
    intro hnone
    have hheld := (h.queue hnone).2
    rw [Pool.release, hheld] at hpool
    cases hpool
  refine ⟨_, (Pool.release_alive hpool).length_le, ⟨h.serves.release hpool, fun hnone => ?_, ?_,
    h.total_le⟩, rfl, rfl⟩
  · exact absurd ((Pool.queue_release hpool).1 hnone) hqueue
  · exact ((Pool.release_current hpool).2 hqueue).length_eq.trans h.total

/-! ### The limit -/

/-- **One step**: the limit is kept exactly if a call leaves room for the buffers that are out. -/
theorem step_spec (h : Inv s) (hle : s.alive.length ≤ s.maxAllocatedBuffers) {event : Event}
    (hfresh : CreatesFresh s event) (hs : blockingBufferPoolMachine.step s event = some s') :
    Inv s' ∧ s'.maxAllocatedBuffers = s.maxAllocatedBuffers ∧
      (s'.alive.length ≤ s.maxAllocatedBuffers ↔ StaysBelow s event) := by
  cases event with
  | get bufferSize dequeued created =>
    by_cases hsize : bufferSize = 0
    · simp only [blockingBufferPoolMachine, get, if_pos hsize] at hs
      obtain rfl := Option.some.inj hs
      exact ⟨h, rfl, fun _ hnot => absurd hsize hnot, fun _ => hle⟩
    · obtain ⟨hinv, -, -, hsubperm⟩ := h.grow hsize
      obtain ⟨hinv', hmax', halive⟩ := step_get h hsize hfresh hs
      have hgrown := hsubperm.length_le
      have hlength := hinv.alive_length
      have hsame := grow_max s bufferSize
      refine ⟨hinv', hmax', ?_⟩
      rw [StaysBelow, halive]
      split
      · rename_i hroom
        constructor
        · intro hbelow _ _
          omega
        · intro hbelow
          have := hbelow hsize hroom
          omega
      · rename_i hroom
        exact ⟨fun _ _ hroom' => absurd hroom' hroom, fun _ => by omega⟩
  | release index =>
    obtain ⟨count, hcount, hinv', hmax', halive⟩ := step_release h hs
    exact ⟨hinv', hmax', fun _ => trivial, fun _ => by omega⟩

/-- **The limit is kept exactly as long as the calls meet the condition**: in every state that is
reached with such calls there are at most `maxAllocatedBuffers` buffers, and after the next call or
release there are exactly if it meets the condition, too. -/
theorem alive_le_iff {maxAllocatedBuffers : ℕ}
    (h : blockingBufferPoolMachine.Reachable (fun s event => CreatesFresh s event ∧
      StaysBelow s event) { maxAllocatedBuffers } s) :
    s.alive.length ≤ maxAllocatedBuffers ∧ ∀ event s', CreatesFresh s event →
      blockingBufferPoolMachine.step s event = some s' →
        (s'.alive.length ≤ maxAllocatedBuffers ↔ StaysBelow s event) := by
  obtain ⟨hinv, rfl, hle⟩ : Inv s ∧ s.maxAllocatedBuffers = maxAllocatedBuffers ∧
      s.alive.length ≤ s.maxAllocatedBuffers := by
    refine h.invariant (I := fun s => Inv s ∧ s.maxAllocatedBuffers = maxAllocatedBuffers ∧
      s.alive.length ≤ s.maxAllocatedBuffers) ⟨inv_empty _, rfl, Nat.zero_le _⟩ ?_
    rintro s event s' ⟨hinv, rfl, hle⟩ ⟨hfresh, hbelow⟩ hs
    obtain ⟨hinv', hmax', hiff⟩ := step_spec hinv hle hfresh hs
    exact ⟨hinv', hmax', hmax' ▸ hiff.2 hbelow⟩
  exact ⟨hle, fun event s' hfresh hs => (step_spec hinv hle hfresh hs).2.2⟩

end

/-- A pool of two buffers, which grows when all of them have come back. -/
def limitEvents : List Event :=
  [.get 4 0 ⟨1, 4, 4⟩, .get 3 0 ⟨2, 4, 4⟩, .release 1, .get 4 0 ⟨3, 4, 4⟩, .release 0, .release 0,
    .get 8 0 ⟨1, 8, 8⟩]

theorem alive_le_iff_two :
    ((blockingBufferPoolMachine.exec (fun s event => decide (CreatesFresh s event ∧
      StaysBelow s event)) { maxAllocatedBuffers := 2 } limitEvents).getD
        { maxAllocatedBuffers := 2 }).alive.length ≤ 2 :=
  (alive_le_iff ((Machine.reachable_exec (by decide)).mono
    fun _ _ hok => of_decide_eq_true hok)).1

/-- **A pool that grows while a buffer is out** creates one too many. -/
theorem not_alive_le_grown :
    ¬ ∀ maxAllocatedBuffers s, 1 ≤ maxAllocatedBuffers →
      blockingBufferPoolMachine.Reachable CreatesFresh { maxAllocatedBuffers } s →
        s.alive.length ≤ maxAllocatedBuffers := by
  intro h
  have hrun : (blockingBufferPoolMachine.exec (fun s event => decide (CreatesFresh s event))
      { maxAllocatedBuffers := 1 } [.get 1 0 ⟨1, 1, 1⟩, .get 2 0 ⟨2, 2, 2⟩]).isSome = true := by
    decide
  have htwo := h 1 _ le_rfl ((Machine.reachable_exec hrun).mono
    fun _ _ hfresh => of_decide_eq_true hfresh)
  exact absurd htwo (by decide)

end BlockingBufferPool

end Maplang
