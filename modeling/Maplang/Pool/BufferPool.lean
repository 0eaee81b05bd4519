import Maplang.Cpp.Basic
import Maplang.Machine.Basic
import Maplang.Pool.Generations

/-!
# Pools of buffers

A `BufferPool` hands out buffers that the factory has created, and gets them back when they are
released.  When a larger buffer is asked for than ever before, it starts a new queue.

## Main definitions

* `BufferRef` : a buffer, by its pointer.
* `BufferPool`, `BufferPool.get` : the pool.
* `bufferPoolMachine` : calls and releases in any order.  `try_dequeue` may get any buffer, or miss
  those that are there.
* `Serves` : the buffers of a pool have memories of their own, and the current ones the right
  length.

## Main results

* `BufferPool.get_spec` : a buffer that is handed out is long enough, and nobody else has it.
* `BufferPool.handsOut_of_reachable` : this is so in every state.
-/

namespace Maplang

/-- A buffer: the pointer, the size of the memory it points to, and the length. -/
structure BufferRef where
  data : ℕ
  capacity : ℕ
  length : ℕ
  deriving DecidableEq, Repr

/-- `class BufferPool`, less its factory, and the buffers that are out. -/
structure BufferPool extends Pool BufferRef where
  bufferSize : ℕ := 0
  /-- The destructor has run. -/
  destroyed : Bool := false

namespace BufferPool

/-- The queue is replaced when a larger buffer is asked for. -/
def grow (s : BufferPool) (bufferSize : ℕ) : BufferPool :=
  if s.bufferSize < bufferSize then { s with toPool := s.renew, bufferSize } else s

/-- The end of `get`: the buffer that is handed out goes back to the queue when it is released. -/
def handOut (pool : Pool BufferRef) (bufferSize : ℕ) (sourceBuffer : BufferRef) :
    Code (BufferRef × Pool BufferRef) :=
  if sourceBuffer.length < bufferSize then
    throwRuntimeError "Buffer Pool internal error. Recycled buffer is too small."
  else .ok ({ sourceBuffer with length := bufferSize }, pool.lend sourceBuffer)

/-- `BufferPool::get`, where `try_dequeue` finds the buffer at an index, if there is one, and
otherwise `Create` returns `created`.  The buffer of length zero is `none`. -/
def get (s : BufferPool) (bufferSize dequeued : ℕ) (created : BufferRef) :
    Code (Option BufferRef × BufferPool) :=
  if bufferSize = 0 then .ok (none, s)
  else
    let s := s.grow bufferSize
    match s.queue with
    | none => .error .undefinedBehaviour
    | some _ => do
      let (sourceBuffer, pool) := (s.dequeue dequeued).getD (created, s.toPool)
      let (poolBuffer, pool) ← handOut pool bufferSize sourceBuffer
      return (some poolBuffer, { s with toPool := pool })

/-- What happens to a pool. -/
inductive Event where
  | get (bufferSize dequeued : ℕ) (created : BufferRef)
  | release (index : ℕ)
  | destroy

/-- `Create` returns a buffer of the length it is asked for, with a memory that no other buffer
has. -/
def Creates (pool : Pool BufferRef) (bufferSize : ℕ) (created : BufferRef) : Prop :=
  created.length = bufferSize ∧ created.length ≤ created.capacity ∧
    created.data ∉ pool.alive.map BufferRef.data

instance (pool : Pool BufferRef) (bufferSize : ℕ) (created : BufferRef) :
    Decidable (Creates pool bufferSize created) := inferInstanceAs (Decidable (_ ∧ _))

/-- The step condition: new buffers are new. -/
def CreatesFresh (s : BufferPool) : Event → Prop
  | .get bufferSize _ created => Creates (s.grow bufferSize).toPool (s.grow bufferSize).bufferSize
    created
  | _ => True

instance (s : BufferPool) : DecidablePred (CreatesFresh s)
  | .get _ _ _ => inferInstanceAs (Decidable (Creates _ _ _))
  | .release _ | .destroy => inferInstanceAs (Decidable True)

end BufferPool

/-- The machine of a pool: it is not used after it is destroyed, but buffers still come back. -/
def bufferPoolMachine : Machine BufferPool BufferPool.Event where
  step s
    | .get bufferSize dequeued created =>
      if s.destroyed then none else (s.get bufferSize dequeued created).toOption.map Prod.snd
    | .release index => (s.release index).map fun pool => { s with toPool := pool }
    | .destroy => if s.destroyed then none else some { s with toPool := s.drop, destroyed := true }

namespace BufferPool

/-! ### The buffers of a pool -/

/-- The buffers that exist have memories of their own, and the current ones the right length. -/
structure Serves (pool : Pool BufferRef) (bufferSize : ℕ) : Prop where
  valid : pool.Valid
  exclusive : (pool.alive.map BufferRef.data).Nodup
  current : ∀ buffer ∈ pool.current, buffer.length = bufferSize ∧ buffer.length ≤ buffer.capacity

theorem serves_empty : Serves {} 0 := ⟨Pool.valid_empty, .nil, by simp [Pool.current, Pool.stock,
  Pool.inUse]⟩

section

variable {pool pool' : Pool BufferRef} {bufferSize i : ℕ} {buffer created : BufferRef}

/-- Buffers may be lost. -/
theorem Serves.subperm (h : Serves pool bufferSize) (hvalid : pool'.Valid)
    (halive : pool'.alive.Subperm pool.alive) (hcurrent : pool'.current.Subperm pool.current) :
    Serves pool' bufferSize where
  valid := hvalid
  exclusive := Pool.nodup_map_of_subperm halive h.exclusive
  current buffer hbuffer := h.current buffer (hcurrent.subset hbuffer)

theorem Serves.renew (h : Serves pool bufferSize) (bufferSize' : ℕ) :
    Serves pool.renew bufferSize' where
  valid := h.valid.renew
  exclusive := Pool.nodup_map_of_subperm pool.out_subperm_alive h.exclusive
  current buffer hbuffer := by
    rw [Pool.current_renew h.valid] at hbuffer
    cases hbuffer

theorem Serves.dequeue (h : Serves pool bufferSize) (hs : pool.dequeue i = some (buffer, pool')) :
    Serves (pool'.lend buffer) bufferSize :=
  h.subperm ((h.valid.dequeue hs).lend buffer) (Pool.alive_dequeue hs).subperm
    (Pool.current_dequeue hs).subperm

theorem Serves.create (h : Serves pool bufferSize) (hcreated : Creates pool bufferSize created) :
    Serves (pool.lend created) bufferSize where
  valid := h.valid.lend created
  exclusive := by
    rw [((Pool.alive_lend pool created).map _).nodup_iff, List.map_cons]
    exact List.nodup_cons.2 ⟨hcreated.2.2, h.exclusive⟩
  current buffer hbuffer := by
    rcases List.mem_cons.1 ((Pool.current_lend pool created).subset hbuffer) with rfl | hold
    · exact ⟨hcreated.1, hcreated.2.1⟩
    · exact h.current buffer hold

theorem Serves.release (h : Serves pool bufferSize) (hs : pool.release i = some pool') :
    Serves pool' bufferSize :=
  h.subperm (h.valid.release hs) (Pool.release_alive hs) (Pool.release_current hs).1

theorem Serves.drop (h : Serves pool bufferSize) : Serves pool.drop bufferSize :=
  h.subperm h.valid pool.out_subperm_alive pool.current_drop_subperm

/-- A buffer that is lent belongs to the current ones, and its memory to no other buffer. -/
theorem Serves.lent (h : Serves (pool.lend buffer) bufferSize) :
    buffer.length = bufferSize ∧ buffer.length ≤ buffer.capacity ∧
      buffer.data ∉ pool.out.map BufferRef.data := by
  have hcurrent := h.current buffer
    ((Pool.current_lend pool buffer).symm.subset (List.mem_cons_self ..))
  have hout := Pool.nodup_map_of_subperm (pool.lend buffer).out_subperm_alive h.exclusive
  exact ⟨hcurrent.1, hcurrent.2, (List.nodup_cons.1 hout).1⟩

end

/-! ### Runs -/

/-- The invariant of a pool. -/
structure Inv (s : BufferPool) : Prop where
  serves : Serves s.toPool s.bufferSize
  queue : s.destroyed = false → 0 < s.bufferSize → s.queue ≠ none

theorem inv_empty : Inv {} := ⟨serves_empty, fun _ h => absurd h (lt_irrefl _)⟩

section

variable {s s' : BufferPool} {bufferSize : ℕ}

theorem Inv.grow (h : Inv s) (hdestroyed : s.destroyed = false) (hsize : bufferSize ≠ 0) :
    Serves (s.grow bufferSize).toPool (s.grow bufferSize).bufferSize ∧
      bufferSize ≤ (s.grow bufferSize).bufferSize ∧ (s.grow bufferSize).queue ≠ none ∧
      (s.grow bufferSize).held = s.held ∧ (s.grow bufferSize).destroyed = false := by
  rw [BufferPool.grow]
  split
  · exact ⟨h.serves.renew bufferSize, le_rfl, Option.some_ne_none _, rfl, hdestroyed⟩
  · rename_i hlarge
    have hle := Nat.le_of_not_lt hlarge
    exact ⟨h.serves, hle, h.queue hdestroyed (by omega), rfl, hdestroyed⟩

/-- The buffer that is handed out at the end of `get`. -/
theorem Serves.handOut {pool : Pool BufferRef} {buffer : BufferRef} {size : ℕ}
    (h : Serves (pool.lend buffer) size) (hsize : bufferSize ≤ size) :
    handOut pool bufferSize buffer = .ok ({ buffer with length := bufferSize }, pool.lend buffer) ∧
      bufferSize ≤ buffer.capacity := by
  obtain ⟨hlength, hcapacity, -⟩ := h.lent
  exact ⟨by rw [BufferPool.handOut, if_neg (by omega)], by omega⟩

/-- **A buffer that is handed out** has the length that was asked for, its memory is large enough,
and no buffer that is out has the same memory. -/
theorem get_spec (h : Inv s) (hdestroyed : s.destroyed = false) (hsize : bufferSize ≠ 0)
    (dequeued : ℕ) {created : BufferRef}
    (hfresh : CreatesFresh s (.get bufferSize dequeued created)) :
    ∃ poolBuffer s', s.get bufferSize dequeued created = .ok (some poolBuffer, s') ∧ Inv s' ∧
      poolBuffer.length = bufferSize ∧ bufferSize ≤ poolBuffer.capacity ∧
      poolBuffer.data ∉ s.out.map BufferRef.data := by
  obtain ⟨hserves, hle, hqueue, hheld, halive⟩ := h.grow hdestroyed hsize
  rw [CreatesFresh] at hfresh
  simp only [get, if_neg hsize]
  generalize s.grow bufferSize = g at hserves hle hqueue hheld halive hfresh ⊢
  obtain ⟨xs, hxs⟩ := Option.ne_none_iff_exists'.1 hqueue
  -- the buffer is dequeued or created
  obtain ⟨buffer, pool, hsource, hlent, hqueue', hout⟩ : ∃ buffer pool,
      (g.dequeue dequeued).getD (created, g.toPool) = (buffer, pool) ∧
        Serves (pool.lend buffer) g.bufferSize ∧ pool.queue ≠ none ∧ pool.out = s.out := by
    cases hdequeue : g.dequeue dequeued with
    | none =>
      exact ⟨created, g.toPool, rfl, hserves.create hfresh, hqueue, congrArg (List.map _) hheld⟩
    | some taken =>
      have hsame := (Pool.held_dequeue hdequeue).trans hheld
      exact ⟨taken.1, taken.2, rfl, hserves.dequeue hdequeue, Pool.queue_dequeue hdequeue,
        congrArg (List.map _) hsame⟩
  obtain ⟨hhand, hcapacity⟩ := hlent.handOut hle
  simp only [hxs, hsource, hhand]
  exact ⟨_, _, rfl, ⟨hlent, fun _ _ => hqueue'⟩, rfl, hcapacity, hout ▸ hlent.lent.2.2⟩

theorem Inv.step (h : Inv s) {event : Event} (hfresh : CreatesFresh s event)
    (hs : bufferPoolMachine.step s event = some s') : Inv s' := by
  cases event with
  | get bufferSize dequeued created =>
    simp only [bufferPoolMachine] at hs
    split at hs
    · cases hs
    · rename_i hdestroyed
      rw [Bool.not_eq_true] at hdestroyed
      by_cases hsize : bufferSize = 0
      · rw [get, if_pos hsize] at hs
        obtain rfl := Option.some.inj hs
        exact h
      · obtain ⟨_, s₁, hget, hinv, -⟩ := get_spec h hdestroyed hsize dequeued hfresh
        rw [hget] at hs
        obtain rfl := Option.some.inj hs
        exact hinv
  | release index =>
    obtain ⟨pool, hpool, rfl⟩ := Option.map_eq_some_iff.1 hs
    exact ⟨h.serves.release hpool, fun hdestroyed hsize hnone =>
      h.queue hdestroyed hsize ((Pool.queue_release hpool).1 hnone)⟩
  | destroy =>
    simp only [bufferPoolMachine] at hs
    split at hs
    · cases hs
    · obtain rfl := Option.some.inj hs
      exact ⟨h.serves.drop, fun hdestroyed => Bool.noConfusion hdestroyed⟩

end

end BufferPool

end Maplang
