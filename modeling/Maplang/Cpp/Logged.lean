import Maplang.Cpp.Basic

/-!
# Code that keeps a log

A `Logged` run is code whose result comes with a log of what it did on the way, also when it fails.
The log is only there to be talked about: the result does not depend on it (`result_bind`).
-/

namespace Maplang

/-- Code that returns a value of type `α`, and the log it has written by then. -/
structure Logged (ε α : Type) where
  log : List ε
  result : Code α

namespace Logged

variable {ε α β : Type}

/-- Code that writes nothing to the log. -/
def run (code : Code α) : Logged ε α := ⟨[], code⟩

/-- Write an entry to the log. -/
def tell (entry : ε) : Logged ε Unit := ⟨[entry], .ok ()⟩

/-- Code that goes on after it has returned; what has been logged stays when it has failed. -/
def bind (x : Logged ε α) (f : α → Logged ε β) : Logged ε β :=
  match x.result with
  | .ok a => ⟨x.log ++ (f a).log, (f a).result⟩
  | .error fault => ⟨x.log, .error fault⟩

instance : Monad (Logged ε) where
  pure a := run (.ok a)
  bind := bind

@[simp] theorem result_run (code : Code α) : (run code : Logged ε α).result = code := rfl

/-- The log does not change the result. -/
@[simp] theorem result_bind (x : Logged ε α) (f : α → Logged ε β) :
    (x >>= f).result = x.result.bind fun a => (f a).result := by
  obtain ⟨log, result⟩ := x
  cases result <;> rfl

/-- What is in a log was written by one of the two. -/
theorem mem_log_bind {x : Logged ε α} {f : α → Logged ε β} {entry : ε}
    (h : entry ∈ (x >>= f).log) :
    entry ∈ x.log ∨ ∃ a, x.result = .ok a ∧ entry ∈ (f a).log := by
  obtain ⟨log, result⟩ := x
  cases result with
  | error fault => exact .inl h
  | ok a => exact (List.mem_append.1 h).imp_right fun hf => ⟨a, rfl, hf⟩

theorem run_ok_bind (a : α) (f : α → Logged ε β) : run (.ok a) >>= f = f a := rfl

theorem run_error_bind (fault : Fault) (f : α → Logged ε β) :
    run (.error fault) >>= f = run (.error fault) := rfl

@[simp] theorem tell_bind (entry : ε) (f : Unit → Logged ε β) :
    tell entry >>= f = ⟨entry :: (f ()).log, (f ()).result⟩ := rfl

theorem bind_pure (x : Logged ε α) (f : α → β) :
    (x >>= fun a => pure (f a)) = ⟨x.log, x.result.map f⟩ := by
  obtain ⟨log, result⟩ := x
  cases result with
  | error fault => rfl
  | ok a => exact congrArg (Logged.mk · _) (List.append_nil log)

end Logged

end Maplang
