import Mathlib.Algebra.Order.Ring.Nat

/-!
# The parts of C++ the models use

* `ByteString` : the contents of a `std::string`, which may hold any bytes.
* `sizeMax`, `sizeAdd`, `sizeSub`, `sizeMul` : `SIZE_MAX`, and the arithmetic of `size_t`, which
  wraps around.
* `ptrdiffMax` : `PTRDIFF_MAX`, which no array in memory exceeds.
* `Code α` : the result of running code: a value, or a `Fault` — an exception with its `what()`
  text, a loop that never ends, or undefined behaviour, after which nothing can be said.
* `Alike R` : two pieces of code return related values, or fail the same way.
* `SharedPtr` : a `shared_ptr` to the only object of its type, or to none.
-/

namespace Maplang

/-- The contents of a `std::string`. -/
abbrev ByteString := List UInt8

/-- The bytes of an (ASCII) string literal. -/
def bytes (literal : String) : ByteString := literal.toList.map fun c => UInt8.ofNat c.toNat

/-- The characters of a name in a message. -/
def asText (name : ByteString) : String := String.ofList (name.map fun c => Char.ofNat c.toNat)

/-- A property of the bytes of a text, computed byte by byte. -/
theorem forall_mem_of_all {p : UInt8 → Prop} [DecidablePred p] {text : ByteString}
    (h : text.all (fun c => decide (p c)) = true) : ∀ c ∈ text, p c := by
  simpa using h

/-- `SIZE_MAX`. -/
def sizeMax : ℕ := 2 ^ 64 - 1

/-- Addition on `size_t`. -/
def sizeAdd (a b : ℕ) : ℕ := (a + b) % 2 ^ 64

/-- Subtraction on `size_t`, whose values are below `2^64`: it wraps around. -/
def sizeSub (a b : ℕ) : ℕ := if b ≤ a then a - b else a + 2 ^ 64 - b

/-- Multiplication on `size_t`. -/
def sizeMul (a b : ℕ) : ℕ := a * b % 2 ^ 64

/-- `PTRDIFF_MAX`. -/
def ptrdiffMax : ℕ := 2 ^ 63 - 1

/-- Why code did not return a value. -/
inductive Fault where
  /-- An exception with this `what()` left the function. -/
  | exception (what : String)
  /-- A loop of the function does not end. -/
  | nontermination
  /-- The function did something the language gives no meaning to. -/
  | undefinedBehaviour
  deriving DecidableEq, Repr

/-- The result of running code. -/
abbrev Code (α : Type*) := Except Fault α

/-- `throw runtime_error(what)`. -/
def throwRuntimeError {α : Type*} (what : String) : Code α := .error (.exception what)

/-- A `shared_ptr` to the only object of its type that there is, or to none. -/
inductive SharedPtr where
  | nullptr
  | object
  deriving DecidableEq, Repr

/-- `*pointer`, when the object is `object`: undefined if the pointer is null. -/
def SharedPtr.deref {α : Type*} (pointer : SharedPtr) (object : α) : Code α :=
  match pointer with
  | .nullptr => .error .undefinedBehaviour
  | .object => .ok object

/-- **Code that returns has run each of its steps.** -/
theorem bind_eq_ok {α β : Type*} {code : Code α} {f : α → Code β} {b : β} :
    code.bind f = .ok b ↔ ∃ a, code = .ok a ∧ f a = .ok b := by
  cases code with
  | error fault => exact ⟨nofun, fun ⟨_, h, _⟩ => nomatch h⟩
  | ok a => exact ⟨fun h => ⟨a, rfl, h⟩, fun ⟨_, h, hf⟩ => Except.ok.inj h ▸ hf⟩

/-- Code that returns a pair returns no other one. -/
theorem ok_pair_unique {α β : Type*} {code : Code (α × β)} {a a' : α} {b b' : β}
    (h : code = .ok (a, b)) (h' : code = .ok (a', b')) : a = a' ∧ b = b' :=
  Prod.mk.inj (Except.ok.inj (h.symm.trans h'))

/-- Two pieces of code return related values, or fail the same way. -/
inductive Alike {α β : Type*} (R : α → β → Prop) : Code α → Code β → Prop
  | ok {a : α} {b : β} : R a b → Alike R (.ok a) (.ok b)
  | error (fault : Fault) : Alike R (.error fault) (.error fault)

theorem Alike.bind {α β γ δ : Type*} {R : α → β → Prop} {S : γ → δ → Prop} {code : Code α}
    {code' : Code β} {f : α → Code γ} {g : β → Code δ} (h : Alike R code code')
    (hf : ∀ a b, R a b → Alike S (f a) (g b)) : Alike S (code.bind f) (code'.bind g) := by
  cases h with
  | ok hab => exact hf _ _ hab
  | error fault => exact .error fault

/-- Code runs like itself. -/
theorem Alike.refl {α : Type*} (code : Code α) : Alike (· = ·) code code := by
  cases code with
  | ok a => exact .ok rfl
  | error fault => exact .error fault

/-- What holds of a result that code returns. -/
theorem exists_ok_iff {α β : Type*} {code : Code (α × β)} {a : α} {b : β} (h : code = .ok (a, b))
    (P : α → Prop) : (∃ a' b', code = .ok (a', b') ∧ P a') ↔ P a := by
  constructor
  · rintro ⟨a', b', h', hP⟩
    obtain ⟨rfl, rfl⟩ := ok_pair_unique h' h
    exact hP
  · exact fun hP => ⟨a, b, h, hP⟩

theorem sizeAdd_eq {a b : ℕ} (h : a + b ≤ sizeMax) : sizeAdd a b = a + b :=
  Nat.mod_eq_of_lt (by unfold sizeMax at h; omega)

theorem sizeMul_eq {a b : ℕ} (h : a * b ≤ sizeMax) : sizeMul a b = a * b :=
  Nat.mod_eq_of_lt (by unfold sizeMax at h; omega)

theorem sizeSub_eq {a b : ℕ} (h : b ≤ a) : sizeSub a b = a - b := if_pos h

end Maplang
