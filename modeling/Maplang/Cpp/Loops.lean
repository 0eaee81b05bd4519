import Maplang.Cpp.Basic

/-!
# Loops that may throw

A loop over a list that stops where its body fails.  Whether it ends depends on what it has passed:
if a property of what has been passed allows the next round exactly if it holds with the next
element too, the loop ends exactly if the property holds of the whole list (`foldlM_ok`).
-/

namespace Maplang

variable {α β : Type*}

/-- What one round of a loop does: it is passed exactly if a property of the elements that have been
passed goes on to hold, and then it keeps an invariant. -/
structure Round (f : β → α → Code β) (Good : List α → Prop) (I : List α → β → Prop) : Prop where
  /-- What holds of a list holds of what comes first in it. -/
  initial : ∀ done rest, Good (done ++ rest) → Good done
  passes : ∀ done a b, I done b → Good (done ++ [a]) → ∃ b', f b a = .ok b' ∧ I (done ++ [a]) b'
  stops : ∀ done a b b', I done b → Good done → f b a = .ok b' → Good (done ++ [a])

/-- **A loop ends** exactly if its property holds of the whole list, and then its invariant does. -/
theorem foldlM_ok {f : β → α → Code β} {Good : List α → Prop} {I : List α → β → Prop}
    (h : Round f Good I) (done l : List α) {b : β} (hI : I done b) (hgood : Good done) :
    ((∃ b', l.foldlM f b = .ok b') ↔ Good (done ++ l)) ∧
      ∀ b', l.foldlM f b = .ok b' → I (done ++ l) b' := by
  induction l generalizing done b with
  | nil =>
    rw [List.append_nil]
    exact ⟨iff_of_true ⟨b, rfl⟩ hgood, fun b' hb' => Except.ok.inj hb' ▸ hI⟩
  | cons a l ih =>
    have hsplit : done ++ a :: l = (done ++ [a]) ++ l := List.append_cons done a l
    have hcons : (a :: l).foldlM f b = (f b a).bind fun b' => l.foldlM f b' := List.foldlM_cons
    rw [hsplit, hcons]
    by_cases hnext : Good (done ++ [a])
    · obtain ⟨b', hb', hI'⟩ := h.passes done a b hI hnext
      rw [hb']
      exact ih (done ++ [a]) hI' hnext
    · have hstops : ∀ b', (f b a).bind (fun b' => l.foldlM f b') ≠ .ok b' := by
        intro b' hb'
        obtain ⟨b'', hb'', -⟩ := bind_eq_ok.1 hb'
        exact hnext (h.stops done a b b'' hI hgood hb'')
      exact ⟨iff_of_false (fun ⟨b', hb'⟩ => hstops b' hb') fun hall => hnext (h.initial _ l hall),
        fun b' hb' => absurd hb' (hstops b')⟩

/-- A loop in a loop. -/
theorem foldlM_flatMap {γ : Type*} (f : β → γ → Code β) (g : α → List γ) (l : List α) (b : β) :
    l.foldlM (fun b a => (g a).foldlM f b) b = (l.flatMap g).foldlM f b := by
  induction l generalizing b with
  | nil => rfl
  | cons a l ih =>
    rw [List.flatMap_cons, List.foldlM_append, List.foldlM_cons]
    exact bind_congr ih

end Maplang
