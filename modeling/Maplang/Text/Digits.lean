import Maplang.Cpp.Basic
import Maplang.Text.Search

/-!
# Numbers in decimal

`std::to_string` and the output of a number write its decimal digits.

* `le_of_mem_toString`, `notMem_of_toString` : the bytes of a number are digits.
* `toString_inj` : different numbers are written differently.
* `append_number_inj` : a number behind a separator can be told from what is in front of it.
-/

namespace Maplang

theorem toNat_of_mem_toString {n : ℕ} {d : Char} (h : d ∈ (toString n).toList) :
    48 ≤ d.toNat ∧ d.toNat ≤ 57 := by
  have hmem : d ∈ Nat.toDigits 10 n := by
    rw [← Nat.toList_repr]
    exact h
  have hdigit := Nat.isDigit_of_mem_toDigits (by decide) (by decide) hmem
  rw [Char.isDigit, Bool.and_eq_true, decide_eq_true_eq, decide_eq_true_eq] at hdigit
  exact ⟨UInt32.le_iff_toNat_le.1 hdigit.1, UInt32.le_iff_toNat_le.1 hdigit.2⟩

/-- The bytes of a number are digits. -/
theorem digit_of_mem_toString {n : ℕ} {c : UInt8} (h : c ∈ bytes (toString n)) :
    48 ≤ c.toNat ∧ c.toNat ≤ 57 := by
  obtain ⟨d, hd, rfl⟩ := List.mem_map.1 h
  have hdigit := toNat_of_mem_toString hd
  rwa [UInt8.toNat_ofNat_of_lt' (hdigit.2.trans_lt (by decide))]

/-- They are above all white space. -/
theorem le_of_mem_toString {n : ℕ} {c : UInt8} (h : c ∈ bytes (toString n)) : 48 ≤ c.toNat :=
  (digit_of_mem_toString h).1

theorem notMem_of_toString {n : ℕ} {c : UInt8} (h : c ∈ bytes (toString n)) {set : ByteString}
    (hset : set.all (fun c => decide (c.toNat < 48)) = true) : c ∉ set := fun hc => by
  have hlow := le_of_mem_toString h
  have hhigh := forall_mem_of_all hset c hc
  omega

/-- The characters of a text can be read from its bytes. -/
theorem map_bytes {literal : String} (h : ∀ c ∈ literal.toList, c.toNat < 256) :
    (bytes literal).map (fun c => Char.ofNat c.toNat) = literal.toList := by
  rw [bytes, List.map_map]
  refine (List.map_congr_left fun c hc => ?_).trans (List.map_id _)
  simp [UInt8.toNat_ofNat_of_lt' (h c hc), Char.ofNat_toNat]

/-- Different numbers are written differently. -/
theorem toString_inj {n m : ℕ} (h : bytes (toString n) = bytes (toString m)) : n = m := by
  have hascii : ∀ k : ℕ, ∀ c ∈ (toString k).toList, c.toNat < 256 := fun k c hc =>
    (toNat_of_mem_toString hc).2.trans_lt (by decide)
  have hlist := (map_bytes (hascii n)).symm.trans ((congrArg _ h).trans (map_bytes (hascii m)))
  -- a number is read from its digits
  rw [show (toString n).toList = Nat.toDigits 10 n from Nat.toList_repr,
    show (toString m).toList = Nat.toDigits 10 m from Nat.toList_repr] at hlist
  rw [← @Nat.ofDigitChars_ten_toDigits n, hlist, Nat.ofDigitChars_ten_toDigits]

/-- The number is what comes after the last separator. -/
theorem append_number_inj {separator : UInt8} {front front' : ByteString} {n m : ℕ}
    (hseparator : separator.toNat < 48 ∨ 57 < separator.toNat)
    (h : front ++ [separator] ++ bytes (toString n) =
      front' ++ [separator] ++ bytes (toString m)) : front = front' ∧ n = m := by
  have hnot : ∀ k : ℕ, separator ∉ bytes (toString k) := fun k hmem => by
    have hdigit := digit_of_mem_toString hmem
    omega
  have hnumber := Search.eq_of_append_cons (hnot n) (hnot m) (by simpa using h)
  rw [hnumber] at h
  exact ⟨List.append_cancel_right (List.append_cancel_right h), toString_inj hnumber⟩

end Maplang
