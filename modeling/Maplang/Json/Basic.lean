import Maplang.Cpp.Basic
import Mathlib.Data.Int.Notation
import Mathlib.Data.List.Basic

/-!
# JSON values

The part of `nlohmann::json` the data graph and its nodes use.  An object is a `std::map` from
byte strings to values: its members are kept in key order, and every operation looks a key up
before it adds it, so a key never occurs twice.

* `Json.find` : the value of a key of an object.
* `Json.set` : `object[key] = value`, which turns `null` into an object.
* `Json.insert` : `insert(first, last)`, which adds the members of another object and overwrites
  none (`find_insert`).
* `Json.getString`, `Json.getBool`, `Json.getUInt64` : `get<std::string>()`, `get<bool>()` and
  `get<std::uint64_t>()`.
-/

namespace Maplang

/-- A JSON value.  A floating point number is kept as its 64 bits. -/
inductive Json where
  | null
  | boolean (value : Bool)
  | numberInteger (value : ℤ)
  | numberUnsigned (value : ℕ)
  | numberFloat (bits : UInt64)
  | string (value : ByteString)
  | array (elements : List Json)
  | object (members : List (ByteString × Json))
  deriving Repr, Inhabited

namespace Json

/-- `type_name()`. -/
def typeName : Json → String
  | null => "null"
  | object _ => "object"
  | array _ => "array"
  | string _ => "string"
  | boolean _ => "boolean"
  | _ => "number"

/-- `is_null()`. -/
def isNull : Json → Bool
  | null => true
  | _ => false

/-- The exceptions of the JSON library. -/
def throwJson {α : Type*} (name : String) (id : ℕ) (what : String) : Code α :=
  .error (.exception ("[json.exception." ++ name ++ "." ++ toString id ++ "] " ++ what))

/-! ### Members -/

/-- Put a key that is not there yet in its place. -/
def placeMember (key : ByteString) (value : Json) :
    List (ByteString × Json) → List (ByteString × Json)
  | [] => [(key, value)]
  | m :: ms => if key < m.1 then (key, value) :: m :: ms else m :: placeMember key value ms

/-- Overwrite the value of a key that is there. -/
def replaceMember (key : ByteString) (value : Json) :
    List (ByteString × Json) → List (ByteString × Json)
  | [] => []
  | m :: ms => if m.1 = key then (key, value) :: ms else m :: replaceMember key value ms

/-- `map[key] = value`. -/
def setMember (members : List (ByteString × Json)) (key : ByteString) (value : Json) :
    List (ByteString × Json) :=
  if (members.lookup key).isSome then replaceMember key value members
  else placeMember key value members

/-- `map.insert({key, value})`, which does not overwrite. -/
def insertMember (members : List (ByteString × Json)) (m : ByteString × Json) :
    List (ByteString × Json) :=
  if (members.lookup m.1).isSome then members else placeMember m.1 m.2 members

theorem lookup_cons (m : ByteString × Json) (ms : List (ByteString × Json)) (k : ByteString) :
    (m :: ms).lookup k = if k = m.1 then some m.2 else ms.lookup k := by
  by_cases hk : k = m.1
  · rw [if_pos hk, List.lookup_cons, beq_iff_eq.2 hk]
  · rw [if_neg hk, List.lookup_cons, beq_eq_false_iff_ne.2 hk]

theorem lookup_placeMember {key : ByteString} {value : Json} {ms : List (ByteString × Json)}
    (h : ms.lookup key = none) (k : ByteString) :
    (placeMember key value ms).lookup k = if k = key then some value else ms.lookup k := by
  induction ms with
  | nil => simp [placeMember, lookup_cons]
  | cons m ms ih =>
    rw [lookup_cons] at h
    split_ifs at h with hm
    rw [placeMember]
    by_cases hlt : key < m.1
    · rw [if_pos hlt, lookup_cons]
    · rw [if_neg hlt, lookup_cons, ih h, lookup_cons]
      by_cases hk : k = key
      · simp [hk, hm]
      · simp [hk]

theorem lookup_replaceMember {key : ByteString} {value : Json} {ms : List (ByteString × Json)}
    (h : (ms.lookup key).isSome) (k : ByteString) :
    (replaceMember key value ms).lookup k = if k = key then some value else ms.lookup k := by
  induction ms with
  | nil => simp at h
  | cons m ms ih =>
    rw [replaceMember]
    by_cases hm : m.1 = key
    · rw [if_pos hm, lookup_cons, lookup_cons, hm]
      by_cases hk : k = key <;> simp [hk]
    · rw [if_neg hm]
      have h' : (ms.lookup key).isSome := by
        simpa [lookup_cons, Ne.symm hm] using h
      rw [lookup_cons, ih h', lookup_cons]
      by_cases hk : k = key
      · simp [hk, Ne.symm hm]
      · simp [hk]

@[simp] theorem lookup_setMember (ms : List (ByteString × Json)) (key : ByteString) (value : Json)
    (k : ByteString) :
    (setMember ms key value).lookup k = if k = key then some value else ms.lookup k := by
  unfold setMember
  split
  · rename_i h
    exact lookup_replaceMember h k
  · rename_i h
    exact lookup_placeMember (Option.not_isSome_iff_eq_none.1 h) k

/-- Setting members leaves the other keys. -/
theorem lookup_setMembers {α : Type*} (value : α → Json) {ms : List (ByteString × Json)}
    {ts : List (ByteString × α)} {k : ByteString} (h : ∀ t ∈ ts, t.1 ≠ k) :
    (ts.foldl (fun ms t => setMember ms t.1 (value t.2)) ms).lookup k = ms.lookup k := by
  induction ts generalizing ms with
  | nil => rfl
  | cons t ts ih =>
    rw [List.foldl_cons, ih fun t' ht' => h t' (by simp [ht']), lookup_setMember,
      if_neg (Ne.symm (h t (by simp)))]

@[simp] theorem lookup_insertMember (ms : List (ByteString × Json)) (m : ByteString × Json)
    (k : ByteString) :
    (insertMember ms m).lookup k = (ms.lookup k).or (if k = m.1 then some m.2 else none) := by
  unfold insertMember
  split
  · rename_i h
    by_cases hk : k = m.1
    · subst hk
      obtain ⟨v, hv⟩ := Option.isSome_iff_exists.1 h
      simp [hv]
    · simp [hk]
  · rename_i h
    have hnone : ms.lookup m.1 = none := Option.not_isSome_iff_eq_none.1 h
    rw [lookup_placeMember hnone]
    by_cases hk : k = m.1
    · subst hk; simp [hnone]
    · simp [hk]

/-- Inserting a range of members: the first member of each new key is added. -/
theorem lookup_insertMembers (ms range : List (ByteString × Json)) (k : ByteString) :
    (range.foldl insertMember ms).lookup k = (ms.lookup k).or (range.lookup k) := by
  induction range generalizing ms with
  | nil => simp
  | cons m range ih =>
    rw [List.foldl_cons, ih, lookup_insertMember, lookup_cons, Option.or_assoc]
    by_cases hk : k = m.1 <;> simp [hk]

/-! ### The order of the members -/

/-- The members are in key order, and no key occurs twice. -/
def KeyOrder (members : List (ByteString × Json)) : Prop :=
  (members.map Prod.fst).Pairwise (· < ·)

theorem keyOrder_nil : KeyOrder [] := .nil

theorem keyOrder_cons (m : ByteString × Json) (ms : List (ByteString × Json)) :
    KeyOrder (m :: ms) ↔ (∀ k ∈ ms.map Prod.fst, m.1 < k) ∧ KeyOrder ms := by
  rw [KeyOrder, List.map_cons, List.pairwise_cons, KeyOrder]

theorem mem_keys_placeMember {key k : ByteString} {value : Json} {ms : List (ByteString × Json)} :
    k ∈ (placeMember key value ms).map Prod.fst ↔ k = key ∨ k ∈ ms.map Prod.fst := by
  induction ms with
  | nil => simp [placeMember]
  | cons m ms ih =>
    rw [placeMember]
    split
    · rw [List.map_cons, List.mem_cons]
    · rw [List.map_cons, List.mem_cons, ih, List.map_cons, List.mem_cons, or_left_comm]

theorem keys_replaceMember {key : ByteString} {value : Json} {ms : List (ByteString × Json)} :
    (replaceMember key value ms).map Prod.fst = ms.map Prod.fst := by
  induction ms with
  | nil => rfl
  | cons m ms ih =>
    rw [replaceMember]
    split
    · rw [List.map_cons, List.map_cons, ‹m.1 = key›]
    · rw [List.map_cons, List.map_cons, ih]

theorem keyOrder_placeMember {key : ByteString} {value : Json} {ms : List (ByteString × Json)}
    (h : KeyOrder ms) (hnew : ms.lookup key = none) : KeyOrder (placeMember key value ms) := by
  induction ms with
  | nil => exact List.pairwise_singleton _ _
  | cons m ms ih =>
    obtain ⟨hfirst, hrest⟩ := (keyOrder_cons m ms).1 h
    rw [lookup_cons] at hnew
    split_ifs at hnew with hm
    rw [placeMember]
    by_cases hlt : key < m.1
    · rw [if_pos hlt, keyOrder_cons]
      refine ⟨fun k hk => ?_, h⟩
      rw [List.map_cons, List.mem_cons] at hk
      rcases hk with rfl | hk
      · exact hlt
      · exact List.lt_trans hlt (hfirst k hk)
    · rw [if_neg hlt, keyOrder_cons]
      refine ⟨fun k hk => ?_, ih hrest hnew⟩
      rcases mem_keys_placeMember.1 hk with rfl | hk
      · exact Std.lt_of_le_of_ne hlt (Ne.symm hm)
      · exact hfirst k hk

/-- Setting a member keeps the order. -/
theorem keyOrder_setMember {ms : List (ByteString × Json)} (h : KeyOrder ms) (key : ByteString)
    (value : Json) : KeyOrder (setMember ms key value) := by
  unfold setMember
  split
  · rw [KeyOrder, keys_replaceMember]
    exact h
  · rename_i hnew
    exact keyOrder_placeMember h (Option.not_isSome_iff_eq_none.1 hnew)

/-! ### Values -/

/-- The value of a key, `none` when there is no such key or the value is not an object. -/
def find : Json → ByteString → Option Json
  | object members, key => members.lookup key
  | _, _ => none

/-- The text of a key of an object, empty when there is none. -/
def stringAt (j : Json) (key : ByteString) : ByteString :=
  match j.find key with
  | some (string value) => value
  | _ => []

/-- `is_object()`. -/
def isObject : Json → Bool
  | object _ => true
  | _ => false

/-- `json[key] = value`. -/
def set (j : Json) (key : ByteString) (value : Json) : Code Json :=
  match j with
  | null => .ok (object [(key, value)])
  | object members => .ok (object (setMember members key value))
  | j => throwJson "type_error" 305
      ("cannot use operator[] with a string argument with " ++ j.typeName)

/-- `const json[key]`: reading a key that is not there is undefined. -/
def get (j : Json) (key : ByteString) : Code Json :=
  match j with
  | object members =>
    match members.lookup key with
    | some value => .ok value
    | none => .error .undefinedBehaviour
  | j => throwJson "type_error" 305
      ("cannot use operator[] with a string argument with " ++ j.typeName)

/-- `insert(other.begin(), other.end())`. -/
def insert (j other : Json) : Code Json :=
  match j, other with
  | object members, object range => .ok (object (range.foldl insertMember members))
  | object _, _ => throwJson "invalid_iterator" 202 "iterators first and last must point to objects"
  | j, _ => throwJson "type_error" 309 ("cannot use insert() with " ++ j.typeName)

/-- `get<std::string>()`. -/
def getString : Json → Code ByteString
  | string value => .ok value
  | j => throwJson "type_error" 302 ("type must be string, but is " ++ j.typeName)

/-- `get<bool>()`. -/
def getBool : Json → Code Bool
  | boolean value => .ok value
  | j => throwJson "type_error" 302 ("type must be boolean, but is " ++ j.typeName)

/-- A flag that is false unless the object has it: `json.contains(key) ? json[key].get<bool>() :
false`. -/
def flagAt (j : Json) (key : ByteString) : Code Bool :=
  match j.find key with
  | some value => value.getBool
  | none => .ok false

/-- `static_cast<std::uint64_t>` of a floating point number: the integer part, undefined when it
does not fit. -/
def truncateFloat (bits : UInt64) : Code ℕ :=
  let exponent := bits.toNat / 2 ^ 52 % 2 ^ 11
  let fraction := bits.toNat % 2 ^ 52
  if exponent < 1023 then .ok 0
  else if 2 ^ 63 ≤ bits.toNat ∨ 1023 + 64 ≤ exponent then .error .undefinedBehaviour
  else .ok ((2 ^ 52 + fraction) * 2 ^ (exponent - 1023) / 2 ^ 52)

/-- `get<std::uint64_t>()`. -/
def getUInt64 : Json → Code ℕ
  | numberUnsigned n => .ok n
  | numberInteger z => .ok (z % 2 ^ 64).toNat
  | numberFloat bits => truncateFloat bits
  | j => throwJson "type_error" 302 ("type must be number, but is " ++ j.typeName)

@[simp] theorem find_object (members : List (ByteString × Json)) (key : ByteString) :
    (object members).find key = members.lookup key := rfl

/-- A member that is there can be read. -/
theorem get_of_find {j value : Json} {key : ByteString} (h : j.find key = some value) :
    j.get key = .ok value := by
  cases j with
  | object members =>
    rw [find_object] at h
    rw [get, h]
  | _ => cases h

theorem stringAt_of_find {j : Json} {key value : ByteString}
    (h : j.find key = some (string value)) : j.stringAt key = value := by
  rw [stringAt, h]

theorem isObject_iff {j : Json} : j.isObject = true ↔ ∃ members, j = object members := by
  cases j <;> simp [isObject]

/-- **Insertion is a left-biased union**: keys of the receiver keep their values. -/
theorem find_insert {j other k' : Json} (h : j.insert other = .ok k') (key : ByteString) :
    k'.isObject = true ∧ k'.find key = (j.find key).or (other.find key) := by
  cases j <;> cases other <;> try cases h
  exact ⟨rfl, lookup_insertMembers _ _ key⟩

/-- Two objects can always be merged. -/
theorem insert_ok {j other : Json} (hj : j.isObject = true) (ho : other.isObject = true) :
    ∃ k, j.insert other = .ok k := by
  obtain ⟨members, rfl⟩ := isObject_iff.1 hj
  obtain ⟨range, rfl⟩ := isObject_iff.1 ho
  exact ⟨_, rfl⟩

/-- Nothing else can. -/
theorem isObject_of_insert {j other k : Json} (h : j.insert other = .ok k) :
    j.isObject = true ∧ other.isObject = true := by
  cases j <;> cases other <;> try cases h
  exact ⟨rfl, rfl⟩

end Json

end Maplang
