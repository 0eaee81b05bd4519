import Maplang.Json.Basic
import Maplang.Text.Search

/-!
# JSON pointers

A JSON pointer is a list of reference tokens.  Its text has a slash in front of each of them, with
`~0` for a tilde and `~1` for a slash in a token.  `contains` and `operator[]` walk along the
tokens, each in its own way.

## Main definitions

* `replaceSubstring`, `JsonPointer.escape`, `JsonPointer.unescape` : the escapes.
* `JsonPointer.split`, `JsonPointer.toString` : a pointer and its text.
* `stoi`, `JsonPointer.arrayIndex` : tokens that are indexes.
* `JsonPointer.contains`, `JsonPointer.getUnchecked` : the two walks.
* `JsonPointer.Resolves` : the value a pointer points to.

## Main results

* `JsonPointer.split_toString` : every pointer can be read from its text.
* `JsonPointer.contains_iff` : `contains` finds what a pointer points to.
* `JsonPointer.getUnchecked_of_contains` : what has been found can be looked up.
-/

namespace Maplang

/-! ### Numbers in a text -/

/-- The exceptions of `std::stoi`. -/
inductive StoiError where
  | invalidArgument
  | outOfRange
  deriving DecidableEq, Repr

/-- `isspace` of the C locale. -/
def isSpace (c : UInt8) : Bool := c == 32 || (9 ≤ c && c ≤ 13)

/-- `isdigit`. -/
def isDigit (c : UInt8) : Bool := 48 ≤ c && c ≤ 57

/-- The sign of a number, with the number of bytes it takes. -/
def signOf : ByteString → ℤ × ℕ
  | 45 :: _ => (-1, 1)
  | 43 :: _ => (1, 1)
  | _ => (1, 0)

/-- `std::stoi(s, &processed)`: white space is skipped, and a sign may come before the digits. -/
def stoi (s : ByteString) : Except StoiError (ℤ × ℕ) :=
  let spaces := (s.takeWhile isSpace).length
  let sign := signOf (s.drop spaces)
  let digits := (s.drop (spaces + sign.2)).takeWhile isDigit
  let value := sign.1 * digits.foldl (fun n c => 10 * n + (c.toNat - 48 : ℕ)) 0
  if digits = [] then .error .invalidArgument
  else if value < -2 ^ 31 ∨ 2 ^ 31 ≤ value then .error .outOfRange
  else .ok (value, spaces + sign.2 + digits.length)

/-! ### Replacing -/

/-- `replace_substring(s, f, t)`: the occurrences of `f`, from left to right, are replaced, and the
search goes on behind each of them.  `skip` bytes belong to the last occurrence. -/
def replaceSubstring (f t : ByteString) : ℕ → ByteString → ByteString
  | _, [] => []
  | skip + 1, _ :: s => replaceSubstring f t skip s
  | 0, c :: s =>
    if f.isPrefixOf (c :: s) then t ++ replaceSubstring f t (f.length - 1) s
    else c :: replaceSubstring f t 0 s

namespace JsonPointer

/-- The byte `~`. -/
def tilde : UInt8 := 126

/-- The byte `/`. -/
def slash : UInt8 := 47

/-- `escape`. -/
def escape (s : ByteString) : ByteString :=
  replaceSubstring (bytes "/") (bytes "~1") 0 (replaceSubstring (bytes "~") (bytes "~0") 0 s)

/-- `unescape`; the order is important. -/
def unescape (s : ByteString) : ByteString :=
  replaceSubstring (bytes "~0") (bytes "~") 0 (replaceSubstring (bytes "~1") (bytes "/") 0 s)

/-- Each tilde of a token is followed by `0` or `1`. -/
def properlyEscaped : ByteString → Bool
  | [] => true
  | c :: s => (c != tilde || s.head? == some 48 || s.head? == some 49) && properlyEscaped s

end JsonPointer

/-- `class json_pointer`. -/
structure JsonPointer where
  referenceTokens : List ByteString
  deriving DecidableEq, Repr

namespace JsonPointer

/-- `parse_error::create(id, byte, what)`. -/
def throwParse {α : Type} (id byte : ℕ) (what : String) : Code α :=
  Json.throwJson "parse_error" id ("parse error" ++
    (if byte = 0 then "" else " at byte " ++ ToString.toString byte) ++ ": " ++ what)

/-- One reference token of a text. -/
def token (s : ByteString) : Code ByteString :=
  if properlyEscaped s then .ok (unescape s)
  else throwParse 108 0 "escape character '~' must be followed with '0' or '1'"

/-- `split`, the constructor of a pointer. -/
def split : ByteString → Code JsonPointer
  | [] => .ok ⟨[]⟩
  | c :: s =>
    if c = slash then do
      let tokens ← (Search.splitOn [slash] s).mapM token
      return ⟨tokens⟩
    else throwParse 107 1
      ("JSON pointer must be empty or begin with '/' - was: '" ++ asText (c :: s) ++ "'")

/-- `to_string()`. -/
def toString (p : JsonPointer) : ByteString :=
  p.referenceTokens.foldl (fun text t => text ++ bytes "/" ++ escape t) []

/-- The tests and `array_index(token)` in front of every access to an array; the number becomes a
`size_t`. -/
def arrayIndex (t : ByteString) : Code ℕ :=
  if 1 < t.length ∧ t.head? = some 48 then
    throwParse 106 0 ("array index '" ++ asText t ++ "' must not begin with '0'")
  else match stoi t with
    | .error .invalidArgument =>
      throwParse 109 0 ("array index '" ++ asText t ++ "' is not a number")
    | .error .outOfRange => .error (.exception "stoi")
    | .ok (index, processed) =>
      if processed = t.length then .ok (index % 2 ^ 64).toNat
      else Json.throwJson "out_of_range" 404 ("unresolved reference token '" ++ asText t ++ "'")

/-- `contains(ptr)`. -/
def containsFrom : List ByteString → Json → Code Bool
  | [], _ => .ok true
  | t :: ts, .object members =>
    match members.lookup t with
    | none => .ok false
    | some value => containsFrom ts value
  | t :: ts, .array elements =>
    if t = bytes "-" then .ok false
    else do
      let index ← arrayIndex t
      match elements[index]? with
      | none => return false
      | some value => containsFrom ts value
  | _ :: _, _ => .ok false

/-- `get_unchecked(ptr)` of a constant value: a member or an element that is not there is
undefined. -/
def getFrom : List ByteString → Json → Code Json
  | [], j => .ok j
  | t :: ts, .object members =>
    match members.lookup t with
    | none => .error .undefinedBehaviour
    | some value => getFrom ts value
  | t :: ts, .array elements =>
    if t = bytes "-" then Json.throwJson "out_of_range" 402
      ("array index '-' (" ++ ToString.toString elements.length ++ ") is out of range")
    else do
      let index ← arrayIndex t
      match elements[index]? with
      | none => .error .undefinedBehaviour
      | some value => getFrom ts value
  | t :: _, _ =>
    Json.throwJson "out_of_range" 404 ("unresolved reference token '" ++ asText t ++ "'")

variable (p : JsonPointer) (j : Json)

/-- `json.contains(pointer)`. -/
def contains : Code Bool := containsFrom p.referenceTokens j

/-- `json[pointer]`. -/
def getUnchecked : Code Json := getFrom p.referenceTokens j

/-- What a token points to in a value. -/
inductive Child (t : ByteString) : Json → Json → Prop
  | member {members : List (ByteString × Json)} {value : Json} :
      members.lookup t = some value → Child t (.object members) value
  | element {elements : List Json} {index : ℕ} {value : Json} :
      t ≠ bytes "-" → arrayIndex t = .ok index → elements[index]? = some value →
      Child t (.array elements) value

/-- The value a pointer points to. -/
inductive Resolves : List ByteString → Json → Json → Prop
  | here {j : Json} : Resolves [] j j
  | step {t : ByteString} {ts : List ByteString} {j child value : Json} :
      Child t j child → Resolves ts child value → Resolves (t :: ts) j value

/-! ### Escapes -/

theorem replaceSubstring_cons_of_ne {a c : UInt8} (h : a ≠ c) (f t s : ByteString) :
    replaceSubstring (a :: f) t 0 (c :: s) = c :: replaceSubstring (a :: f) t 0 s := by
  have hprefix : (a :: f).isPrefixOf (c :: s) = false := by simp [List.isPrefixOf, h]
  rw [replaceSubstring, hprefix]
  rfl

/-- A single byte is replaced wherever it is. -/
theorem replaceSubstring_single (a : UInt8) (t s : ByteString) :
    replaceSubstring [a] t 0 s = s.flatMap fun c => if c = a then t else [c] := by
  induction s with
  | nil => rfl
  | cons c s ih =>
    rw [List.flatMap_cons]
    by_cases h : c = a
    · subst h
      have hprefix : [c].isPrefixOf (c :: s) = true := by simp [List.isPrefixOf]
      rw [replaceSubstring, if_pos hprefix, if_pos rfl, ← ih]
      rfl
    · rw [replaceSubstring_cons_of_ne (Ne.symm h), if_neg h, ih]
      rfl

/-- How a byte of a token is written. -/
def escapeByte (c : UInt8) : ByteString :=
  if c = tilde then bytes "~0" else if c = slash then bytes "~1" else [c]

theorem escape_eq (s : ByteString) : escape s = s.flatMap escapeByte := by
  have htilde : bytes "~" = [tilde] := by decide
  have hslash : bytes "/" = [slash] := by decide
  rw [escape, htilde, hslash, replaceSubstring_single, replaceSubstring_single, List.flatMap_assoc]
  refine List.flatMap_congr fun c _ => ?_
  unfold escapeByte
  by_cases h : c = tilde
  · rw [if_pos h, if_pos h]
    decide
  · rw [if_neg h, if_neg h, List.flatMap_singleton]

theorem escape_cons (c : UInt8) (s : ByteString) : escape (c :: s) = escapeByte c ++ escape s := by
  rw [escape_eq, escape_eq, List.flatMap_cons]

/-- The first half of reading a token back: the slashes. -/
theorem replaceSubstring_escape (s : ByteString) :
    replaceSubstring (bytes "~1") (bytes "/") 0 (escape s) =
      s.flatMap fun c => if c = tilde then bytes "~0" else [c] := by
  have hescaped : bytes "~1" = [tilde, 49] := by decide
  rw [hescaped]
  induction s with
  | nil => rfl
  | cons c s ih =>
    rw [escape_cons, List.flatMap_cons, ← ih]
    unfold escapeByte
    split_ifs with htilde hslash
    · rfl
    · rw [hslash]
      rfl
    · exact replaceSubstring_cons_of_ne (Ne.symm htilde) _ _ _

/-- **A token is read back from its escaped text.** -/
theorem unescape_escape (s : ByteString) : unescape (escape s) = s := by
  have hescaped : bytes "~0" = [tilde, 48] := by decide
  rw [unescape, replaceSubstring_escape, hescaped]
  induction s with
  | nil => rfl
  | cons c s ih =>
    rw [List.flatMap_cons]
    split_ifs with htilde
    · rw [htilde]
      exact congrArg (tilde :: ·) ih
    · rw [List.singleton_append, replaceSubstring_cons_of_ne (Ne.symm htilde), ih]

theorem properlyEscaped_escape (s : ByteString) : properlyEscaped (escape s) = true := by
  induction s with
  | nil => rfl
  | cons c s ih =>
    rw [escape_cons]
    unfold escapeByte
    split_ifs with htilde hslash
    · exact ih
    · exact ih
    · rw [List.singleton_append, properlyEscaped, ih, Bool.and_true, Bool.or_eq_true,
        Bool.or_eq_true, bne_iff_ne]
      exact .inl (.inl htilde)

theorem slash_notMem_escape (s : ByteString) : slash ∉ escape s := by
  rw [escape_eq, List.mem_flatMap]
  rintro ⟨c, -, hc⟩
  unfold escapeByte at hc
  split_ifs at hc with htilde hslash
  · exact absurd hc (by decide)
  · exact absurd hc (by decide)
  · exact hslash (List.mem_singleton.1 hc).symm

/-! ### A pointer and its text -/

theorem token_escape (t : ByteString) : token (escape t) = .ok t := by
  rw [token, if_pos (properlyEscaped_escape t), unescape_escape]

theorem foldl_toString (text : ByteString) (ts : List ByteString) :
    ts.foldl (fun text t => text ++ bytes "/" ++ escape t) text =
      text ++ ts.flatMap fun t => slash :: escape t := by
  have hslash : bytes "/" = [slash] := by decide
  induction ts generalizing text with
  | nil => exact (List.append_nil text).symm
  | cons t ts ih => rw [List.foldl_cons, ih, List.flatMap_cons, hslash]; simp

/-- Slashes in front of the tokens are slashes between them, and one in front. -/
theorem flatMap_eq_intercalate (t : ByteString) (ts : List ByteString) :
    ((t :: ts).flatMap fun t => slash :: escape t) =
      slash :: [slash].intercalate ((t :: ts).map escape) := by
  induction ts generalizing t with
  | nil => simp
  | cons t' ts ih =>
    rw [List.flatMap_cons, ih, List.map_cons, List.map_cons]
    simp [List.intercalate]

theorem mapM_token (ts : List ByteString) : (ts.map escape).mapM token = .ok ts := by
  induction ts with
  | nil => rfl
  | cons t ts ih => rw [List.map_cons, List.mapM_cons, ih, token_escape]; rfl

/-- **Every pointer can be read from its text.** -/
theorem split_toString (p : JsonPointer) : split p.toString = .ok p := by
  obtain ⟨ts⟩ := p
  cases ts with
  | nil => rfl
  | cons t ts =>
    have hsplit : Search.splitOn [slash] ([slash].intercalate ((t :: ts).map escape)) =
        (t :: ts).map escape := by
      refine Search.splitOn_intercalate (List.cons_ne_nil _ _) fun piece hpiece => ?_
      obtain ⟨t', -, rfl⟩ := List.mem_map.1 hpiece
      exact slash_notMem_escape t'
    rw [toString, foldl_toString, List.nil_append, flatMap_eq_intercalate, split, if_pos rfl,
      hsplit, mapM_token]
    rfl

/-! ### Walking along a pointer -/

theorem containsFrom_of_child {t : ByteString} {ts : List ByteString} {j child : Json}
    (h : Child t j child) : containsFrom (t :: ts) j = containsFrom ts child := by
  cases h with
  | member hlookup => rw [containsFrom, hlookup]
  | element hdash hindex hget =>
    simp only [containsFrom, if_neg hdash, hindex, bind, Except.bind, hget]

theorem getFrom_of_child {t : ByteString} {ts : List ByteString} {j child : Json}
    (h : Child t j child) : getFrom (t :: ts) j = getFrom ts child := by
  cases h with
  | member hlookup => rw [getFrom, hlookup]
  | element hdash hindex hget =>
    simp only [getFrom, if_neg hdash, hindex, bind, Except.bind, hget]

theorem arrayIndex_cases (t : ByteString) :
    (∃ index, arrayIndex t = .ok index) ∨ ∃ what, arrayIndex t = .error (.exception what) := by
  unfold arrayIndex
  split
  · exact .inr ⟨_, rfl⟩
  · split
    · exact .inr ⟨_, rfl⟩
    · exact .inr ⟨_, rfl⟩
    · split
      · exact .inl ⟨_, rfl⟩
      · exact .inr ⟨_, rfl⟩

/-- `contains` does nothing undefined. -/
theorem containsFrom_cases (ts : List ByteString) (j : Json) :
    (∃ found, containsFrom ts j = .ok found) ∨
      ∃ what, containsFrom ts j = .error (.exception what) := by
  induction ts generalizing j with
  | nil => exact .inl ⟨true, rfl⟩
  | cons t ts ih =>
    cases j with
    | object members =>
      rw [containsFrom]
      split
      · exact .inl ⟨false, rfl⟩
      · exact ih _
    | array elements =>
      rw [containsFrom]
      split
      · exact .inl ⟨false, rfl⟩
      · rcases arrayIndex_cases t with ⟨index, hindex⟩ | ⟨what, hwhat⟩
        · simp only [hindex, bind, Except.bind]
          split
          · exact .inl ⟨false, rfl⟩
          · exact ih _
        · rw [hwhat]
          exact .inr ⟨what, rfl⟩
    | _ => exact .inl ⟨false, rfl⟩

/-- A walk that does not stop at a token has found something there. -/
theorem exists_child {t : ByteString} {ts : List ByteString} {j : Json}
    (h : containsFrom (t :: ts) j = .ok true) : ∃ child, Child t j child := by
  cases j with
  | object members =>
    cases hlookup : members.lookup t with
    | none => simp [containsFrom, hlookup] at h
    | some value => exact ⟨value, .member hlookup⟩
  | array elements =>
    by_cases hdash : t = bytes "-"
    · simp [containsFrom, hdash] at h
    · cases hindex : arrayIndex t with
      | error fault => simp [containsFrom, hdash, hindex, bind, Except.bind] at h
      | ok index =>
        cases hget : elements[index]? with
        | none =>
          simp [containsFrom, hdash, hindex, hget, bind, Except.bind, pure, Except.pure] at h
        | some value => exact ⟨value, .element hdash hindex hget⟩
  | _ => cases h

/-- `contains` finds what a pointer points to. -/
theorem containsFrom_iff {ts : List ByteString} {j : Json} :
    containsFrom ts j = .ok true ↔ ∃ value, Resolves ts j value := by
  constructor
  · intro h
    induction ts generalizing j with
    | nil => exact ⟨j, .here⟩
    | cons t ts ih =>
      obtain ⟨child, hchild⟩ := exists_child h
      rw [containsFrom_of_child hchild] at h
      obtain ⟨value, hvalue⟩ := ih h
      exact ⟨value, .step hchild hvalue⟩
  · rintro ⟨value, hvalue⟩
    induction hvalue with
    | here => rfl
    | step hchild _ ih => rw [containsFrom_of_child hchild, ih]

/-- `operator[]` returns what a pointer points to. -/
theorem getFrom_of_resolves {ts : List ByteString} {j value : Json} (h : Resolves ts j value) :
    getFrom ts j = .ok value := by
  induction h with
  | here => rfl
  | step hchild _ ih => rw [getFrom_of_child hchild, ih]

/-- A pointer points to one value at most. -/
theorem Resolves.unique {ts : List ByteString} {j value value' : Json} (h : Resolves ts j value)
    (h' : Resolves ts j value') : value = value' :=
  Except.ok.inj ((getFrom_of_resolves h).symm.trans (getFrom_of_resolves h'))

theorem contains_iff {p : JsonPointer} {j : Json} :
    p.contains j = .ok true ↔ ∃ value, Resolves p.referenceTokens j value :=
  containsFrom_iff

/-- **What has been found can be looked up.** -/
theorem getUnchecked_of_contains {p : JsonPointer} {j : Json} (h : p.contains j = .ok true) :
    ∃ value, Resolves p.referenceTokens j value ∧ p.getUnchecked j = .ok value := by
  obtain ⟨value, hvalue⟩ := contains_iff.1 h
  exact ⟨value, hvalue, getFrom_of_resolves hvalue⟩

end JsonPointer

end Maplang
