import Maplang.Machine.Transducer
import Mathlib.Data.List.Infix

/-!
# The DOT language

How a text is read as a strict digraph in the DOT language.  The text is cut into tokens, and the
tokens are read as statements.  Texts with numerals, HTML strings, comments, ports, subgraphs,
default attributes or concatenated strings are not read.

## Main definitions

* `Dot.lexer`, `Dot.lex` : the tokens of a text.  In a quoted string `\"` stands for a quote, and
  all other characters for themselves.
* `Dot.parser`, `Dot.read` : the edges that the statements of a digraph name, in order.
* `Dot.strictLabel` : the label of the one edge that a strict digraph has from a node to another.
* `Dot.escape` : how a string is written between quotes.
* `Dot.Plain` : strings that are written as they are.

## Main results

* `Dot.run_quoted` : a string is read as it was written, unless it ends with a backslash.
* `Dot.read_sound` : the strings of all edges are written in the text.
* `Dot.plain_of_written` : strings are plain if they are all written in a text that they cover.
* `Dot.read_of_lex` : the edges of a digraph with one statement for each of them.
-/

namespace Maplang

namespace Dot

/-! ### Tokens -/

/-- A token. -/
inductive Token where
  | word (characters : List Char)
  | quoted (characters : List Char)
  | symbol (character : Char)
  | arrow
  deriving DecidableEq, Repr

/-- Where the lexer stands; the characters it has read of a token come last first. -/
inductive Mode where
  | between
  | word (characters : List Char)
  | quoted (characters : List Char)
  | minus
  deriving DecidableEq, Repr

/-- A letter, also one that is not in ASCII, or an underscore. -/
def isWordStart (c : Char) : Bool := c.isAlpha || c = '_' || 128 ≤ c.toNat

/-- A character that may follow the first one of a word. -/
def isWordChar (c : Char) : Bool := isWordStart c || c.isDigit

/-- The characters that are tokens. -/
def symbols : List Char := ['\x7b', '\x7d', '[', ']', '=', ';', ',']

/-- A character that is not in a token that has begun. -/
def beginToken (c : Char) : Option (Mode × List Token) :=
  if isWordStart c then some (.word [c], [])
  else if c.isWhitespace then some (.between, [])
  else if c = '"' then some (.quoted [], [])
  else if c = '-' then some (.minus, [])
  else if c ∈ symbols then some (.between, [.symbol c])
  else none

/-- A quote in a quoted string. -/
def readQuote : List Char → Mode × List Token
  | '\\' :: characters => (.quoted ('"' :: characters), [])
  | characters => (.between, [.quoted characters.reverse])

/-- Read a character. -/
def readChar : Mode → Char → Option (Mode × List Token)
  | .between, c => beginToken c
  | .word characters, c =>
    if isWordChar c then some (.word (c :: characters), [])
    else (beginToken c).map fun (mode, out) => (mode, .word characters.reverse :: out)
  | .minus, c => if c = '>' then some (.between, [.arrow]) else none
  | .quoted characters, c =>
    some (if c = '"' then readQuote characters else (.quoted (c :: characters), []))

/-- The lexer. -/
def lexer : Transducer Mode Char Token := ⟨readChar⟩

/-- The tokens of a text that does not end within one. -/
def lex (text : List Char) : Option (List Token) :=
  match lexer.run .between text with
  | some (.between, tokens) => some tokens
  | _ => none

/-! ### Statements -/

/-- A word that has a meaning of its own, whatever the case of its letters. -/
def isKeyword (word : List Char) : Bool :=
  word.map Char.toLower ∈
    ["strict", "graph", "digraph", "node", "edge", "subgraph"].map String.toList

/-- The identifier a token stands for. -/
def Token.id? : Token → Option (List Char)
  | .quoted characters => some characters
  | .word characters => if isKeyword characters then none else some characters
  | _ => none

/-- The token is a keyword. -/
def Token.isWord (word : String) : Token → Bool
  | .word characters => characters.map Char.toLower = word.toList
  | _ => false

/-- An edge that a statement names, with the label that the statement gives it. -/
structure Edge where
  tail : List Char
  head : List Char
  label : Option (List Char)
  deriving DecidableEq, Repr

/-- What has been read of a statement about nodes or edges. -/
structure Statement where
  last : List Char
  joined : List (List Char × List Char) := []
  label : Option (List Char) := none
  deriving DecidableEq, Repr

namespace Statement

variable (statement : Statement)

/-- An edge to another node. -/
def join (node : List Char) : Statement :=
  { statement with last := node, joined := statement.joined ++ [(statement.last, node)] }

/-- An attribute. -/
def give (name value : List Char) : Statement :=
  if name = "label".toList then { statement with label := some value } else statement

/-- The edges of the statement. -/
def edges : List Edge :=
  statement.joined.map fun (tail, head) => ⟨tail, head, statement.label⟩

end Statement

/-- Where the parser stands. -/
inductive Reading where
  | start
  | strict
  | digraph
  | named
  | between
  | node (statement : Statement)
  | arrow (statement : Statement)
  | attributes (statement : Statement)
  | attributeName (statement : Statement) (name : List Char)
  | attributeValue (statement : Statement) (name : List Char)
  | listed (statement : Statement)
  | finished
  deriving DecidableEq, Repr

/-- A token that is not in a statement that has begun. -/
def beginStatement (token : Token) : Option Reading :=
  if token = .symbol '\x7d' then some .finished
  else if token = .symbol ';' then some .between
  else token.id?.map fun node => .node { last := node }

/-- Read a token. -/
def readToken : Reading → Token → Option (Reading × List Edge)
  | .start, token => if token.isWord "strict" then some (.strict, []) else none
  | .strict, token => if token.isWord "digraph" then some (.digraph, []) else none
  | .digraph, token =>
    if token = .symbol '\x7b' then some (.between, []) else token.id?.map fun _ => (.named, [])
  | .named, token => if token = .symbol '\x7b' then some (.between, []) else none
  | .between, token => (beginStatement token).map fun reading => (reading, [])
  | .node statement, token =>
    if token = .arrow then some (.arrow statement, [])
    else if token = .symbol '[' then some (.attributes statement, [])
    else (beginStatement token).map fun reading => (reading, statement.edges)
  | .arrow statement, token => token.id?.map fun node => (.node (statement.join node), [])
  | .attributes statement, token =>
    if token = .symbol ']' then some (.listed statement, [])
    else if token = .symbol ',' ∨ token = .symbol ';' then some (.attributes statement, [])
    else token.id?.map fun name => (.attributeName statement name, [])
  | .attributeName statement name, token =>
    if token = .symbol '=' then some (.attributeValue statement name, []) else none
  | .attributeValue statement name, token =>
    token.id?.map fun value => (.attributes (statement.give name value), [])
  | .listed statement, token =>
    if token = .symbol '[' then some (.attributes statement, [])
    else (beginStatement token).map fun reading => (reading, statement.edges)
  | .finished, _ => none

/-- The parser. -/
def parser : Transducer Reading Token Edge := ⟨readToken⟩

/-- The edges that the statements of a strict digraph name, in order. -/
def read (text : List Char) : Option (List Edge) :=
  match (lex text).bind (parser.run .start) with
  | some (.finished, edges) => some edges
  | _ => none

/-- The edges that are named from one node to another. -/
def parallel (edges : List Edge) (tail head : List Char) : List Edge :=
  edges.filter fun edge => edge.tail = tail ∧ edge.head = head

/-- The label of the edge from one node to another, if there is one.  A strict digraph has at most
one, and the last label it is given counts. -/
def strictLabel (edges : List Edge) (tail head : List Char) : Option (List Char) :=
  if parallel edges tail head = [] then none
  else some (((parallel edges tail head).filterMap Edge.label).getLast?.getD [])

/-- A string as it is written between quotes. -/
def escape (s : List Char) : List Char := s.flatMap fun c => if c = '"' then ['\\', '"'] else [c]

/-- A string that is written as it is: it has no quote, and does not end with a backslash, which
would stand in front of the closing quote. -/
def Plain (s : List Char) : Prop := '"' ∉ s ∧ s.getLast? ≠ some '\\'

instance (s : List Char) : Decidable (Plain s) := inferInstanceAs (Decidable (_ ∧ _))

/-- A word that can be the name of a graph or of a node without quotes. -/
def isIdentifier : List Char → Bool
  | [] => false
  | c :: cs => isWordStart c && cs.all isWordChar && !isKeyword (c :: cs)

/-- A string that a text names: one that ends with a backslash cannot be written, and one with a
quote stands in the text the way it is written. -/
def Written (text s : List Char) : Prop :=
  s.getLast? ≠ some '\\' ∧ ('"' ∈ s → escape s <:+: text)

/-- The tokens of a statement that names one edge. -/
def Edge.tokens (edge : Edge) : List Token :=
  [.quoted edge.tail, .arrow, .quoted edge.head] ++
    match edge.label with
    | none => []
    | some label =>
      [.symbol '[', .word "label".toList, .symbol '=', .quoted label, .symbol ']']

/-- The next statement may begin, and ends the one that was read. -/
def Reading.Ready (reading : Reading) (pending : List Edge) : Prop :=
  ∀ token, token ≠ .arrow → token ≠ .symbol '[' →
    parser.step reading token = (beginStatement token).map fun reading => (reading, pending)

variable {s text : List Char} {tokens : List Token} {edges : List Edge}

/-! ### Reading a quoted string -/

theorem run_escape (s acc : List Char) :
    lexer.run (.quoted acc) (escape s) = some (.quoted (s.reverse ++ acc), []) := by
  induction s generalizing acc with
  | nil => rfl
  | cons c s ih =>
    rw [List.reverse_cons, List.append_assoc, List.singleton_append]
    by_cases hc : c = '"'
    · subst hc
      have hbackslash : lexer.step (.quoted acc) '\\' = some (.quoted ('\\' :: acc), []) := rfl
      have hquote : lexer.step (.quoted ('\\' :: acc)) '"' = some (.quoted ('"' :: acc), []) := rfl
      exact Transducer.run_cons hbackslash (Transducer.run_cons hquote (ih ('"' :: acc)))
    · have hescape : escape (c :: s) = c :: escape s := by
        simp [escape, hc]
      rw [hescape]
      have hstep : lexer.step (.quoted acc) c = some (.quoted (c :: acc), []) :=
        congrArg some (if_neg hc)
      exact Transducer.run_cons hstep (ih (c :: acc))

theorem escape_of_notMem (h : '"' ∉ s) : escape s = s := by
  induction s with
  | nil => rfl
  | cons c s ih =>
    rw [List.mem_cons, not_or] at h
    rw [escape, List.flatMap_cons, ← escape, ih h.2, if_neg (Ne.symm h.1), List.singleton_append]

/-- The quote that follows a string closes it, unless it is taken for one that is escaped. -/
theorem readQuote_reverse (h : s.getLast? ≠ some '\\') :
    readQuote s.reverse = (.between, [.quoted s]) := by
  rw [← List.head?_reverse] at h
  rw [readQuote.eq_2]
  · rw [List.reverse_reverse]
  · intro characters hcharacters
    simp [hcharacters] at h

/-- **A string is read as it was written.** -/
theorem run_quoted {rest : List Char} {mode : Mode} (h : s.getLast? ≠ some '\\')
    (hrest : lexer.run .between rest = some (mode, tokens)) :
    lexer.run .between ('"' :: (escape s ++ '"' :: rest)) = some (mode, .quoted s :: tokens) := by
  have hopen : lexer.step .between '"' = some (.quoted [], []) := rfl
  have hclose : lexer.step (.quoted s.reverse) '"' = some (.between, [.quoted s]) :=
    congrArg some (readQuote_reverse h)
  have hescape := run_escape s []
  rw [List.append_nil] at hescape
  exact Transducer.run_cons hopen
    (Transducer.run_append hescape (Transducer.run_cons hclose hrest))

example : lex ['"', 'a', '\\', '"', '"'] = some [.quoted ['a', '"']] := by decide

/-! ### Where a string stands in a text -/

/-- A quote of a string that is escaped follows a backslash. -/
theorem getLast?_of_escape {a b : List Char} (h : escape s = a ++ '"' :: b) :
    a.getLast? = some '\\' := by
  induction s generalizing a with
  | nil => simp [escape] at h
  | cons c s ih =>
    by_cases hc : c = '"'
    · have hcons : escape (c :: s) = '\\' :: '"' :: escape s := by simp [escape, hc]
      rw [hcons] at h
      match a with
      | [] => cases h
      | [x] =>
        obtain rfl := (List.cons.inj h).1
        rfl
      | x :: y :: a =>
        have ha := ih (List.cons.inj (List.cons.inj h).2).2
        rw [List.getLast?_cons, List.getLast?_cons, ha]
        rfl
    · have hcons : escape (c :: s) = c :: escape s := by simp [escape, hc]
      rw [hcons] at h
      match a with
      | [] => exact absurd (List.cons.inj h).1 hc
      | x :: a =>
        have ha := ih (List.cons.inj h).2
        rw [List.getLast?_cons, ha]
        rfl

/-- A string that is escaped does not stand across a quote that is not. -/
theorem infix_of_quote {x y : List Char} (hx : x.getLast? ≠ some '\\')
    (h : escape s <:+: x ++ '"' :: y) : escape s <:+: x ∨ escape s <:+: y := by
  obtain ⟨a, b, hab⟩ := h
  rcases List.append_eq_append_iff.1 hab with ⟨x', rfl, -⟩ | ⟨z, hz, hy⟩
  · exact .inl ⟨a, x', rfl⟩
  · cases z with
    | nil => exact .inl ⟨a, [], by simpa using hz⟩
    | cons q z =>
      obtain ⟨rfl, rfl⟩ := List.cons.inj hy
      rcases List.append_eq_append_iff.1 hz with ⟨u, rfl, hs⟩ | ⟨u, rfl, hu⟩
      · have hlast := getLast?_of_escape hs
        rw [List.getLast?_append, hlast] at hx
        exact absurd rfl hx
      · cases u with
        | nil =>
          have hlast := getLast?_of_escape (s := s) (a := []) hu.symm
          cases hlast
        | cons q u =>
          obtain ⟨-, rfl⟩ := List.cons.inj hu
          exact .inr ⟨u, b, by simp⟩

/-- The strings with a quote that stand in a text as they are written between quotes stand in one
of some other texts. -/
def Covers (pieces : List (List Char)) (text : List Char) : Prop :=
  ∀ s, '"' ∈ s → escape s <:+: text → ∃ piece ∈ pieces, escape s <:+: piece

theorem quote_mem_escape (h : '"' ∈ s) : '"' ∈ escape s :=
  List.mem_flatMap.2 ⟨'"', h, by simp⟩

theorem covers_of_notMem {pieces : List (List Char)} (h : '"' ∉ text) : Covers pieces text :=
  fun _ hquote hwithin => absurd (hwithin.subset (quote_mem_escape hquote)) h

theorem covers_of_mem {pieces : List (List Char)} (h : text ∈ pieces) : Covers pieces text :=
  fun _ _ hwithin => ⟨text, h, hwithin⟩

theorem Covers.append {pieces : List (List Char)} {x y : List Char} (hx : Covers pieces x)
    (hlast : x.getLast? ≠ some '\\') (hy : Covers pieces y) : Covers pieces (x ++ '"' :: y) := by
  intro s hquote hwithin
  rcases infix_of_quote hlast hwithin with h | h
  · exact hx s hquote h
  · exact hy s hquote h

theorem length_escape_lt (h : '"' ∈ s) : s.length < (escape s).length := by
  have hlength : ∀ s : List Char, (escape s).length = s.length + s.count '"' := by
    intro s
    induction s with
    | nil => rfl
    | cons c s ih =>
      rw [escape, List.flatMap_cons, ← escape, List.length_append, ih, List.length_cons]
      by_cases hc : c = '"'
      · simp [hc]
        omega
      · simp [hc]
        omega
  have hcount := List.count_pos_iff.2 h
  have := hlength s
  omega

/-- **Strings that cover a text and are all written in it are plain.**  One with a quote would be
escaped within another one, which is longer and has a quote too. -/
theorem plain_of_written {pieces : List (List Char)} (hcovers : Covers pieces text)
    (hwritten : ∀ piece ∈ pieces, Written text piece) : ∀ piece ∈ pieces, Plain piece := by
  have hlonger : ∀ n, ∀ piece ∈ pieces, '"' ∈ piece →
      ∃ piece' ∈ pieces, '"' ∈ piece' ∧ n ≤ piece'.length := by
    intro n
    induction n with
    | zero => exact fun piece hpiece hquote => ⟨piece, hpiece, hquote, Nat.zero_le _⟩
    | succ n ih =>
      intro piece hpiece hquote
      obtain ⟨piece₁, hpiece₁, hquote₁, hlength₁⟩ := ih piece hpiece hquote
      obtain ⟨piece₂, hpiece₂, hwithin⟩ :=
        hcovers piece₁ hquote₁ ((hwritten piece₁ hpiece₁).2 hquote₁)
      have hlt := length_escape_lt hquote₁
      have hle := hwithin.length_le
      exact ⟨piece₂, hpiece₂, hwithin.subset (quote_mem_escape hquote₁), by omega⟩
  intro piece hpiece
  refine ⟨fun hquote => ?_, (hwritten piece hpiece).1⟩
  obtain ⟨piece', hpiece', -, hlength⟩ :=
    hlonger (pieces.flatten.length + 1) piece hpiece hquote
  have hle := (List.sublist_flatten_of_mem hpiece').length_le
  omega

/-! ### Where the edges come from -/

/-- What has been read so far. -/
def Mode.Holds (past : List Char) : Mode → Prop
  | .quoted characters => escape characters.reverse <:+ past
  | .word characters => ∀ c ∈ characters, isWordChar c = true
  | _ => True

/-- A token that stands in a text. -/
def Token.Holds (text : List Char) : Token → Prop
  | .quoted characters => characters.getLast? ≠ some '\\' ∧ escape characters <:+: text
  | .word characters => ∀ c ∈ characters, isWordChar c = true
  | _ => True

theorem escape_append (s t : List Char) : escape (s ++ t) = escape s ++ escape t :=
  List.flatMap_append

theorem beginToken_holds {mode : Mode} {c : Char} (text past : List Char)
    (h : beginToken c = some (mode, tokens)) :
    mode.Holds past ∧ ∀ token ∈ tokens, token.Holds text := by
  unfold beginToken at h
  split at h
  · rename_i hstart
    obtain ⟨rfl, rfl⟩ := Prod.mk.inj (Option.some.inj h)
    refine ⟨?_, by simp⟩
    intro c' hc'
    rw [List.mem_singleton] at hc'
    simp [hc', isWordChar, hstart]
  repeat' split at h
  all_goals try obtain ⟨rfl, rfl⟩ := Prod.mk.inj (Option.some.inj h)
  · exact ⟨trivial, by simp⟩
  · exact ⟨List.nil_suffix, by simp⟩
  · exact ⟨trivial, by simp⟩
  · exact ⟨trivial, by simp [Token.Holds]⟩
  · cases h

theorem readQuote_holds {past s : List Char} (hpast : past ++ ['"'] <+: text)
    (h : escape s <:+ past) :
    (readQuote s.reverse).1.Holds (past ++ ['"']) ∧
      ∀ token ∈ (readQuote s.reverse).2, token.Holds text := by
  by_cases hlast : s.getLast? = some '\\'
  · -- the backslash that was read now escapes the quote
    obtain ⟨s, rfl⟩ := List.getLast?_eq_some_iff.1 hlast
    obtain ⟨before, rfl⟩ := h
    rw [List.reverse_append]
    refine ⟨⟨before, ?_⟩, by simp [readQuote]⟩
    change before ++ escape ('"' :: s.reverse).reverse = before ++ escape (s ++ ['\\']) ++ ['"']
    rw [List.reverse_cons, List.reverse_reverse, escape_append, escape_append]
    simp [escape]
  · rw [readQuote_reverse hlast]
    refine ⟨trivial, ?_⟩
    simp only [List.mem_singleton, forall_eq]
    exact ⟨hlast, h.isInfix.trans ((List.prefix_append past _).trans hpast).isInfix⟩

theorem readChar_holds {mode mode' : Mode} {c : Char} {past : List Char}
    (hpast : past ++ [c] <+: text) (hmode : mode.Holds past)
    (h : readChar mode c = some (mode', tokens)) :
    mode'.Holds (past ++ [c]) ∧ ∀ token ∈ tokens, token.Holds text := by
  cases mode with
  | between => exact beginToken_holds text _ h
  | word characters =>
    rw [readChar] at h
    split at h
    · rename_i hc
      obtain ⟨rfl, rfl⟩ := Prod.mk.inj (Option.some.inj h)
      refine ⟨?_, by simp⟩
      intro c' hc'
      rcases List.mem_cons.1 hc' with rfl | hc'
      · exact hc
      · exact hmode c' hc'
    · obtain ⟨⟨mode₁, out⟩, hbegin, heq⟩ := Option.map_eq_some_iff.1 h
      obtain ⟨rfl, rfl⟩ := Prod.mk.inj heq
      obtain ⟨hmode', hout⟩ := beginToken_holds text (past ++ [c]) hbegin
      refine ⟨hmode', fun token htoken => ?_⟩
      rcases List.mem_cons.1 htoken with rfl | htoken
      · exact fun c' hc' => hmode c' (List.mem_reverse.1 hc')
      · exact hout token htoken
  | minus =>
    rw [readChar] at h
    split at h
    · obtain ⟨rfl, rfl⟩ := Prod.mk.inj (Option.some.inj h)
      exact ⟨trivial, by simp [Token.Holds]⟩
    · cases h
  | quoted characters =>
    rw [readChar, Option.some.injEq] at h
    split at h
    · rename_i hc
      subst hc
      have hquote := readQuote_holds hpast hmode
      rwa [List.reverse_reverse, h] at hquote
    · rename_i hc
      obtain ⟨rfl, rfl⟩ := Prod.mk.inj h
      refine ⟨?_, by simp⟩
      obtain ⟨before, rfl⟩ := hmode
      exact ⟨before, by simp [escape, hc]⟩

/-- **The tokens of a text stand in it.** -/
theorem lex_sound (h : lex text = some tokens) : ∀ token ∈ tokens, token.Holds text := by
  unfold lex at h
  split at h
  · rename_i hrun
    obtain rfl := Option.some.inj h
    refine (Transducer.run_invariant (I := fun past mode => mode.Holds past)
      (fun past c mode mode' out hpast hmode hstep => readChar_holds hpast hmode hstep)
      trivial hrun).2
  · cases h

/-- What can be an identifier is written in the text. -/
theorem Token.Holds.written {token : Token} (h : token.Holds text) (hid : token.id? = some s) :
    Written text s := by
  cases token with
  | quoted characters =>
    obtain rfl := Option.some.inj hid
    exact ⟨h.1, fun _ => h.2⟩
  | word characters =>
    rw [id?] at hid
    split at hid
    · cases hid
    · obtain rfl := Option.some.inj hid
      refine ⟨fun hlast => ?_, fun hquote => ?_⟩
      · exact absurd (h _ (List.mem_of_getLast? hlast)) (by decide)
      · exact absurd (h _ hquote) (by decide)
  | symbol c => cases hid
  | arrow => cases hid

/-- All strings of an edge have a property. -/
def Edge.All (P : List Char → Prop) (edge : Edge) : Prop :=
  P edge.tail ∧ P edge.head ∧ ∀ label, edge.label = some label → P label

/-- All strings of what has been read of a statement have a property. -/
def Statement.All (P : List Char → Prop) (statement : Statement) : Prop :=
  P statement.last ∧ (∀ tail head, (tail, head) ∈ statement.joined → P tail ∧ P head) ∧
    ∀ label, statement.label = some label → P label

/-- All strings of what has been read have a property. -/
def Reading.All (P : List Char → Prop) : Reading → Prop
  | .node statement | .arrow statement | .attributes statement | .attributeName statement _
  | .attributeValue statement _ | .listed statement => statement.All P
  | _ => True

section

variable {P : List Char → Prop} {token : Token} {statement : Statement}

theorem Statement.All.all_edges (h : statement.All P) : ∀ edge ∈ statement.edges, edge.All P := by
  intro edge hedge
  obtain ⟨⟨tail, head⟩, hjoined, rfl⟩ := List.mem_map.1 hedge
  obtain ⟨htail, hhead⟩ := h.2.1 tail head hjoined
  exact ⟨htail, hhead, h.2.2⟩

theorem Statement.All.join (h : statement.All P) (hs : P s) : (statement.join s).All P := by
  refine ⟨hs, fun tail head hjoined => ?_, h.2.2⟩
  rcases List.mem_append.1 hjoined with hjoined | hjoined
  · exact h.2.1 tail head hjoined
  · obtain ⟨rfl, rfl⟩ := Prod.mk.inj (List.mem_singleton.1 hjoined)
    exact ⟨h.1, hs⟩

theorem Statement.All.give (h : statement.All P) (name : List Char) (hs : P s) :
    (statement.give name s).All P := by
  unfold Statement.give
  split
  · exact ⟨h.1, h.2.1, fun label hlabel => Option.some.inj hlabel ▸ hs⟩
  · exact h

theorem beginStatement_all (hP : ∀ s, token.id? = some s → P s) {reading : Reading}
    (h : beginStatement token = some reading) : reading.All P := by
  unfold beginStatement at h
  split at h
  · exact Option.some.inj h ▸ trivial
  split at h
  · exact Option.some.inj h ▸ trivial
  obtain ⟨node, hnode, rfl⟩ := Option.map_eq_some_iff.1 h
  exact ⟨hP node hnode, by simp, by simp⟩

/-- The strings come from the tokens. -/
theorem readToken_all (hP : ∀ s, token.id? = some s → P s) {reading reading' : Reading}
    (hreading : reading.All P) (h : readToken reading token = some (reading', edges)) :
    reading'.All P ∧ ∀ edge ∈ edges, edge.All P := by
  have hto : ∀ {reading₁ : Reading}, some (reading₁, ([] : List Edge)) = some (reading', edges) →
      reading₁.All P → reading'.All P ∧ ∀ edge ∈ edges, edge.All P := by
    intro reading₁ h hreading₁
    obtain ⟨rfl, rfl⟩ := Prod.mk.inj (Option.some.inj h)
    exact ⟨hreading₁, by simp⟩
  have hid : ∀ {f : List Char → Reading},
      (token.id?.map fun s => (f s, ([] : List Edge))) = some (reading', edges) →
      (∀ s, P s → (f s).All P) → reading'.All P ∧ ∀ edge ∈ edges, edge.All P := by
    intro f h hf
    obtain ⟨s, hs, heq⟩ := Option.map_eq_some_iff.1 h
    exact hto (congrArg some heq) (hf s (hP s hs))
  have hbegin : ∀ {es : List Edge},
      (beginStatement token).map (fun reading => (reading, es)) = some (reading', edges) →
      (∀ edge ∈ es, edge.All P) → reading'.All P ∧ ∀ edge ∈ edges, edge.All P := by
    intro es h hes
    obtain ⟨reading₁, hreading₁, heq⟩ := Option.map_eq_some_iff.1 h
    obtain ⟨rfl, rfl⟩ := Prod.mk.inj heq
    exact ⟨beginStatement_all hP hreading₁, hes⟩
  cases reading with
  | start | strict | named =>
    rw [readToken] at h
    split at h
    · exact hto h trivial
    · cases h
  | digraph =>
    rw [readToken] at h
    split at h
    · exact hto h trivial
    · exact hid h fun _ _ => trivial
  | between => exact hbegin h (by simp)
  | node statement =>
    rw [readToken] at h
    split at h
    · exact hto h hreading
    split at h
    · exact hto h hreading
    · exact hbegin h hreading.all_edges
  | arrow statement => exact hid h fun s hs => hreading.join hs
  | attributes statement =>
    rw [readToken] at h
    split at h
    · exact hto h hreading
    split at h
    · exact hto h hreading
    · exact hid h fun _ _ => hreading
  | attributeName statement name =>
    rw [readToken] at h
    split at h
    · exact hto h hreading
    · cases h
  | attributeValue statement name => exact hid h fun s hs => hreading.give name hs
  | listed statement =>
    rw [readToken] at h
    split at h
    · exact hto h hreading
    · exact hbegin h hreading.all_edges
  | finished => cases h

end

/-- **The strings of all edges are written in the text.** -/
theorem read_sound (h : read text = some edges) : ∀ edge ∈ edges, edge.All (Written text) := by
  unfold read at h
  split at h
  · rename_i hread
    obtain rfl := Option.some.inj h
    obtain ⟨tokens, hlex, hrun⟩ := Option.bind_eq_some_iff.1 hread
    refine (Transducer.run_invariant (I := fun _ reading => reading.All (Written text))
      (fun past token reading reading' out hpast hreading hstep => ?_) trivial hrun).2
    refine readToken_all (fun s hid => ?_) hreading hstep
    have htoken : token ∈ tokens := hpast.subset (by simp)
    exact (lex_sound hlex token htoken).written hid
  · cases h

@[simp] theorem mem_parallel {edge : Edge} {tail head : List Char} :
    edge ∈ parallel edges tail head ↔ edge ∈ edges ∧ edge.tail = tail ∧ edge.head = head := by
  simp [parallel]

/-- A label is given by an edge from the one node to the other. -/
theorem mem_of_strictLabel {tail head label : List Char}
    (h : strictLabel edges tail head = some label) :
    (∃ edge ∈ edges, edge.tail = tail ∧ edge.head = head) ∧
      (label = [] ∨ ∃ edge ∈ edges, edge.tail = tail ∧ edge.head = head ∧
        edge.label = some label) := by
  unfold strictLabel at h
  split at h
  · cases h
  rename_i hne
  obtain ⟨edge, hedge⟩ := List.exists_mem_of_ne_nil _ hne
  refine ⟨⟨edge, mem_parallel.1 hedge⟩, ?_⟩
  rw [Option.some.injEq] at h
  cases hlast : ((parallel edges tail head).filterMap Edge.label).getLast? with
  | none =>
    rw [hlast] at h
    exact .inl h.symm
  | some given =>
    rw [hlast, Option.getD_some] at h
    obtain ⟨edge', hedge', hlabel⟩ := List.mem_filterMap.1 (List.mem_of_getLast? hlast)
    obtain ⟨hin, htail, hhead⟩ := mem_parallel.1 hedge'
    exact .inr ⟨edge', hin, htail, hhead, h ▸ hlabel⟩

/-- An edge has the label that all statements give it. -/
theorem strictLabel_of_mem {edge : Edge} {label : List Char} (hedge : edge ∈ edges)
    (hlabel : ∀ edge' ∈ edges, edge'.tail = edge.tail → edge'.head = edge.head →
      edge'.label = some label) : strictLabel edges edge.tail edge.head = some label := by
  have hin : edge ∈ parallel edges edge.tail edge.head := mem_parallel.2 ⟨hedge, rfl, rfl⟩
  have hgiven : label ∈ (parallel edges edge.tail edge.head).filterMap Edge.label :=
    List.mem_filterMap.2 ⟨edge, hin, hlabel edge hedge rfl rfl⟩
  rw [strictLabel, if_neg (List.ne_nil_of_mem hin)]
  cases hlast : ((parallel edges edge.tail edge.head).filterMap Edge.label).getLast? with
  | none =>
    rw [List.getLast?_eq_none_iff.1 hlast] at hgiven
    cases hgiven
  | some given =>
    obtain ⟨edge', hedge', hlabel'⟩ := List.mem_filterMap.1 (List.mem_of_getLast? hlast)
    obtain ⟨hin', htail, hhead⟩ := mem_parallel.1 hedge'
    rw [hlabel edge' hin' htail hhead, Option.some.injEq] at hlabel'
    rw [Option.getD_some, hlabel']

/-! ### Reading what was written -/

theorem lex_of_run (h : lexer.run .between text = some (.between, tokens)) :
    lex text = some tokens := by
  rw [lex, h]

theorem run_identifier {name : List Char} (h : isIdentifier name = true) :
    lexer.run .between name = some (.word name.reverse, []) := by
  have hrest : ∀ cs acc : List Char, cs.all isWordChar = true →
      lexer.run (.word acc) cs = some (.word (cs.reverse ++ acc), []) := by
    intro cs
    induction cs with
    | nil => exact fun _ _ => rfl
    | cons c cs ih =>
      intro acc hall
      obtain ⟨hc, hcs⟩ := Bool.and_eq_true_iff.1 (List.all_cons ▸ hall)
      have hstep : lexer.step (.word acc) c = some (.word (c :: acc), []) := if_pos hc
      rw [List.reverse_cons, List.append_assoc]
      exact Transducer.run_cons hstep (ih (c :: acc) hcs)
  cases name with
  | nil => cases h
  | cons c cs =>
    obtain ⟨hword, -⟩ := Bool.and_eq_true_iff.1 h
    obtain ⟨hc, hcs⟩ := Bool.and_eq_true_iff.1 hword
    have hstep : lexer.step .between c = some (.word [c], []) := if_pos hc
    rw [List.reverse_cons]
    exact Transducer.run_cons hstep (hrest cs [c] hcs)

theorem ready_between : Reading.between.Ready [] := fun _ _ _ => rfl

theorem ready_node (statement : Statement) : (Reading.node statement).Ready statement.edges :=
  fun _ harrow hbracket => (if_neg harrow).trans (if_neg hbracket)

theorem ready_listed (statement : Statement) : (Reading.listed statement).Ready statement.edges :=
  fun _ _ hbracket => if_neg hbracket

/-- A statement that names one edge. -/
theorem run_tokens {reading : Reading} {pending : List Edge} (h : reading.Ready pending)
    (edge : Edge) : ∃ reading', parser.run reading edge.tokens = some (reading', pending) ∧
      reading'.Ready [edge] := by
  obtain ⟨tail, head, label⟩ := edge
  have hstep : parser.step reading (.quoted tail) = some (.node { last := tail }, pending) :=
    h (.quoted tail) (by simp) (by simp)
  cases label with
  | none =>
    have hrest : parser.run (.node { last := tail }) [.arrow, .quoted head] =
      some (.node { last := head, joined := [(tail, head)] }, []) := rfl
    have hrun := Transducer.run_cons hstep hrest
    rw [List.append_nil] at hrun
    exact ⟨_, hrun, ready_node _⟩
  | some label =>
    have hrest : parser.run (.node { last := tail }) [.arrow, .quoted head, .symbol '[',
        .word "label".toList, .symbol '=', .quoted label, .symbol ']'] =
      some (.listed { last := head, joined := [(tail, head)], label := some label }, []) := rfl
    have hrun := Transducer.run_cons hstep hrest
    rw [List.append_nil] at hrun
    exact ⟨_, hrun, ready_listed _⟩

theorem run_edges {reading : Reading} {pending : List Edge} (h : reading.Ready pending)
    (edges : List Edge) :
    parser.run reading (edges.flatMap Edge.tokens ++ [.symbol '\x7d']) =
      some (.finished, pending ++ edges) := by
  induction edges generalizing reading pending with
  | nil =>
    have hstep : parser.step reading (.symbol '\x7d') = some (.finished, pending) :=
      h (.symbol '\x7d') (by simp) (by decide)
    have hrest : parser.run .finished [] = some (.finished, []) := rfl
    exact Transducer.run_cons hstep hrest
  | cons edge edges ih =>
    obtain ⟨reading', hrun, hready⟩ := run_tokens h edge
    rw [List.flatMap_cons, List.append_assoc]
    exact Transducer.run_append hrun (ih hready)

/-- **The edges of a digraph with one statement for each of them.** -/
theorem read_of_lex {name : List Char} (hname : isIdentifier name = true)
    (h : lex text = some ([.word "strict".toList, .word "digraph".toList, .word name,
      .symbol '\x7b'] ++ (edges.flatMap Edge.tokens ++ [.symbol '\x7d']))) :
    read text = some edges := by
  have hkeyword : isKeyword name = false := by
    cases name with
    | nil => cases hname
    | cons c cs => simpa [isIdentifier] using (Bool.and_eq_true_iff.1 hname).2
  have hnamed : parser.step .digraph (.word name) = some (.named, []) := by
    change ((Token.word name).id?.map fun _ => (Reading.named, ([] : List Edge))) = _
    rw [Token.id?, hkeyword]
    rfl
  have hstart : parser.run .start [.word "strict".toList, .word "digraph".toList] =
      some (.digraph, []) := by
    decide
  have hbody : parser.run .named [.symbol '\x7b'] = some (.between, []) := rfl
  have hheader := Transducer.run_append hstart (Transducer.run_cons hnamed hbody)
  have hrun := Transducer.run_append hheader (run_edges ready_between edges)
  rw [read, h, Option.bind_some]
  exact congrArg (fun result => match result with
    | some (.finished, edges) => some edges
    | _ => none) hrun

end Dot

end Maplang
