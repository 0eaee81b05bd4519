import Maplang.Http.RequestExtractor
import Maplang.Stream.Concatenation

/-!
# Parsing a header block

`parseHeaders` is called with a single line, but it is written for a complete header block: it cuts
the block into lines, and each line at its first colon.

## Main definitions

* `Http.nameText`, `Http.valueText` : a line in front of its first colon, and behind it.
* `Http.bindLine` : what a line says.
* `Http.ParsesBlock` : the headers are what the lines say, the later ones first.

## Main results

* `Http.fieldName_eq`, `Http.fieldValue_eq` : the split at the colon.
* `HttpRequestExtractor.parseHeaders_exact` : the headers of any block.
-/

namespace Maplang

namespace Http

/-- The text in front of the first colon: the whole line if there is none. -/
def nameText (line : ByteString) : ByteString := line.takeWhile (· ≠ 58)

/-- The text behind the first colon, further colons included. -/
def valueText (line : ByteString) : ByteString := (line.dropWhile (· ≠ 58)).drop 1

/-- A line binds its name, in lower case, to its value. -/
def bindLine (headers : ByteString → Option ByteString) (line : ByteString) :
    ByteString → Option ByteString :=
  Function.update headers (toLower (Search.trim (· ∈ MemoryStream.whitespace) (nameText line)))
    (some (Search.trim (· ∈ MemoryStream.whitespace) (valueText line)))

/-- The headers of a block are an object, with its members in order, that binds what the lines bind
one after the other. -/
def ParsesBlock (headers : MemoryStream) (block : ByteString) : Prop :=
  ∃ members, HttpRequestExtractor.parseHeaders headers = .ok (.object members) ∧
    Json.KeyOrder members ∧
    ∀ name, members.lookup name =
      ((lines block).foldl bindLine (fun _ => none) name).map .string

/-- A line with a colon is cut at the first one. -/
theorem splitAtMost_colon (line : ByteString) :
    Search.splitAtMost (bytes ":") 1 line =
      nameText line :: if 58 ∈ line then [valueText line] else [] := by
  rw [show bytes ":" = [58] by decide]
  by_cases hcolon : (58 : UInt8) ∈ line
  · obtain ⟨name, value, rfl, hname⟩ := List.eq_append_cons_of_mem hcolon
    have hall : ∀ c ∈ name, decide (c ≠ (58 : UInt8)) = true := fun c hc =>
      decide_eq_true fun heq => hname (heq ▸ hc)
    rw [Search.splitAtMost_one_append hname, if_pos hcolon, nameText, valueText,
      List.takeWhile_append_of_pos hall, List.dropWhile_append_of_pos hall]
    simp
  · have hall : ∀ c ∈ line, decide (c ≠ (58 : UInt8)) = true := fun c hc =>
      decide_eq_true fun heq => hcolon (heq ▸ hc)
    rw [Search.splitAtMost_of_notMem hcolon, if_neg hcolon, nameText,
      List.takeWhile_eq_self_iff.2 hall]

theorem fieldName_eq (line : ByteString) :
    fieldName line = toLower (Search.trim (· ∈ MemoryStream.whitespace) (nameText line)) := by
  rw [fieldName, splitAtMost_colon, List.headD_cons]

theorem fieldValue_eq (line : ByteString) :
    fieldValue line = Search.trim (· ∈ MemoryStream.whitespace) (valueText line) := by
  rw [fieldValue, splitAtMost_colon]
  by_cases hcolon : (58 : UInt8) ∈ line
  · rw [if_pos hcolon]
    rfl
  · have hall : ∀ c ∈ line, decide (c ≠ (58 : UInt8)) = true := fun c hc =>
      decide_eq_true fun heq => hcolon (heq ▸ hc)
    rw [if_neg hcolon, valueText, List.dropWhile_eq_nil_iff.2 hall]
    rfl

end Http

namespace HttpRequestExtractor

open Http

theorem keyOrder_addLines {members : List (ByteString × Json)} (h : Json.KeyOrder members)
    (headerLines : List ByteString) : Json.KeyOrder (addLines members headerLines) := by
  induction headerLines generalizing members with
  | nil => exact h
  | cons line headerLines ih => exact ih (Json.keyOrder_setMember h _ _)

/-- Each line overrides what the lines before it say about its name. -/
theorem lookup_addLines {members : List (ByteString × Json)}
    {headers : ByteString → Option ByteString}
    (h : ∀ name, members.lookup name = (headers name).map .string)
    (headerLines : List ByteString) (name : ByteString) :
    (addLines members headerLines).lookup name =
      (headerLines.foldl bindLine headers name).map .string := by
  induction headerLines generalizing members headers with
  | nil => exact h name
  | cons line headerLines ih =>
    refine ih fun name => ?_
    rw [Json.lookup_setMember, fieldName_eq, fieldValue_eq, bindLine, Function.update_apply]
    split
    · rfl
    · exact h name

/-- **The headers of any block**, however its bytes are cut into buffers. -/
theorem parseHeaders_exact {headers : MemoryStream} {block : ByteString}
    (h : MemoryStream.Built headers block) : ParsesBlock headers block := by
  obtain ⟨hvalid, rfl⟩ := h.valid
  exact ⟨_, parseHeaders_eq hvalid, keyOrder_addLines Json.keyOrder_nil _,
    lookup_addLines (fun _ => rfl) (lines headers.contents)⟩

/-- A name cut by a border, a second colon, and a line without one. -/
theorem parseHeaders_exact_lines :
    ParsesBlock ⟨[.ofBytes (bytes "Ho"), .ofBytes (bytes "st: a:b\r\nc")], 12⟩
      (bytes "Host: a:b\r\nc") := by
  have hone : MemoryStream.Built ⟨[.ofBytes (bytes "Ho")], 2⟩ (bytes "Ho") :=
    .append .empty (by decide : (Buffer.ofBytes (bytes "Ho")).Valid) (by decide) rfl
  have hsecond : (Buffer.ofBytes (bytes "st: a:b\r\nc")).Valid := by decide
  exact parseHeaders_exact (.append hone hsecond (by decide) rfl)

end HttpRequestExtractor

end Maplang
