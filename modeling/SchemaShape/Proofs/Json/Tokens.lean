import SchemaShape.Compiler.Basic
import SchemaShape.Proofs.Json.Pointer

/-! # Tokens written and read

A token is written with every tilde replaced by `~0`, and after that every slash by `~1`. It is read the
other way round: every `~1` gives way to a slash, and after that every `~0` to a tilde. The slashes that the
first replacement brings in stand behind a tilde at times, but they make no `~0`, so one pass that looks at
both reads the same.

`value.Leads steps part` says that keys of objects and positions in arrays lead from a value to a part. The
pointer that has their tokens leads there too.
-/

namespace SchemaShape
set_option autoImplicit false

/-! ## Tokens -/

namespace Pointer

theorem escaped_eq (token : String) : escaped token = String.ofList (escape token.toList) := by
  have hchar : ∀ c, (if c = '~' then ['~', '0'] else [c]).flatMap
      (fun c => if c = '/' then ['~', '1'] else [c]) = escapeChar c := by
    intro c
    rw [escapeChar]
    split
    · rfl
    · rw [List.flatMap_singleton]
  rw [escaped, Text.replace_char, Text.replace_char, List.flatMap_assoc, escape]
  simp only [hchar]

/-- One pass reads what the two replacements read. -/
theorem replace_replace (written : List Char) :
    Text.replace '~' ['0'] ['~'] (Text.replace '~' ['1'] ['/'] written) = unescape written := by
  fun_induction unescape written with
  | case1 rest ih =>
    rw [Text.replace_pair, List.singleton_append, Text.replace_pair_cons (by decide), ih]
  | case2 rest ih =>
    have hone : ('0' :: rest).head? ≠ some '1' := by simp
    have hzero : '0' ≠ '~' := by decide
    rw [Text.replace_pair_skip hone, Text.replace_pair_cons hzero, Text.replace_pair,
      List.singleton_append, ih]
  | case3 c rest hslash htilde ih =>
    by_cases h : c = '~'
    · subst h
      have hone : rest.head? ≠ some '1' := by
        intro hhead
        obtain ⟨more, rfl⟩ := List.head?_eq_some_iff.mp hhead
        exact hslash more rfl rfl
      -- A slash that the first replacement brings in is no zero.
      have hzero : (Text.replace '~' ['1'] ['/'] rest).head? ≠ some '0' := by
        intro hhead
        obtain ⟨more, rfl⟩ := List.head?_eq_some_iff.mp (Text.head?_replace_pair (by decide) hhead)
        exact htilde more rfl rfl
      rw [Text.replace_pair_skip hone, Text.replace_pair_skip hzero, ih]
    · rw [Text.replace_pair_cons h, Text.replace_pair_cons h, ih]
  | case4 => rfl

theorem unescaped_escaped (token : String) : unescaped (escaped token) = token := by
  rw [unescaped, escaped_eq, String.toList_ofList, replace_replace, unescape_escape, String.ofList_toList]

/-! ## Pointers -/

theorem push_text (pointer : Pointer) (token : String) :
    push (text pointer) token = text (pointer ++ [token]) := by
  have hslash : "/".toList = ['/'] := rfl
  rw [← String.toList_inj, push, escaped_eq]
  simp only [String.toList_append, toList_text, List.flatMap_append, List.flatMap_singleton,
    String.toList_ofList, hslash, List.append_assoc, List.singleton_append]

theorem foldl_push (pointer : Pointer) (tokens : List String) :
    tokens.foldl push (text pointer) = text (pointer ++ tokens) := by
  induction tokens generalizing pointer with
  | nil => rw [List.foldl_nil, List.append_nil]
  | cons token rest ih => rw [List.foldl_cons, push_text, ih, List.append_assoc, List.singleton_append]

theorem built_eq_text (tokens : List String) : built tokens = text tokens :=
  foldl_push [] tokens

end Pointer

/-! ## Locations -/

namespace Location

theorem inDocument_eq (document : Url) (pointer : String) :
    inDocument document pointer =
      { document := document.text, tokens := (Pointer.ofText? pointer).getD [] } := by
  have hread : ∀ written, Pointer.unescaped (String.ofList written) =
      String.ofList (Pointer.unescape written) := by
    intro written
    rw [Pointer.unescaped, String.toList_ofList, Pointer.replace_replace]
  rw [inDocument, Pointer.ofText?]
  split
  · next rest htext =>
    rw [htext]
    simp only [hread, Option.getD_some]
  · next hslash =>
    split
    · rfl
    · next rest htext => exact absurd htext (hslash rest)
    · rfl

theorem inDocument_text (document : Url) (pointer : Pointer) :
    inDocument document (Pointer.text pointer) = { document := document.text, tokens := pointer } := by
  rw [inDocument_eq, Pointer.ofText?_text, Option.getD_some]

/-- A URL names what the pointer in its fragment names, if there is one. -/
theorem ofUrl_eq (url : Url) : ofUrl url =
    { document := url.withoutFragment.text, tokens := (url.fragment.bind Pointer.ofText?).getD [] } := by
  rw [ofUrl, inDocument_eq]
  cases url.fragment with
  | none => rfl
  | some fragment => rfl

end Location

theorem Compile.targetLocation_anchor {resolver : Resolver} {url document : Url} {pointer : Pointer}
    (h : resolver.locateAnchor? url = some (document, pointer)) :
    targetLocation resolver url = Location.inDocument document (Pointer.text pointer) := by
  rw [targetLocation, h, Location.inDocument_text]

/-! ## Steps -/

namespace Json

/-- A step from a value to a part: the key of an object, or the position in an array. -/
inductive Step where
  | key (name : String)
  | position (index : Nat)
  deriving DecidableEq, Repr

/-- The token that stands for a step in a pointer. -/
def Step.token : Step → String
  | key name => name
  | position index => toString index

/-- The steps lead from a value to a part. -/
inductive Leads : Json → List Step → Json → Prop where
  | here (value : Json) : Leads value [] value
  | key {members : Members} {name : String} {value part : Json} {rest : List Step}
      (hget : Members.get? members name = some value) (h : Leads value rest part) :
      Leads (object members) (.key name :: rest) part
  | position {items : List Json} {index : Nat} {item part : Json} {rest : List Step}
      (hget : items[index]? = some item) (h : Leads item rest part) :
      Leads (array items) (.position index :: rest) part

theorem Leads.at?_eq {value part : Json} {steps : List Step} (h : Leads value steps part) :
    value.at? (steps.map Step.token) = some part := by
  induction h with
  | here => rfl
  | key hget _ ih =>
    rw [List.map_cons, at?, Step.token, child?, hget]
    exact ih
  | position hget _ ih =>
    rw [List.map_cons, at?, Step.token, child?_position, hget]
    exact ih

end Json

/-- Tokens survive: each one is read back as it was before it was written, and so are all tokens from the
text of a pointer, which is shown as it is. The pointer of the steps to a part of a value leads there. -/
theorem Pointer.tokens_survive (document : Url) (tokens : List String) :
    (∀ token, unescaped (escaped token) = token) ∧
      (Location.inDocument document (built tokens)).text = document.text ++ "#" ++ built tokens ∧
      (Location.inDocument document (built tokens)).tokens = tokens ∧
      ∀ (value part : Json) (steps : List Json.Step), value.Leads steps part →
        value.pointer? (built (steps.map Json.Step.token)) = some part := by
  refine ⟨unescaped_escaped, ?_, ?_, fun value part steps h => ?_⟩
  · rw [built_eq_text, Location.inDocument_text, Location.text]
  · rw [built_eq_text, Location.inDocument_text]
  · rw [built_eq_text, Json.pointer?_text, h.at?_eq]

/-- Keys with a slash, with what a tilde is written as, and without characters. -/
def markedKeys : Json :=
  .object [("a/b", .array [.null, .object [("~01", .object [("", .string "found")])]])]

theorem Pointer.tokens_survive_marked :
    let document := Document.defaultUrl
    let steps : List Json.Step := [.key "a/b", .position 1, .key "~01", .key ""]
    let tokens := ["a/b", "1", "~01", ""]
    markedKeys.Leads steps (.string "found") ∧ steps.map Json.Step.token = tokens ∧
      built tokens = "/a~1b/1/~001/" ∧ markedKeys.pointer? (built tokens) = some (.string "found") ∧
      (Location.inDocument document (built tokens)).text = document.text ++ "#" ++ built tokens ∧
      (Location.inDocument document (built tokens)).tokens = tokens := by
  intro document steps tokens
  have hleads : markedKeys.Leads steps (.string "found") :=
    .key rfl (.position rfl (.key rfl (.key rfl (.here _))))
  have htokens : steps.map Json.Step.token = tokens := by decide +kernel
  have hbuilt : built tokens = "/a~1b/1/~001/" := by
    rw [built_eq_text]
    decide +kernel
  obtain ⟨-, htext, hread, hlead⟩ := tokens_survive document tokens
  exact ⟨hleads, htokens, hbuilt, hlead _ _ steps hleads, htext, hread⟩

end SchemaShape
