/-! # Replacing in a text

Every occurrence of a text in another one gives way to a new text, from the left; occurrences that
overlap an earlier one are none.
-/

namespace SchemaShape.Text
set_option autoImplicit false

/-- Replaces in what follows the given number of characters, which belong to an occurrence. -/
def replaceAfter (first : Char) (more new : List Char) : Nat → List Char → List Char
  | _, [] => []
  | count + 1, _ :: rest => replaceAfter first more new count rest
  | 0, c :: rest =>
    if c = first ∧ more.isPrefixOf rest then new ++ replaceAfter first more new more.length rest
    else c :: replaceAfter first more new 0 rest

/-- Puts the new text in place of every occurrence of `first :: more`. -/
def replace (first : Char) (more new text : List Char) : List Char :=
  replaceAfter first more new 0 text

variable {first second c : Char} {more new rest : List Char}

theorem replace_nil : replace first more new [] = [] := rfl

theorem replaceAfter_eq (count : Nat) (text : List Char) :
    replaceAfter first more new count text = replace first more new (text.drop count) := by
  induction count generalizing text with
  | zero => rfl
  | succ count ih =>
    cases text with
    | nil => rfl
    | cons c rest => exact ih rest

theorem replace_cons : replace first more new (c :: rest) =
    if c = first ∧ more.isPrefixOf rest then new ++ replace first more new (rest.drop more.length)
    else c :: replace first more new rest := by
  rw [← replaceAfter_eq]
  rfl

theorem replace_char (first : Char) (new text : List Char) :
    replace first [] new text = text.flatMap fun c => if c = first then new else [c] := by
  induction text with
  | nil => rfl
  | cons c rest ih =>
    rw [replace_cons, List.flatMap_cons]
    by_cases h : c = first
    · rw [if_pos ⟨h, rfl⟩, if_pos h, List.length_nil, List.drop_zero, ih]
    · rw [if_neg fun hboth => h hboth.1, if_neg h, ih, List.singleton_append]

theorem replace_pair : replace first [second] new (first :: second :: rest) =
    new ++ replace first [second] new rest := by
  rw [replace_cons, if_pos ⟨rfl, by simp⟩]
  rfl

theorem replace_pair_skip (h : rest.head? ≠ some second) : replace first [second] new (c :: rest) =
    c :: replace first [second] new rest := by
  rw [replace_cons, if_neg]
  rintro ⟨-, hprefix⟩
  obtain ⟨more, rfl⟩ := List.isPrefixOf_iff_prefix.mp hprefix
  exact h rfl

theorem replace_pair_cons (h : c ≠ first) : replace first [second] new (c :: rest) =
    c :: replace first [second] new rest := by
  rw [replace_cons, if_neg fun hboth => h hboth.1]

theorem head?_replace_pair {next d : Char} (hne : next ≠ d)
    (h : (replace first [second] [next] rest).head? = some d) : rest.head? = some d := by
  cases rest with
  | nil => cases h
  | cons c more =>
    rw [replace_cons] at h
    split at h
    · exact absurd (Option.some.inj h) hne
    · exact h

end SchemaShape.Text
