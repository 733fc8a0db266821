import Mathlib.Data.List.DropRight
import SchemaShape.Url.Parser

/-! # References within a document

A reference that starts with `#` names a place in the document that it stands in: joining it to a base
puts another fragment on the base and changes nothing else. A base with another fragment is still the
same document, and takes references to the same places.
-/

namespace SchemaShape.Url
set_option autoImplicit false

/-- Whether a reference names a place in its own document. -/
def isLocal (reference : String) : Bool :=
  reference.toList.head? == some '#'

/-- The fragment that a reference names. -/
def fragmentOf (reference : String) : Option String :=
  (Reference.ofText reference).fragment.map fun text =>
    String.ofList (Percent.encode Percent.inFragment text)

theorem clean_local (rest : List Char) : ∃ more, clean ('#' :: rest) = '#' :: more := by
  have hmark : decide ('#'.toNat ≤ 0x20) = false := by decide
  have hfront : ('#' :: rest).dropWhile (fun c => decide (c.toNat ≤ 0x20)) = '#' :: rest := by
    rw [List.dropWhile_cons, hmark, if_neg Bool.false_ne_true]
  have hback : ∃ more, (('#' :: rest).reverse.dropWhile fun c => decide (c.toNat ≤ 0x20)).reverse =
      '#' :: more := by
    rw [List.reverse_cons, List.dropWhile_append]
    split
    · rw [List.dropWhile_cons, hmark, if_neg Bool.false_ne_true]
      exact ⟨[], rfl⟩
    · rw [List.reverse_append]
      exact ⟨_, rfl⟩
  obtain ⟨more, hmore⟩ := hback
  refine ⟨more.filter fun c => c != '\t' && c != '\n' && c != '\r', ?_⟩
  simp only [clean]
  rw [hfront, hmore, List.filter_cons]
  rfl

theorem ofText_local {reference : String} (h : isLocal reference = true) :
    ∃ fragment, Reference.ofText reference = ⟨[], none, some fragment⟩ := by
  obtain ⟨rest, hrest⟩ : ∃ rest, reference.toList = '#' :: rest := by
    cases htext : reference.toList with
    | nil =>
      rw [isLocal, htext] at h
      cases h
    | cons c rest =>
      rw [isLocal, htext, List.head?_cons, beq_iff_eq, Option.some.injEq] at h
      exact ⟨rest, by rw [h]⟩
  obtain ⟨more, hmore⟩ := clean_local rest
  refine ⟨more, ?_⟩
  rw [Reference.ofText, hrest, hmore]
  rfl

theorem join_local {base : Url} {reference : String} (h : isLocal reference = true) :
    base.join reference = .ok { base with fragment := fragmentOf reference } := by
  obtain ⟨fragment, href⟩ := ofText_local h
  rw [join, resolve, fragmentOf, href]
  rfl

theorem fragment_of_join {base url : Url} {reference : String} (h : base.join reference = .ok url) :
    url.fragment = fragmentOf reference := by
  rw [join, resolve] at h
  cases hfront : ofFront (some base) (Reference.ofText reference) with
  | error e =>
    simp only [hfront] at h
    cases h
  | ok front =>
    simp only [hfront] at h
    cases h
    rfl

theorem relative_fragment (base : Url) (fragment : Option String) (last : Bool)
    (front : List Char) :
    relative { base with fragment } last front = relative base last front := by
  cases front <;> rfl

theorem file_fragment (base : Url) (fragment : Option String) (front : List Char) :
    file (some { base with fragment }) front = file (some base) front := by
  cases front <;> rfl

theorem ofFront_fragment (base : Url) (fragment : Option String) (ref : Reference) :
    ofFront (some { base with fragment }) ref = ofFront (some base) ref := by
  have hfilter : file ((some { base with fragment }).filter (·.scheme == "file")) =
      file ((some base).filter (·.scheme == "file")) := by
    funext front
    simp only [Option.filter_some]
    split
    · exact file_fragment base fragment front
    · rfl
  have hspecial : ofSpecialScheme (some { base with fragment }) = ofSpecialScheme (some base) := by
    funext scheme last front
    simp only [ofSpecialScheme, relative_fragment]
  simp only [ofFront, hfilter, hspecial, file_fragment, relative_fragment]
  rfl

/-- From anywhere in a document a reference joins to the same. -/
theorem join_fragment (base : Url) (fragment : Option String) (reference : String) :
    ({ base with fragment } : Url).join reference = base.join reference := by
  rw [join, resolve, join, resolve]
  simp only [ofFront_fragment]

theorem text_fragment_inj {url : Url} {fragment fragment' : Option String} :
    ({ url with fragment } : Url).text = ({ url with fragment := fragment' } : Url).text ↔
      fragment = fragment' := by
  have htext : ∀ fragment, ({ url with fragment } : Url).text =
      url.documentText ++ fragment.elim "" ("#" ++ ·) := fun _ => rfl
  constructor
  · intro h
    rw [htext, htext, String.append_right_inj] at h
    have hmark : ∀ text : String, "#" ++ text ≠ "" := by
      intro text heq
      have hlength := congrArg String.length heq
      rw [String.length_append] at hlength
      exact absurd hlength (by simp)
    cases fragment with
    | none =>
      cases fragment' with
      | none => rfl
      | some text => exact absurd h.symm (hmark text)
    | some text =>
      cases fragment' with
      | none => exact absurd h (hmark text)
      | some text' =>
        have hsame : text = text' := (String.append_right_inj "#").mp h
        rw [hsame]
  · intro h
    rw [h]

/-- The path of a URL without its last blanks. -/
def trimmed (path : String) : String :=
  String.ofList (path.toList.reverse.dropWhile (· == ' ')).reverse

theorem trimmed_idem (path : String) : trimmed (trimmed path) = trimmed path := by
  rw [trimmed, trimmed, String.toList_ofList, List.reverse_reverse, List.dropWhile_idempotent]

theorem withoutFragment_idem (url : Url) :
    url.withoutFragment.withoutFragment = url.withoutFragment := by
  have hpath : ∀ url : Url, url.withoutFragment =
      { url with
        path := if url.isOpaque && url.query.isNone then trimmed url.path else url.path
        fragment := none } := fun _ => rfl
  cases hisOpaque : url.isOpaque && url.query.isNone with
  | false =>
    have h : url.withoutFragment = { url with fragment := none } := by rw [hpath, hisOpaque]; rfl
    have h' : ({ url with fragment := none } : Url).isOpaque = url.isOpaque := rfl
    rw [h, hpath, h', hisOpaque]
    rfl
  | true =>
    have h : url.withoutFragment = { url with path := trimmed url.path, fragment := none } := by
      rw [hpath, hisOpaque]
      rfl
    rw [h, hpath, trimmed_idem]
    split
    · rfl
    · rfl

end SchemaShape.Url
