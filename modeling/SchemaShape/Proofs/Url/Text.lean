import Mathlib.Data.List.Basic
import SchemaShape.Url.Parser

/-! # URLs by their texts

The text of a URL tells its parts, because no part has a character that ends it: the scheme ends at
the first colon, the authority at the next slash, path and query at `?` and `#`. `Url.Formed` says
which characters a part is free of, and different URLs of this form have different texts.
-/

namespace SchemaShape
set_option autoImplicit false

/-! ## Texts that a mark ends -/

/-- The text has none of the marks. -/
def Free (marks text : List Char) : Prop := ∀ c ∈ text, c ∉ marks

instance (marks text : List Char) : Decidable (Free marks text) :=
  List.decidableBAll (· ∉ marks) text

/-- What every mark of a list satisfies is told mark by mark, and not over all characters. -/
theorem forall_marks {marks : List Char} {p : Char → Prop} [DecidablePred p]
    (h : marks.all (fun mark => decide (p mark)) = true) : ∀ mark ∈ marks, p mark :=
  fun mark mem => of_decide_eq_true (List.all_eq_true.mp h mark mem)

section

variable {marks text text' : List Char} {mark : Char}

theorem free_nil : Free marks [] := by simp [Free]

theorem free_append : Free marks (text ++ text') ↔ Free marks text ∧ Free marks text' :=
  List.forall_mem_append

theorem free_cons {c : Char} : Free marks (c :: text) ↔ c ∉ marks ∧ Free marks text :=
  List.forall_mem_cons

theorem Free.subset (h : Free marks text) (hsub : text' ⊆ text) : Free marks text' :=
  fun c mem => h c (hsub mem)

theorem Free.not_mem (h : Free marks text) (hmark : mark ∈ marks) : mark ∉ text :=
  fun mem => h mark mem hmark

theorem append_mark_inj {front front' : List Char} {back back' : Option (List Char)}
    (hfree : mark ∉ front) (hfree' : mark ∉ front')
    (h : front ++ back.elim [] (mark :: ·) = front' ++ back'.elim [] (mark :: ·)) :
    front = front' ∧ back = back' := by
  -- A front cannot go on where the other one has ended: there the mark stands, or nothing.
  have hends : ∀ {c : Char} {rest tail : List Char} {back : Option (List Char)}, mark ∉ c :: rest →
      back.elim [] (mark :: ·) ≠ c :: rest ++ tail := by
    intro c rest tail back hfree heq
    cases back with
    | none => cases heq
    | some text =>
      injection heq with hmark
      subst hmark
      exact hfree (List.mem_cons_self ..)
  induction front generalizing front' with
  | nil =>
    cases front' with
    | nil =>
      refine ⟨rfl, ?_⟩
      cases back <;> cases back' <;> simp_all
    | cons c rest => exact absurd h (hends hfree')
  | cons c rest ih =>
    cases front' with
    | nil => exact absurd h.symm (hends hfree)
    | cons c' rest' =>
      injection h with hfirst hrest
      obtain ⟨hfront, hback⟩ := ih (fun mem => hfree (List.mem_cons_of_mem _ mem))
        (fun mem => hfree' (List.mem_cons_of_mem _ mem)) hrest
      exact ⟨by rw [hfirst, hfront], hback⟩

theorem append_cons_inj {front front' back back' : List Char} (hfree : mark ∉ front)
    (hfree' : mark ∉ front') (h : front ++ mark :: back = front' ++ mark :: back') :
    front = front' ∧ back = back' := by
  obtain ⟨hfront, hback⟩ :=
    @append_mark_inj mark front front' (some back) (some back') hfree hfree' h
  exact ⟨hfront, Option.some.inj hback⟩

theorem toList_elim (mark : String) (part : Option String) :
    (part.elim "" (mark ++ ·)).toList = (part.map String.toList).elim [] (mark.toList ++ ·) := by
  cases part with
  | none => rfl
  | some text => exact String.toList_append

theorem map_toList_inj {part part' : Option String}
    (h : part.map String.toList = part'.map String.toList) : part = part' :=
  Option.map_injective (fun _ _ => String.toList_inj.mp) h

end

/-! ## Authorities -/

/-- No part of the authority has a character that ends it. A host with colons is in brackets. -/
structure Authority.Formed (a : Authority) : Prop where
  userinfo : Free ['/', '?', '#'] a.userinfo.toList
  user : a.userinfo = "" ∨ ∃ user, a.userinfo = user ++ "@"
  host : Free ['/', '?', '#', '@'] a.host.toList
  port : ':' ∉ a.host.toList ∨ a.host.toList.getLast? = some ']'

namespace Authority

variable {a a' : Authority}

/-- Host and port. -/
def server (a : Authority) : List Char :=
  a.host.toList ++ (a.port.map (Nat.toDigits 10)).elim [] (':' :: ·)

theorem toList_text (a : Authority) :
    a.text.toList = '/' :: '/' :: (a.userinfo.toList ++ a.server) := by
  have hport : (a.port.elim "" (":" ++ toString ·)).toList =
      (a.port.map (Nat.toDigits 10)).elim [] (':' :: ·) := by
    cases a.port with
    | none => rfl
    | some n =>
      show (":" ++ n.repr).toList = _
      rw [String.toList_append, Nat.toList_repr]
      rfl
  rw [text, String.toList_append, String.toList_append, String.toList_append, hport, server,
    List.append_assoc, List.append_assoc]
  rfl

theorem free_port {marks : List Char} (a : Authority) (hmarks : ∀ c ∈ marks, c.isDigit = false)
    (hcolon : ':' ∉ marks) : Free marks ((a.port.map (Nat.toDigits 10)).elim [] (':' :: ·)) := by
  cases a.port with
  | none => exact free_nil
  | some n =>
    refine free_cons.mpr ⟨hcolon, fun c mem hmark => ?_⟩
    have hdigit := Nat.isDigit_of_mem_toDigits (by decide) (by decide) mem
    rw [hmarks c hmark] at hdigit
    cases hdigit

theorem Formed.free_server (h : a.Formed) : Free ['/', '?', '#', '@'] a.server :=
  free_append.mpr ⟨h.host, a.free_port (forall_marks (by decide)) (by decide)⟩

theorem Formed.free_text (h : a.Formed) : Free ['?', '#'] a.text.toList := by
  rw [toList_text]
  refine free_cons.mpr ⟨by decide, free_cons.mpr ⟨by decide, free_append.mpr ⟨?_, ?_⟩⟩⟩
  · exact fun c mem hmark => h.userinfo c mem (List.mem_cons_of_mem _ hmark)
  · intro c mem hmark
    refine h.free_server c mem ?_
    revert hmark
    simp only [List.mem_cons, List.not_mem_nil, or_false]
    tauto

/-- A port does not continue a host: behind a colon of the host a bracket follows. -/
theorem Formed.server_ne (h : a.Formed) (n : Nat) (host : List Char) :
    a.host.toList ≠ host ++ ':' :: Nat.toDigits 10 n := by
  intro heq
  rcases h.port with hcolon | hbracket
  · exact hcolon (heq ▸ List.mem_append_right _ (List.mem_cons_self ..))
  · have hlast : (Nat.toDigits 10 n).getLast? = some ']' := by
      rw [heq, List.getLast?_append_cons, List.getLast?_cons_of_ne_nil Nat.toDigits_ne_nil] at hbracket
      exact hbracket
    have hdigit := Nat.isDigit_of_mem_toDigits (by decide) (by decide) (List.mem_of_getLast? hlast)
    exact absurd hdigit (by decide)

theorem Formed.server_inj (h : a.Formed) (h' : a'.Formed) (heq : a.server = a'.server) :
    a.host = a'.host ∧ a.port = a'.port := by
  have hcolon : ∀ n, ':' ∉ (Nat.toDigits 10 n).reverse := by
    intro n mem
    have hdigit := Nat.isDigit_of_mem_toDigits (by decide) (by decide) (List.mem_reverse.mp mem)
    exact absurd hdigit (by decide)
  rw [server, server] at heq
  cases hport : a.port with
  | none =>
    cases hport' : a'.port with
    | none =>
      simp only [hport, hport', Option.map_none, Option.elim_none, List.append_nil] at heq
      exact ⟨String.toList_inj.mp heq, rfl⟩
    | some n =>
      simp only [hport, hport', Option.map_none, Option.elim_none, List.append_nil] at heq
      exact absurd heq (h.server_ne n _)
  | some n =>
    cases hport' : a'.port with
    | none =>
      simp only [hport, hport', Option.map_none, Option.elim_none, List.append_nil] at heq
      exact absurd heq.symm (h'.server_ne n _)
    | some n' =>
      simp only [hport, hport', Option.map_some, Option.elim_some] at heq
      have hreverse := congrArg List.reverse heq
      simp only [List.reverse_append, List.reverse_cons, List.append_assoc,
        List.singleton_append] at hreverse
      obtain ⟨hdigits, hhost⟩ := append_cons_inj (hcolon n) (hcolon n') hreverse
      have hport : n = n' := by
        have hvalue := congrArg (Nat.ofDigitChars 10 · 0) (List.reverse_injective hdigits)
        simp only [@Nat.ofDigitChars_toDigits 10 _ (by decide) (by decide)] at hvalue
        exact hvalue
      exact ⟨String.toList_inj.mp (List.reverse_injective hhost), by rw [hport]⟩

theorem Formed.text_inj (h : a.Formed) (h' : a'.Formed) (heq : a.text = a'.text) : a = a' := by
  have hchars := congrArg String.toList heq
  rw [toList_text, toList_text, List.cons_inj_right, List.cons_inj_right] at hchars
  -- From behind, the server ends at the `@` of the user, or at the front.
  have huser : ∀ {a : Authority}, a.Formed → ∃ user : Option (List Char),
      a.userinfo.toList.reverse = user.elim [] ('@' :: ·) := by
    intro a h
    rcases h.user with hempty | ⟨user, heq⟩
    · exact ⟨none, by rw [hempty]; rfl⟩
    · refine ⟨some user.toList.reverse, ?_⟩
      rw [heq, String.toList_append, List.reverse_append]
      rfl
  obtain ⟨user, hreverse⟩ := huser h
  obtain ⟨user', hreverse'⟩ := huser h'
  have hbackward := congrArg List.reverse hchars
  rw [List.reverse_append, List.reverse_append, hreverse, hreverse'] at hbackward
  obtain ⟨hserver, heq⟩ := append_mark_inj
    (fun mem => h.free_server.not_mem (by decide) (List.mem_reverse.mp mem))
    (fun mem => h'.free_server.not_mem (by decide) (List.mem_reverse.mp mem)) hbackward
  obtain ⟨hhost, hport⟩ := h.server_inj h' (List.reverse_injective hserver)
  have huserinfo : a.userinfo.toList.reverse = a'.userinfo.toList.reverse := by
    rw [hreverse, hreverse', heq]
  have huserinfo' := String.toList_inj.mp (List.reverse_injective huserinfo)
  cases a
  cases a'
  simp only at hhost hport huserinfo'
  rw [hhost, hport, huserinfo']

end Authority

/-! ## URLs -/

namespace Url

/-- A path of which the front may be left out in the text. -/
def isDotted (path : List Char) : Bool := ['/', '.', '/'].isPrefixOf path

/-- No part of the URL has a character that ends it. Behind an authority, which special schemes need,
the path starts with a slash, and a path without an authority does not start with a dot for a
segment. -/
structure Formed (url : Url) : Prop where
  scheme : Free [':', '/', '?', '#'] url.scheme.toList
  authority : ∀ a ∈ url.authority, a.Formed
  path : Free ['?', '#'] url.path.toList
  rooted : url.authority.isSome → ∃ rest : Option (List Char), url.path.toList = rest.elim [] ('/' :: ·)
  undotted : url.authority = none → isDotted url.path.toList = false
  query : ∀ query ∈ url.query, Free ['#'] query.toList
  served : (schemeKind url.scheme).isSpecial = true → url.authority.isSome

variable {url url' : Url}

/-- What stands behind the scheme, up to the query. -/
def behindScheme (url : Url) : List Char :=
  (url.authority.elim "" Authority.text).toList ++ url.pathText.toList

theorem toList_documentText (url : Url) :
    url.documentText.toList = url.scheme.toList ++ ':' :: url.behindScheme ++
      (url.query.map String.toList).elim [] ('?' :: ·) := by
  rw [documentText, String.toList_append, toList_elim, behindScheme]
  simp only [String.toList_append, List.append_assoc, List.cons_append]
  rfl

theorem toList_text (url : Url) :
    url.text.toList =
      url.documentText.toList ++ (url.fragment.map String.toList).elim [] ('#' :: ·) := by
  rw [text, String.toList_append, toList_elim]
  rfl

theorem pathText_of_authority (h : url.authority.isSome) : url.pathText = url.path := by
  rw [pathText, Option.isNone_eq_false_iff.mpr h]
  rfl

theorem Formed.free_pathText (h : url.Formed) : Free ['?', '#'] url.pathText.toList := by
  rw [pathText]
  split
  · rw [String.toList_append]
    exact free_append.mpr ⟨by decide, h.path⟩
  · exact h.path

theorem Formed.free_behindScheme (h : url.Formed) : Free ['?', '#'] url.behindScheme := by
  refine free_append.mpr ⟨?_, h.free_pathText⟩
  cases hauthority : url.authority with
  | none => exact free_nil
  | some a => exact (h.authority a hauthority).free_text

theorem Formed.free_hierarchy (h : url.Formed) :
    Free ['?', '#'] (url.scheme.toList ++ ':' :: url.behindScheme) := by
  refine free_append.mpr ⟨fun c mem hmark => h.scheme c mem ?_,
    free_cons.mpr ⟨by decide, h.free_behindScheme⟩⟩
  exact List.mem_cons_of_mem _ (List.mem_cons_of_mem _ hmark)

theorem Formed.free_documentText (h : url.Formed) : Free ['#'] url.documentText.toList := by
  rw [toList_documentText]
  refine free_append.mpr ⟨fun c mem hmark => ?_, ?_⟩
  · exact h.free_hierarchy c mem (List.mem_cons_of_mem _ hmark)
  · cases hquery : url.query with
    | none => exact free_nil
    | some query => exact free_cons.mpr ⟨by decide, h.query query hquery⟩

/-- Without an authority the text behind the scheme does not start with two slashes, so it does not
read as one. -/
theorem pathText_not_slashes (h : url.authority = none) (rest : List Char) :
    url.pathText.toList ≠ '/' :: '/' :: rest := by
  intro heq
  rw [pathText, h] at heq
  split at heq
  · rw [String.toList_append] at heq
    exact absurd (List.cons.inj (List.cons.inj heq).2).1 (by decide)
  · next hslashes =>
    rw [heq] at hslashes
    exact hslashes rfl

theorem Formed.pathText_inj (h : url.Formed) (h' : url'.Formed) (hnone : url.authority = none)
    (hnone' : url'.authority = none) (heq : url.pathText = url'.pathText) : url.path = url'.path := by
  have hfront : ∀ {url url' : Url}, url'.Formed → url'.authority = none →
      "//".toList.isPrefixOf url.path.toList = true → "/." ++ url.path ≠ url'.path := by
    intro url url' h' hnone' hslashes heq
    have hundotted := h'.undotted hnone'
    rw [← heq, String.toList_append, isDotted] at hundotted
    cases hpath : url.path.toList with
    | nil =>
      rw [hpath] at hslashes
      cases hslashes
    | cons c rest =>
      rw [hpath] at hslashes hundotted
      have hc : '/' = c := (List.cons_prefix_cons.mp (List.isPrefixOf_iff_prefix.mp hslashes)).1
      subst hc
      cases hundotted
  rw [pathText, pathText, hnone, hnone'] at heq
  simp only [Option.isNone_none, Bool.true_and] at heq
  split at heq
  · next hslashes =>
    split at heq
    · exact (String.append_right_inj _).mp heq
    · exact absurd heq (hfront h' hnone' hslashes)
  · split at heq
    · next hslashes => exact absurd heq.symm (hfront h hnone hslashes)
    · exact heq

theorem Formed.behindScheme_inj (h : url.Formed) (h' : url'.Formed)
    (heq : url.behindScheme = url'.behindScheme) :
    url.authority = url'.authority ∧ url.path = url'.path := by
  -- Only an authority starts with two slashes.
  have hslashes : ∀ {url url' : Url} {a : Authority}, url.authority = none → url'.authority = some a →
      url.behindScheme ≠ url'.behindScheme := by
    intro url url' a hnone hsome heq
    rw [behindScheme, behindScheme, hnone, hsome] at heq
    simp only [Option.elim_some, Authority.toList_text] at heq
    exact pathText_not_slashes hnone _ heq
  cases hauthority : url.authority with
  | none =>
    cases hauthority' : url'.authority with
    | none =>
      rw [behindScheme, behindScheme, hauthority, hauthority'] at heq
      exact ⟨rfl, h.pathText_inj h' hauthority hauthority' (String.toList_inj.mp heq)⟩
    | some a' => exact absurd heq (hslashes hauthority hauthority')
  | some a =>
    cases hauthority' : url'.authority with
    | none => exact absurd heq.symm (hslashes hauthority' hauthority)
    | some a' =>
      have hsome : url.authority.isSome := by rw [hauthority]; rfl
      have hsome' : url'.authority.isSome := by rw [hauthority']; rfl
      obtain ⟨rest, hrest⟩ := h.rooted hsome
      obtain ⟨rest', hrest'⟩ := h'.rooted hsome'
      have hformed := h.authority a hauthority
      have hformed' := h'.authority a' hauthority'
      rw [behindScheme, behindScheme, hauthority, hauthority', pathText_of_authority hsome,
        pathText_of_authority hsome', hrest, hrest'] at heq
      simp only [Option.elim_some, Authority.toList_text, List.cons_append, List.cons.injEq,
        true_and] at heq
      have hfree : ∀ {a : Authority}, a.Formed → '/' ∉ a.userinfo.toList ++ a.server := by
        intro a h mem
        rcases List.mem_append.mp mem with hmem | hmem
        · exact h.userinfo.not_mem (by decide) hmem
        · exact h.free_server.not_mem (by decide) hmem
      obtain ⟨htext, hpath⟩ := append_mark_inj (hfree hformed) (hfree hformed') heq
      have hauthorities : a = a' := by
        refine hformed.text_inj hformed' (String.toList_inj.mp ?_)
        rw [Authority.toList_text, Authority.toList_text, htext]
      have hpaths : url.path.toList = url'.path.toList := by rw [hrest, hrest', hpath]
      exact ⟨by rw [hauthorities], String.toList_inj.mp hpaths⟩

/-- Different URLs have different texts. -/
theorem Formed.text_inj (h : url.Formed) (h' : url'.Formed) (heq : url.text = url'.text) :
    url = url' := by
  have hchars := congrArg String.toList heq
  rw [toList_text, toList_text] at hchars
  obtain ⟨hdocument, hfragment⟩ := append_mark_inj (h.free_documentText.not_mem (by decide))
    (h'.free_documentText.not_mem (by decide)) hchars
  rw [toList_documentText, toList_documentText] at hdocument
  obtain ⟨hhierarchy, hquery⟩ := append_mark_inj (h.free_hierarchy.not_mem (by decide))
    (h'.free_hierarchy.not_mem (by decide)) hdocument
  obtain ⟨hscheme, hbehind⟩ := append_cons_inj (h.scheme.not_mem (by decide))
    (h'.scheme.not_mem (by decide)) hhierarchy
  obtain ⟨hauthority, hpath⟩ := h.behindScheme_inj h' hbehind
  cases url
  cases url'
  simp only at hauthority hpath
  have hscheme' := String.toList_inj.mp hscheme
  have hquery' := map_toList_inj hquery
  have hfragment' := map_toList_inj hfragment
  simp only at hscheme' hquery' hfragment'
  rw [hscheme', hauthority, hpath, hquery', hfragment']

end Url

end SchemaShape
