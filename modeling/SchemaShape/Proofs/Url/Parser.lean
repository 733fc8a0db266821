import SchemaShape.Proofs.Url.Fragment
import SchemaShape.Proofs.Url.Path

/-! # URLs that the parser gives

Every URL that is read or joined is well formed: none of its parts can end another one. There is one
lemma for each way to read the front of a reference. A base has to be well formed itself.

The document of a URL may lack blanks that the URL has in an opaque path. References join to places in the
same documents from both.
-/

namespace SchemaShape
set_option autoImplicit false

open UrlPath (SchemeKind)

theorem exists_of_bind_ok {α β : Type} {x : Except UrlError α} {f : α → Except UrlError β} {b : β}
    (h : x >>= f = .ok b) : ∃ a, x = .ok a ∧ f a = .ok b := by
  cases x with
  | error e => cases h
  | ok a => exact ⟨a, rfl, h⟩

/-! ## Authorities -/

namespace Authority

/-- The port behind a user and a host that were read. -/
def readBehind (scheme userinfo host : String) (text : List Char) :
    Except UrlError (Authority × List Char) := do
  match text with
  | ':' :: rest =>
    if host.isEmpty then throw .emptyHost
    let (port, rest) ← readPort scheme rest
    return ({ userinfo, host, port }, rest)
  | rest =>
    if host.isEmpty && !userinfo.isEmpty then throw .emptyHost
    return ({ userinfo, host }, rest)

/-- Host and port behind a user that was read. -/
def readServer (scheme : String) (kind : SchemeKind) (userinfo : String) (text : List Char) :
    Except UrlError (Authority × List Char) := do
  let (hostText, rest) := Host.split kind false text
  if kind.isSpecial && hostText.isEmpty then throw .emptyHost
  let host ← if kind.isSpecial then Host.ofDomain hostText else Host.ofOpaque hostText
  readBehind scheme userinfo host rest

theorem read_ok {scheme : String} {kind : SchemeKind} {last : Bool} {text rest : List Char}
    {a : Authority} (h : read scheme kind last text = .ok (a, rest)) :
    ∃ user text, readServer scheme kind user text = .ok (a, rest) ∧
      (user = "" ∨ ∃ text, user = userinfoText text) := by
  rw [read] at h
  split at h
  · exact ⟨_, _, h, .inl rfl⟩
  · split at h
    · cases h
    · exact ⟨_, _, h, .inr ⟨_, rfl⟩⟩

section

variable {scheme userinfo host : String} {kind : SchemeKind} {text rest : List Char} {a : Authority}
variable (huser : Free ['/', '?', '#'] userinfo.toList ∧
  (userinfo = "" ∨ ∃ user, userinfo = user ++ "@"))

include huser

theorem formed_readBehind (hhost : IsHost host)
    (h : readBehind scheme userinfo host text = .ok (a, rest)) : a.Formed := by
  unfold readBehind at h
  split at h
  · split at h
    · cases h
    · obtain ⟨⟨port, behind⟩, -, h⟩ := exists_of_bind_ok h
      cases h
      exact formed_of huser hhost
  · split at h
    · cases h
    · cases h
      exact formed_of huser hhost

theorem formed_readServer (h : readServer scheme kind userinfo text = .ok (a, rest)) :
    a.Formed := by
  rw [readServer] at h
  dsimp only at h
  split at h
  · cases h
  · split at h
    · obtain ⟨host, hhost, h⟩ := exists_of_bind_ok h
      exact formed_readBehind huser (Host.isHost_ofDomain hhost) h
    · obtain ⟨host, hhost, h⟩ := exists_of_bind_ok h
      exact formed_readBehind huser (Host.isHost_ofOpaque hhost) h

end

theorem formed_read {scheme : String} {kind : SchemeKind} {last : Bool} {text rest : List Char}
    {a : Authority} (h : read scheme kind last text = .ok (a, rest)) : a.Formed := by
  obtain ⟨user, behind, hserver, huser⟩ := read_ok h
  refine formed_readServer ?_ hserver
  rcases huser with rfl | ⟨source, rfl⟩
  · exact ⟨free_nil, .inl rfl⟩
  · exact free_userinfoText source

end Authority

/-! ## URLs -/

namespace Url

theorem rooted_of_head? {path : List Char} (h : path.head? = some '/') :
    ∃ rest : Option (List Char), path = rest.elim [] ('/' :: ·) := by
  cases path with
  | nil => cases h
  | cons c rest =>
    rw [List.head?_cons, Option.some.injEq] at h
    exact ⟨some rest, by rw [h]; rfl⟩

variable {base url : Url} {scheme : String} {front text rest : List Char} {last : Bool}

/-! ### Parts of a reference -/

theorem free_takeWhile (mark : Char) (text : List Char) : Free [mark] (text.takeWhile (· != mark)) := by
  intro c mem hmark
  have hne := List.mem_takeWhile_imp mem
  rw [List.mem_singleton.mp hmark] at hne
  simp at hne

theorem free_front (text : String) : Free ['?', '#'] (Reference.ofText text).front := by
  intro c mem hmark
  rcases List.mem_cons.mp hmark with rfl | hmark
  · exact free_takeWhile _ _ _ mem (List.mem_cons_self ..)
  · exact free_takeWhile _ _ _ (List.takeWhile_prefix _ |>.subset mem) hmark

theorem free_scheme (h : scheme? text = some (scheme, rest)) :
    Free [':', '/', '?', '#'] scheme.toList := by
  have hmarks : ∀ mark ∈ [':', '/', '?', '#'], mark.toNat ≤ 0x60 ∧
      (mark.isAlphanum || mark == '+' || mark == '-' || mark == '.') = false :=
    forall_marks (by decide)
  unfold scheme? at h
  dsimp only at h
  split at h
  · split at h
    · cases h
      rw [String.toList_ofList]
      intro d mem hmark
      obtain ⟨c, hc, hlower⟩ := List.mem_map.mp mem
      have heq := toLower_eq_mark (hmarks d hmark).1 hlower
      have hscheme := List.mem_takeWhile_imp hc
      rw [heq, (hmarks d hmark).2] at hscheme
      cases hscheme
    · cases h
  · cases h

theorem subset_scheme (h : scheme? text = some (scheme, rest)) : rest ⊆ text := by
  unfold scheme? at h
  dsimp only at h
  split at h
  · next hrest =>
    split at h
    · cases h
      exact fun c mem => (List.dropWhile_suffix _).subset (hrest ▸ List.mem_cons_of_mem _ mem)
    · cases h
  · cases h

/-! ### URLs with an authority -/

theorem formed_of_authority (hscheme : Free [':', '/', '?', '#'] scheme.toList) {a : Authority}
    (ha : a.Formed) {path : List Char} (hfree : Free ['?', '#'] path)
    (hrooted : ∃ rest : Option (List Char), path = rest.elim [] ('/' :: ·)) :
    ({ scheme, authority := some a, path := String.ofList path
       query := none, fragment := none } : Url).Formed where
  scheme := hscheme
  authority := by
    intro a' ha'
    cases ha'
    exact ha
  path := by
    rw [String.toList_ofList]
    exact hfree
  rooted := by
    rw [String.toList_ofList]
    exact fun _ => hrooted
  undotted := by simp
  query := by simp
  served := fun _ => rfl

theorem formed_withAuthority (hscheme : Free [':', '/', '?', '#'] scheme.toList)
    (h : withAuthority scheme last text = .ok url) : url.Formed := by
  obtain ⟨⟨a, behind⟩, hread, h⟩ := exists_of_bind_ok h
  cases h
  refine formed_of_authority hscheme (Authority.formed_read hread) ?_ ?_
  · rw [pathBehind.eq_def]
    split
    · split <;> decide
    · split
      · exact UrlPath.free_append_path (by decide)
      · exact UrlPath.free_append_path (by decide)
  · rw [pathBehind.eq_def]
    split
    · split
      · exact ⟨some [], rfl⟩
      · exact ⟨none, rfl⟩
    · split
      · exact rooted_of_head? (UrlPath.rooted_append _ _ _ rfl rfl).1
      · exact rooted_of_head? (UrlPath.rooted_append _ _ _ rfl rfl).1

theorem formed_fileUrl {host : String} (hhost : IsHost host) {path : List Char}
    (hfree : Free ['?', '#'] path) (hhead : path.head? = some '/') : (fileUrl host path).Formed :=
  formed_of_authority (by decide) (Authority.formed_of ⟨free_nil, .inl rfl⟩ hhost) hfree
    (rooted_of_head? hhead)

/-! ### References -/

theorem Formed.withoutParts (h : base.Formed) : ({ base with fragment := none } : Url).Formed :=
  ⟨h.scheme, h.authority, h.path, h.rooted, h.undotted, h.query, h.served⟩

theorem Formed.withPath (h : base.Formed) {path : List Char} (hfree : Free ['?', '#'] path)
    (hhead : path.head? = some '/') (hundotted : base.authority = none → isDotted path = false) :
    (base.withPath path).Formed where
  scheme := h.scheme
  authority := h.authority
  path := by
    rw [Url.withPath, String.toList_ofList]
    exact hfree
  rooted := by
    rw [Url.withPath, String.toList_ofList]
    exact fun _ => rooted_of_head? hhead
  undotted := by
    rw [Url.withPath, String.toList_ofList]
    exact hundotted
  query := by simp [Url.withPath]
  served := h.served

theorem Formed.kind_of_none (h : base.Formed) (hnone : base.authority = none) :
    schemeKind base.scheme = .other := by
  have hserved := h.served
  rw [hnone] at hserved
  cases hkind : schemeKind base.scheme with
  | other => rfl
  | special =>
    rw [hkind] at hserved
    exact absurd (hserved rfl) (by decide)
  | file =>
    rw [hkind] at hserved
    exact absurd (hserved rfl) (by decide)

theorem Formed.rooted_of_hierarchical (h : base.Formed) (hisOpaque : base.isOpaque = false) :
    base.path.toList = [] ∨ base.path.toList.head? = some '/' := by
  cases hauthority : base.authority with
  | none =>
    rw [isOpaque, hauthority, Option.isNone_none, Bool.true_and, bne_eq_false_iff_eq] at hisOpaque
    exact .inr hisOpaque
  | some a =>
    obtain ⟨rest, hrest⟩ := h.rooted (by rw [hauthority]; rfl)
    rw [hrest]
    cases rest with
    | none => exact .inl rfl
    | some rest => exact .inr rfl

theorem formed_relative (hbase : base.Formed) (hisOpaque : base.isOpaque = false)
    (h : relative base last front = .ok url) : url.Formed := by
  have hpath : ∀ {path : List Char}, Free ['?', '#'] path → path.head? = some '/' →
      path.getLast? = some '/' → (base.authority = none → isDotted path = false) → ∀ text,
      (base.withPath (UrlPath.append (schemeKind base.scheme) path true text).1).Formed := by
    intro path hfree hhead hback hundotted text
    obtain ⟨hhead', hundotted'⟩ := UrlPath.rooted_append (schemeKind base.scheme) true text
      hhead hback
    refine hbase.withPath (UrlPath.free_append_path hfree) hhead' fun hnone => ?_
    refine hundotted' ?_ (hundotted hnone)
    rw [hbase.kind_of_none hnone]
    decide
  rw [relative.eq_def] at h
  split at h
  · cases h
    exact hbase.withoutParts
  · split at h
    · split at h
      · exact formed_withAuthority hbase.scheme h
      · cases h
        exact hpath (by decide) rfl rfl (fun _ => rfl) _
    · cases h
      -- The directory of the base is empty, or a front of its path that ends in a slash.
      rcases hbase.rooted_of_hierarchical hisOpaque with hempty | hhead
      · have hdirectory : UrlPath.pop .other base.path.toList = [] := by rw [hempty]; rfl
        rw [if_pos hdirectory]
        exact hpath (by decide) rfl rfl (fun _ => rfl) _
      · have hslash : '/' ∈ base.path.toList := List.mem_of_mem_head? hhead
        have hback := UrlPath.splitLast_getLast? hslash
        have hfront := UrlPath.splitLast_front base.path.toList
        have hne : (UrlPath.splitLast base.path.toList).1 ≠ [] := fun hnil => by
          rw [hnil] at hback
          cases hback
        have hdirectory : UrlPath.pop .other base.path.toList =
            (UrlPath.splitLast base.path.toList).1 := rfl
        rw [hdirectory, if_neg hne]
        refine hpath (hbase.path.subset hfront.subset) ?_ hback (fun hnone => ?_) _
        · rw [UrlPath.head?_of_front hfront hne, hhead]
        · exact UrlPath.isDotted_of_front hfront (hbase.undotted hnone)

/-! ### File URLs -/

theorem isHost_empty : IsHost "" := ⟨free_nil, .inl List.not_mem_nil⟩

theorem isHost_fileHost {host : String} (h : fileHost text = .ok (host, rest)) : IsHost host := by
  rw [fileHost] at h
  split at h
  · cases h
    exact isHost_empty
  · obtain ⟨host, hhost, h⟩ := exists_of_bind_ok h
    cases h
    split
    · exact isHost_empty
    · exact Host.isHost_ofDomain hhost

theorem head?_append_file (path text : List Char) (hasHost : Bool) :
    (UrlPath.append .file path hasHost text).1.head? = some '/' := rfl

theorem formed_fileWithHost (h : fileWithHost text = .ok url) : url.Formed := by
  obtain ⟨⟨host, behind⟩, hhost, h⟩ := exists_of_bind_ok h
  obtain ⟨rest, hurl⟩ : ∃ rest, url = fileUrl
      (if (UrlPath.append .file ['/'] (!host.isEmpty) rest).2 then host else "")
      (UrlPath.append .file ['/'] (!host.isEmpty) rest).1 := by
    injection h with h
    exact ⟨_, h.symm⟩
  rw [hurl]
  refine formed_fileUrl ?_ (UrlPath.free_append_path (by decide)) (head?_append_file ..)
  split
  · exact isHost_fileHost hhost
  · exact isHost_empty

theorem Formed.isHost_authority (h : base.Formed) : IsHost (base.authority.elim "" (·.host)) := by
  cases hauthority : base.authority with
  | none => exact isHost_empty
  | some a => exact ⟨(h.authority a hauthority).host, (h.authority a hauthority).port⟩

theorem formed_file {base : Option Url} (hbase : ∀ url ∈ base, url.Formed ∧ url.scheme = "file")
    (h : file base front = .ok url) : url.Formed := by
  have hplain : ∀ {host : String} {path : List Char} {hasHost : Bool} {text : List Char}, IsHost host →
      Free ['?', '#'] path → (fileUrl host (UrlPath.append .file path hasHost text).1).Formed :=
    fun hhost hpath =>
      formed_fileUrl hhost (UrlPath.free_append_path hpath) (head?_append_file ..)
  have hserved : ∀ base' ∈ base, base'.authority ≠ none := by
    intro base' hmem hnone
    have hkind := (hbase base' hmem).1.kind_of_none hnone
    rw [(hbase base' hmem).2] at hkind
    cases hkind
  rw [file.eq_def] at h
  split at h
  · cases h
    exact (hbase _ rfl).1.withoutParts
  · split at h
    · split at h
      · exact formed_fileWithHost h
      · injection h with h
        rw [← h]
        cases base with
        | none => exact hplain isHost_empty free_nil
        | some base' =>
          have hbase' := (hbase base' rfl).1
          dsimp only
          split
          · exact hplain isHost_empty free_nil
          · split
            · refine hplain isHost_empty (free_cons.mpr ⟨by decide, hbase'.path.subset ?_⟩)
              exact fun c mem => List.mem_of_mem_drop ((List.takeWhile_prefix _).subset mem)
            · exact hplain hbase'.isHost_authority free_nil
    · split at h
      · next base' =>
        split at h
        · cases h
          exact hplain isHost_empty (by decide)
        · cases h
          refine (hbase base' rfl).1.withPath (UrlPath.free_append_path ?_) (head?_append_file ..)
            fun hnone => absurd hnone (hserved base' rfl)
          exact (hbase base' rfl).1.path.subset (UrlPath.pop_front ..).subset
      · cases h
        exact hplain isHost_empty (by decide)
  · cases h
    exact formed_fileUrl isHost_empty (by decide) rfl

/-! ### Whole references -/

theorem head?_encode (unsafeChar : Char → Bool) (c : Char) (text : List Char) :
    (Percent.encode unsafeChar (c :: text)).head? = some c ∨
      (Percent.encode unsafeChar (c :: text)).head? = some '%' := by
  have hbytes : ∃ byte rest, Text.Utf8.encodeChar c = byte :: rest := by
    rw [Text.Utf8.encodeChar]
    split
    · exact ⟨_, _, rfl⟩
    · split
      · exact ⟨_, _, rfl⟩
      · split <;> exact ⟨_, _, rfl⟩
  obtain ⟨byte, rest, hbyte⟩ := hbytes
  rw [Percent.encode, List.flatMap_cons, Percent.encodeChar]
  split
  · rw [hbyte, List.flatMap_cons]
    exact .inr rfl
  · exact .inl rfl

theorem isDotted_of_head? {path : List Char} (h : path.head? ≠ some '/') : isDotted path = false := by
  cases path with
  | nil => rfl
  | cons c rest =>
    have hc : '/' ≠ c := fun heq => h (by rw [heq]; rfl)
    simp [isDotted, List.isPrefixOf, hc]

theorem formed_ofOtherScheme (hscheme : Free [':', '/', '?', '#'] scheme.toList)
    (hkind : schemeKind scheme = .other) (hfront : Free ['?', '#'] front)
    (h : ofOtherScheme scheme last front = .ok url) : url.Formed := by
  have hurl : ∀ {path : List Char}, Free ['?', '#'] path → isDotted path = false →
      ({ scheme, authority := none, path := String.ofList path
         query := none, fragment := none } : Url).Formed := by
    intro path hfree hundotted
    refine ⟨hscheme, by simp, ?_, by simp, ?_, by simp, ?_⟩
    · rw [String.toList_ofList]
      exact hfree
    · rw [String.toList_ofList]
      exact fun _ => hundotted
    · intro hspecial
      rw [hkind] at hspecial
      cases hspecial
  rw [ofOtherScheme.eq_def] at h
  dsimp only at h
  split at h
  · exact formed_withAuthority hscheme h
  · injection h with h
    rw [← h]
    exact hurl (UrlPath.free_append_path (by decide))
      ((UrlPath.rooted_append .other _ _ rfl rfl).2 (by decide) rfl)
  · next hslash =>
    injection h with h
    rw [← h]
    have hencoded : Free ['?', '#'] (Percent.encode Percent.isControl front) :=
      Percent.free_encode (by decide) fun c mem hmark => absurd hmark (hfront c mem)
    refine hurl hencoded (isDotted_of_head? fun hhead => ?_)
    -- An opaque path does not start with a slash, and no character is encoded to one.
    cases front with
    | nil => cases hhead
    | cons c rest =>
      rcases head?_encode Percent.isControl c rest with hfirst | hfirst
      · rw [hhead, Option.some.injEq] at hfirst
        exact hslash rest (by rw [← hfirst])
      · rw [hhead] at hfirst
        exact absurd hfirst (by decide)

theorem formed_ofSpecialScheme {base : Option Url} (hbase : ∀ url ∈ base, url.Formed)
    (hscheme : Free [':', '/', '?', '#'] scheme.toList) (hkind : schemeKind scheme = .special)
    (h : ofSpecialScheme base scheme last front = .ok url) : url.Formed := by
  rw [ofSpecialScheme.eq_def] at h
  dsimp only at h
  split at h
  · next base' =>
    split at h
    · next hsame =>
      have hserved := (hbase base' rfl).served
      rw [hsame.2, hkind] at hserved
      have hisOpaque : base'.isOpaque = false := by
        rw [isOpaque, Option.isNone_eq_false_iff.mpr (hserved rfl)]
        rfl
      exact formed_relative (hbase base' rfl) hisOpaque h
    · exact formed_withAuthority hscheme h
  · exact formed_withAuthority hscheme h

theorem formed_ofFront {base : Option Url} {ref : Reference} (hbase : ∀ url ∈ base, url.Formed)
    (hfront : Free ['?', '#'] ref.front) (h : ofFront base ref = .ok url) : url.Formed := by
  rw [ofFront.eq_def] at h
  split at h
  · next scheme rest hparts =>
    split at h
    · refine formed_file (fun url mem => ?_) h
      obtain ⟨mem', hfile⟩ := Option.filter_eq_some_iff.mp mem
      exact ⟨hbase url mem', beq_iff_eq.mp hfile⟩
    · next hkind => exact formed_ofSpecialScheme hbase (free_scheme hparts) hkind h
    · next hkind =>
      exact formed_ofOtherScheme (free_scheme hparts) hkind (hfront.subset (subset_scheme hparts)) h
  · split at h
    · cases h
    · next base' =>
      have hbase' := hbase base' rfl
      split at h
      · cases h
        exact hbase'.withoutParts
      · split at h
        · cases h
        · next hisOpaque =>
          split at h
          · next hfile =>
            refine formed_file (fun url mem => ?_) h
            cases mem
            exact ⟨hbase', beq_iff_eq.mp hfile⟩
          · exact formed_relative hbase' (Bool.not_eq_true _ ▸ hisOpaque) h

theorem formed_resolve {base : Option Url} {text : String} (hbase : ∀ url ∈ base, url.Formed)
    (h : resolve base text = .ok url) : url.Formed := by
  obtain ⟨front, hfront, h⟩ := exists_of_bind_ok h
  have hformed := formed_ofFront hbase (free_front text) hfront
  injection h with h
  rw [← h]
  refine ⟨hformed.scheme, hformed.authority, hformed.path, hformed.rooted, hformed.undotted, ?_,
    hformed.served⟩
  intro query hquery
  cases hreference : (Reference.ofText text).query with
  | none =>
    simp only [hreference, Option.elim_none] at hquery
    exact hformed.query query hquery
  | some query' =>
    simp only [hreference, Option.elim_some, Option.mem_def, Option.some.injEq] at hquery
    rw [← hquery, String.toList_ofList]
    have hmarks : ∀ mark ∈ ['#'],
        Percent.inQuery mark = true ∧ Percent.inSpecialQuery mark = true :=
      forall_marks (by decide)
    refine Percent.free_encode (by decide) fun c _ hmark => ?_
    split
    · exact (hmarks c hmark).2
    · exact (hmarks c hmark).1

theorem formed_ofFilePath (path : String) : (ofFilePath path).Formed := by
  rw [ofFilePath]
  refine formed_fileUrl isHost_empty ?_ ?_
  · split
    · decide
    · intro c mem hmark
      obtain ⟨segment, -, hc⟩ := List.mem_flatMap.mp mem
      have hmarks : ∀ mark ∈ ['?', '#'], Percent.inSegment mark = true :=
        forall_marks (by decide)
      have hsegment : Free ['?', '#'] ('/' :: Percent.encode Percent.inSegment segment) :=
        free_cons.mpr ⟨by decide, Percent.free_encode (by decide) fun c _ hmark => hmarks c hmark⟩
      exact hsegment c hc hmark
  · split
    · rfl
    · next hne =>
      cases hsegments : (Text.pieces '/' path.toList).filter (· ≠ []) with
      | nil => exact absurd (by rw [hsegments]; rfl) hne
      | cons first rest => rfl

theorem Formed.withoutFragment (h : url.Formed) : url.withoutFragment.Formed := by
  have hdrop : (url.path.toList.reverse.dropWhile (· == ' ')).reverse <+: url.path.toList := by
    have hsuffix := (List.dropWhile_suffix (· == ' ') (l := url.path.toList.reverse)).reverse
    rwa [List.reverse_reverse] at hsuffix
  cases hisOpaque : url.isOpaque && url.query.isNone with
  | false =>
    rw [Url.withoutFragment, hisOpaque]
    exact h.withoutParts
  | true =>
    rw [Url.withoutFragment, hisOpaque]
    have hnone : url.authority = none :=
      Option.isNone_iff_eq_none.mp (Bool.and_eq_true_iff.mp (Bool.and_eq_true_iff.mp hisOpaque).1).1
    refine ⟨h.scheme, h.authority, ?_, fun hsome => ?_, fun _ => ?_, h.query, h.served⟩
    · rw [if_pos rfl, String.toList_ofList]
      exact h.path.subset hdrop.subset
    · rw [hnone] at hsome
      cases hsome
    · rw [if_pos rfl, String.toList_ofList]
      exact UrlPath.isDotted_of_front hdrop (h.undotted hnone)

/-- What the parser reads is well formed. -/
theorem formed_parse {text : String} (h : parse text = .ok url) : url.Formed :=
  formed_resolve (by simp) h

theorem Formed.join (hbase : base.Formed) {reference : String} (h : base.join reference = .ok url) :
    url.Formed := by
  refine formed_resolve (fun url mem => ?_) h
  cases mem
  exact hbase

/-! ## Places in a document -/

section

variable {front : Url} {reference : String} {ref : Reference}

theorem Formed.ordinary_of_opaque (h : base.Formed) (hisOpaque : base.isOpaque = true) :
    (schemeKind base.scheme).isSpecial = false := by
  by_contra hspecial
  have hserved := h.served (eq_true_of_ne_false hspecial)
  rw [isOpaque, Option.isNone_eq_false_iff.mpr hserved] at hisOpaque
  cases hisOpaque

theorem ofFront_of_scheme (h : base.Formed) (hisOpaque : base.isOpaque = true) {scheme : String}
    {rest : List Char} (hfront : scheme? ref.front = some (scheme, rest)) :
    ofFront (some base.withoutFragment) ref = ofFront (some base) ref := by
  have hordinary := h.ordinary_of_opaque hisOpaque
  have hscheme : base.withoutFragment.scheme = base.scheme := rfl
  simp only [ofFront, hfront]
  cases hkind : schemeKind scheme with
  | file =>
    have hfile : (base.scheme == "file") = false := by
      by_contra heq
      rw [eq_of_beq (eq_true_of_ne_false heq)] at hordinary
      cases hordinary
    simp only [Option.filter_some, hscheme, hfile, Bool.false_eq_true, if_false]
  | special =>
    have hother : base.scheme ≠ scheme := by
      rintro rfl
      rw [hkind] at hordinary
      cases hordinary
    simp only [ofSpecialScheme, hscheme, hother, and_false, if_false]
  | other => rfl

theorem ofFront_without_scheme (hisOpaque : base.isOpaque = true) (hnone : scheme? ref.front = none)
    (h : ofFront (some base) ref = .ok front) :
    ref.query = none ∧ front = { base with fragment := none } ∧
      ofFront (some base.withoutFragment) ref = .ok base.withoutFragment := by
  simp only [ofFront, hnone, hisOpaque, if_true] at h ⊢
  split at h
  · next hlocal =>
    cases h
    rw [if_pos hlocal]
    exact ⟨Option.isNone_iff_eq_none.mp (Bool.and_eq_true_iff.mp (Bool.and_eq_true_iff.mp hlocal).1).2,
      rfl, rfl⟩
  · cases h

/-- From a place in a document and from the document itself, a reference joins to places in one
document. -/
theorem Formed.join_withoutFragment (hbase : base.Formed) (h : base.join reference = .ok url) :
    ∃ url', base.withoutFragment.join reference = .ok url' ∧
      url'.withoutFragment = url.withoutFragment := by
  cases hisOpaque : base.isOpaque && base.query.isNone with
  | false =>
    have hdocument : base.withoutFragment = { base with fragment := none } := by
      rw [Url.withoutFragment, hisOpaque]
      rfl
    exact ⟨url, by rw [hdocument, join_fragment, h], rfl⟩
  | true =>
    have hopaque := (Bool.and_eq_true_iff.mp hisOpaque).1
    obtain ⟨front, hfront, hurl⟩ := exists_of_bind_ok h
    cases hscheme : scheme? (Reference.ofText reference).front with
    | some found =>
      refine ⟨url, ?_, rfl⟩
      rw [Url.join, resolve, ofFront_of_scheme hbase hopaque hscheme, hfront]
      exact hurl
    | none =>
      obtain ⟨hquery, rfl, hfront'⟩ := ofFront_without_scheme hopaque hscheme hfront
      rw [hquery] at hurl
      cases hurl
      rw [Url.join, resolve, hfront']
      simp only [hquery]
      exact ⟨_, rfl, withoutFragment_idem base⟩

end

end Url

end SchemaShape
