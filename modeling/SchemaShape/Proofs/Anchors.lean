import SchemaShape.Proofs.Locations

/-! # Anchors

A document with one identifier, which is an anchor, claims one key. The claim has the fragment as the URL
prints it, and the lookups of a reference have it decoded: the anchor is found if there are no escapes in
the fragment, and otherwise not.
-/

namespace SchemaShape
set_option autoImplicit false

theorem Url.text_within (url : Url) (fragment : String) :
    ({ url.withoutFragment with fragment := some fragment } : Url).text =
      url.withoutFragment.text ++ "#" ++ fragment := by
  have hkey : url.withoutFragment.text = url.withoutFragment.documentText := String.append_empty ..
  rw [hkey, String.append_assoc]
  rfl

theorem Url.ascii_fragmentOf {reference fragment : String} (h : fragmentOf reference = some fragment) :
    ∀ c ∈ fragment.toList, c.toNat < 0x80 := by
  obtain ⟨text, -, rfl⟩ := Option.map_eq_some_iff.mp h
  rw [String.toList_ofList]
  exact Percent.ascii_encode

namespace Claim

/-- All identifiers in a value are this one, which joins to a place in the document of its base. -/
structure Anchored (draft : Draft) (id fragment : String) (value : Json) : Prop where
  isLocal : Url.isLocal id = true
  fragmentOf : Url.fragmentOf id = some fragment
  nonempty : fragment ≠ ""
  only : ∀ (pointer : Pointer) {members : Members} {other : String},
    value.at? pointer = some (.object members) → draft.idOf? members = some other → other = id

section

variable {draft : Draft} {id fragment : String} {base inner : Url} {value part : Json}
variable {members : Members} {claimed : Option String} {pointer : Pointer}

theorem Anchored.child (h : Anchored draft id fragment value) {token : String}
    (hpart : value.child? token = some part) : Anchored draft id fragment part where
  isLocal := h.isLocal
  fragmentOf := h.fragmentOf
  nonempty := h.nonempty
  only pointer _ _ hat := h.only (token :: pointer) (by rw [Json.at?, hpart]; exact hat)

theorem Anchored.inner_eq (h : Anchored draft id fragment (.object members))
    (hreads : Reads draft base members inner claimed) : inner = base := by
  cases hreads with
  | anonymous | unjoined | anchor => rfl
  | @url other joined hid hjoin hplain =>
    obtain rfl := h.only [] rfl hid
    have hempty := hplain h.isLocal fragment ((Url.fragment_of_join hjoin).trans h.fragmentOf)
    exact absurd hempty h.nonempty

theorem Anchored.searched_base (h : Anchored draft id fragment value) {base' : Url}
    (hsearched : Searched draft base value pointer base' part) : base' = base := by
  induction hsearched with
  | here => rfl
  | member hreads hget _ _ ih =>
    obtain rfl := h.inner_eq hreads
    exact ih (h.child hget)
  | item hget _ ih => exact ih (h.child ((Json.child?_position _ _).trans hget))

theorem Anchored.searched (h : Anchored draft id fragment value) (hat : value.at? pointer = some part)
    (hfree : ∀ token ∈ pointer, token ∉ dataKeywords) :
    Searched draft base value pointer base part := by
  induction pointer generalizing value with
  | nil =>
    cases hat
    exact .here base _
  | cons token rest ih =>
    obtain ⟨child, hchild, hrest⟩ := Option.bind_eq_some_iff.mp hat
    have hsearched := ih (h.child hchild) hrest fun other mem => hfree other (List.mem_cons_of_mem _ mem)
    cases value with
    | object members =>
      obtain ⟨inner, claimed, hreads⟩ := exists_reads draft base members
      obtain rfl := h.inner_eq hreads
      exact .member hreads hchild (hfree token (List.mem_cons_self ..)) hsearched
    | array items =>
      obtain ⟨position, rfl, hitem⟩ := Json.exists_position hchild
      exact .item hitem hsearched
    | _ => cases hchild

end

end Claim

namespace Document

variable {document : Document} {pointer : Pointer} {node : Members} {id fragment : String} {url : Url}

/-- A document whose only identifier is an anchor, at a node that is not within data. -/
structure HasAnchor (document : Document) (id : String) (pointer : Pointer) (node : Members) : Prop where
  distinct : document.schema.everyObject Members.distinct = true
  isLocal : Url.isLocal id = true
  at?_eq : document.schema.at? pointer = some (.object node)
  free : ∀ token ∈ pointer, token ∉ Claim.dataKeywords
  idOf?_eq : (Draft.detectIn document.schema).idOf? node = some id
  only : ∀ other members, document.schema.at? other = some (.object members) →
    (Draft.detectIn document.schema).idOf? members ≠ none → other = pointer

theorem HasAnchor.anchored (h : document.HasAnchor id pointer node)
    (hfragment : Url.fragmentOf id = some fragment) (hnonempty : fragment ≠ "") :
    Claim.Anchored (Draft.detectIn document.schema) id fragment document.schema where
  isLocal := h.isLocal
  fragmentOf := hfragment
  nonempty := hnonempty
  only other members _ hat hid := by
    obtain rfl := h.only other members hat (hid ▸ nofun)
    cases h.at?_eq.symm.trans hat
    exact Option.some.inj (hid.symm.trans h.idOf?_eq)

/-- The anchor's key is claimed for its node, and no other key is claimed. -/
theorem HasAnchor.claims_iff (h : document.HasAnchor id pointer node)
    (hfragment : Url.fragmentOf id = some fragment) (hnonempty : fragment ≠ "") {key : String}
    {other : Pointer} {members : Members} :
    document.Claims key other members ↔
      key = document.key ++ "#" ++ fragment ∧ other = pointer ∧ members = node := by
  have hanchored := h.anchored hfragment hnonempty
  constructor
  · rintro ⟨base, inner, hsearched, hreads⟩
    have hat := hsearched.at?_eq
    obtain rfl := hanchored.searched_base hsearched
    cases hreads with
    | @anchor other _ joined hid hjoin =>
      obtain rfl := h.only _ members hat (hid ▸ nofun)
      cases h.at?_eq.symm.trans hat
      cases h.idOf?_eq.symm.trans hid
      rw [Url.join_local h.isLocal, hfragment] at hjoin
      cases hjoin
      exact ⟨Url.text_within document.url fragment, rfl, rfl⟩
    | @url other joined hid hjoin hplain =>
      obtain rfl := hanchored.only _ hat hid
      have hempty := hplain h.isLocal fragment ((Url.fragment_of_join hjoin).trans hfragment)
      exact absurd hempty hnonempty
  · rintro ⟨rfl, rfl, rfl⟩
    refine ⟨document.url.withoutFragment, document.url.withoutFragment,
      hanchored.searched h.at?_eq h.free, ?_⟩
    have hjoin : document.url.withoutFragment.join id =
        .ok { document.url.withoutFragment with fragment := some fragment } := by
      rw [Url.join_local h.isLocal, hfragment]
    rw [key, ← Url.text_within]
    exact .anchor h.idOf?_eq hjoin h.isLocal rfl hnonempty

theorem key_ne_place (document : Document) (anchor : String) :
    document.key ++ "#" ++ anchor ≠ document.key := by
  intro heq
  have hlength := congrArg String.length heq
  rw [String.length_append, String.length_append] at hlength
  have hmark : "#".length = 1 := rfl
  omega

theorem HasAnchor.locate?_eq (h : document.HasAnchor id pointer node)
    (hfragment : Url.fragmentOf id = some fragment) (hnonempty : fragment ≠ "") (anchor : String) :
    (Registry.empty.insert document).locate? (document.key ++ "#" ++ anchor) =
      if anchor = fragment then some (document.stored, pointer) else none := by
  rw [Registry.locate?_alone, denoted?, if_neg (document.key_ne_place anchor)]
  split
  · next heq =>
    subst heq
    have hclaims := (h.claims_iff hfragment hnonempty).mpr ⟨rfl, rfl, rfl⟩
    have hclaimed : document.claimed? (document.key ++ "#" ++ anchor) = some pointer :=
      (claimed?_eq_some h.distinct).mpr ⟨node, hclaims, fun other members hother =>
        .inl ((h.claims_iff hfragment hnonempty).mp hother).2.1⟩
    rw [hclaimed]
    rfl
  · next hne =>
    have hclaimed : document.claimed? (document.key ++ "#" ++ anchor) = none := by
      refine (claimed?_eq_none h.distinct).mpr fun other members hother => hne ?_
      exact (String.append_right_inj _).mp ((h.claims_iff hfragment hnonempty).mp hother).1
    rw [hclaimed]
    rfl

/-- A resolver that knows the document alone, and starts there. -/
def resolver (document : Document) : Resolver :=
  { registry := Registry.empty.insert document, base := document.url }

section

variable {c : Char} {rest : List Char}

theorem HasAnchor.documentOf_eq (h : document.HasAnchor id pointer node)
    (hjoin : document.url.join id = .ok url) : document.resolver.documentOf url = document.key := by
  rw [Url.join_local h.isLocal] at hjoin
  cases hjoin
  exact Resolver.documentOf_plain rfl _

/-- An anchor is located by what its fragment reads as, but claimed as it is printed. -/
theorem HasAnchor.locateAnchor?_eq (h : document.HasAnchor id pointer node)
    (hjoin : document.url.join id = .ok url) (hfragment : url.fragment = some fragment)
    (htext : fragment.toList = c :: rest) (hslash : c ≠ '/') {anchor : List Char}
    (hdecode : Percent.decode (c :: rest) = .ok anchor) :
    document.resolver.locateAnchor? url =
      if anchor = fragment.toList then some (document.url.withoutFragment, pointer) else none := by
  have hnamed : Url.fragmentOf id = some fragment := (Url.fragment_of_join hjoin).symm.trans hfragment
  have hnonempty : fragment ≠ "" := by
    rintro rfl
    cases htext
  have hwritten : (url.fragment.getD "").toList = c :: rest := by rw [hfragment, Option.getD_some, htext]
  have hlocate : document.resolver.registry.locate? (document.key ++ "#" ++ String.ofList anchor) = _ :=
    h.locate?_eq hnamed hnonempty _
  rw [Resolver.locateAnchor?_of_fragment hwritten hslash hdecode, h.documentOf_eq hjoin, hlocate]
  by_cases heq : anchor = fragment.toList
  · rw [if_pos heq, if_pos (by rw [heq, String.ofList_toList])]
    rfl
  · rw [if_neg heq, if_neg fun hofList => heq (by rw [← hofList, String.toList_ofList])]
    rfl

theorem HasAnchor.resolve_eq (h : document.HasAnchor id pointer node)
    (hjoin : document.url.join id = .ok url) (hfragment : url.fragment = some fragment)
    (htext : fragment.toList = c :: rest) (hslash : c ≠ '/')
    (hdecode : Percent.decode (c :: rest) = .ok (c :: rest)) :
    document.resolver.resolve id = .ok (url, .object node) := by
  have hnamed : Url.fragmentOf id = some fragment := (Url.fragment_of_join hjoin).symm.trans hfragment
  have hnonempty : fragment ≠ "" := by
    rintro rfl
    cases htext
  have hread : Percent.decode (url.fragment.getD "").toList = .ok (c :: rest) := by
    rw [hfragment, Option.getD_some, htext, hdecode]
  have hroot : document.resolver.registry.get? (document.resolver.documentOf url) =
      some document.schema := by
    rw [h.documentOf_eq hjoin, resolver, Registry.get?, Registry.locate?_alone, denoted?, if_pos rfl]
    rfl
  have hnode : document.resolver.registry.get? (document.key ++ "#" ++ fragment) =
      some (.object node) := by
    rw [resolver, Registry.get?, h.locate?_eq hnamed hnonempty, if_pos rfl]
    exact h.at?_eq
  have hwhole : String.ofList (c :: rest) = fragment := by rw [← htext, String.ofList_toList]
  refine Resolver.resolve_of_target hjoin (Resolver.target_of_fragment hread hroot ?_)
  rw [h.documentOf_eq hjoin, Resolver.fragmentTarget?, String.toList_ofList]
  split
  · next heq => cases heq
  · next heq =>
    cases heq
    exact absurd rfl hslash
  · rw [hwhole, hnode]

end

/-- In a document with one anchor and no other identifier the anchor resolves to its node, and is located
there, exactly if the fragment is printed without escapes. -/
theorem HasAnchor.resolves_iff (h : document.HasAnchor id pointer node)
    (hjoin : document.url.join id = .ok url) (hfragment : url.fragment = some fragment)
    (hnonempty : fragment ≠ "") (hslash : fragment.toList.head? ≠ some '/') :
    (document.resolver.resolve id = .ok (url, .object node) ∧
        document.resolver.locateAnchor? url = some (document.url.withoutFragment, pointer)) ↔
      Percent.hasEscape fragment.toList = false := by
  have hnamed : Url.fragmentOf id = some fragment := (Url.fragment_of_join hjoin).symm.trans hfragment
  obtain ⟨c, rest, htext⟩ := List.exists_cons_of_ne_nil fun hnil : fragment.toList = [] =>
    hnonempty (String.toList_inj.mp hnil)
  have hchar : c ≠ '/' := fun heq => hslash (by rw [htext, heq]; rfl)
  rw [← Percent.decode_eq_self (Url.ascii_fragmentOf hnamed), htext]
  constructor
  · rintro ⟨hresolve, hlocated⟩
    obtain ⟨-, htarget⟩ := Resolver.resolve_ok hresolve
    obtain ⟨anchor, -, hdecode, -⟩ := Resolver.target_ok htarget
    rw [hfragment, Option.getD_some, htext] at hdecode
    have hlocate := h.locateAnchor?_eq hjoin hfragment htext hchar hdecode
    rw [hdecode, ← htext]
    split at hlocate
    · next heq => rw [heq]
    · cases hlocate.symm.trans hlocated
  · intro hdecode
    have hlocate := h.locateAnchor?_eq hjoin hfragment htext hchar hdecode
    rw [if_pos htext.symm] at hlocate
    exact ⟨h.resolve_eq hjoin hfragment htext hchar hdecode, hlocate⟩

/-- A string type under an anchor. -/
def anchoredString (id : String) : Members := [("$id", .string id), ("type", .string "string")]

def stringFile (id : String) : Document :=
  ⟨defaultUrl, .object [("definitions", .object [("x", .object (anchoredString id))])]⟩

theorem at?_singleton {key : String} {value found : Json}
    (h : (Json.object [(key, value)]).at? pointer = some found) :
    pointer = [] ∧ found = .object [(key, value)] ∨
      ∃ rest, pointer = key :: rest ∧ value.at? rest = some found := by
  cases pointer with
  | nil =>
    cases h
    exact .inl ⟨rfl, rfl⟩
  | cons token rest =>
    obtain ⟨part, hpart, hrest⟩ := Option.bind_eq_some_iff.mp h
    cases List.mem_singleton.mp (Members.mem_of_get? hpart)
    exact .inr ⟨rest, rfl, hrest⟩

theorem stringFile_hasAnchor (id : String) (hlocal : Url.isLocal id = true) :
    (stringFile id).HasAnchor id ["definitions", "x"] (anchoredString id) where
  distinct := rfl
  isLocal := hlocal
  at?_eq := rfl
  free := by decide
  idOf?_eq := rfl
  only other members hat hid := by
    obtain ⟨-, heq⟩ | ⟨inside, rfl, hinside⟩ := at?_singleton hat
    · cases heq
      exact absurd rfl hid
    obtain ⟨-, heq⟩ | ⟨rest, rfl, hrest⟩ := at?_singleton hinside
    · cases heq
      exact absurd rfl hid
    rcases rest with _ | ⟨token, rest⟩
    · rfl
    -- Behind the anchor there are only strings.
    obtain ⟨part, hpart, hfound⟩ := Option.bind_eq_some_iff.mp hrest
    have hstring : ∃ text, part = .string text := by
      rcases List.mem_cons.mp (Members.mem_of_get? hpart) with heq | mem
      · cases heq
        exact ⟨_, rfl⟩
      · cases List.mem_singleton.mp mem
        exact ⟨_, rfl⟩
    obtain ⟨text, rfl⟩ := hstring
    cases rest <;> cases hfound

theorem HasAnchor.resolves_plain :
    let url := { defaultUrl with fragment := some "item" }
    let r := (stringFile "#item").resolver
    (stringFile "#item").HasAnchor "#item" ["definitions", "x"] (anchoredString "#item") ∧
      defaultUrl.join "#item" = .ok url ∧ Percent.hasEscape "item".toList = false ∧
      r.resolve "#item" = .ok (url, .object (anchoredString "#item")) ∧
      r.locateAnchor? url = some (defaultUrl, ["definitions", "x"]) := by
  intro url r
  have hanchor := stringFile_hasAnchor "#item" (by decide +kernel)
  have hjoin : defaultUrl.join "#item" = .ok url := by decide +kernel
  have hplain : Percent.hasEscape "item".toList = false := by decide +kernel
  have hfound := (HasAnchor.resolves_iff hanchor hjoin rfl (by decide) (by decide)).mpr hplain
  exact ⟨hanchor, hjoin, hplain, hfound⟩

/-- A blank is printed as an escape, and an anchor with a blank in its name is not found. -/
theorem HasAnchor.resolves_no_blank :
    let url := { defaultUrl with fragment := some "a%20b" }
    let r := (stringFile "#a b").resolver
    (stringFile "#a b").HasAnchor "#a b" ["definitions", "x"] (anchoredString "#a b") ∧
      defaultUrl.join "#a b" = .ok url ∧ (r.resolve "#a b").toOption = none ∧
      r.locateAnchor? url = none := by
  intro url r
  have hanchor := stringFile_hasAnchor "#a b" (by decide +kernel)
  exact ⟨hanchor, by decide +kernel, by decide +kernel, by decide +kernel⟩

end Document

end SchemaShape
