import SchemaShape.Proofs.Narrowing.Visits

/-! # References from a narrowed schema

A node of a document is compiled in place, where the identifiers around it have been entered, or by
itself, where only the identifier that narrowing gave it has been entered and an alias leads back to the
document.

References that join to the same URL lead to the same from both, unless the alias gets in the way, and so
do pointers into documents with one root. Of the others this holds of those that start with `#`, as long
as the identifiers on the way to the node keep to the document.
-/

namespace SchemaShape
set_option autoImplicit false

open Compile Narrowing

/-! ## Absolute references -/

namespace Url

def isAbsolute (reference : String) : Bool :=
  match scheme? (Reference.ofText reference).front with
  | some (_, first :: second :: _) => first == '/' && second == '/'
  | _ => false

theorem file_absolute (base : Option Url) (rest : List Char) :
    file base ('/' :: '/' :: rest) = fileWithHost rest := by
  cases base <;> rfl

theorem ofSpecialScheme_absolute (base : Url) (scheme : String) (last : Bool) (rest : List Char) :
    ofSpecialScheme (some base) scheme last ('/' :: '/' :: rest) =
      withAuthority scheme last (rest.dropWhile isSlash) := by
  have hbehind : ('/' :: '/' :: rest).dropWhile isSlash = rest.dropWhile isSlash := rfl
  have hlength := (List.dropWhile_sublist isSlash (l := rest)).length_le
  rw [ofSpecialScheme, hbehind]
  exact if_neg fun h => absurd h.1 (Nat.not_lt.mpr (Nat.add_le_add_right hlength 2))

theorem join_absolute {reference : String} (h : isAbsolute reference = true) (base base' : Url) :
    base.join reference = base'.join reference := by
  have hfront : ofFront (some base) (.ofText reference) = ofFront (some base') (.ofText reference) := by
    rw [isAbsolute] at h
    split at h
    · next scheme first second rest hscheme =>
      rw [Bool.and_eq_true, beq_iff_eq, beq_iff_eq] at h
      obtain ⟨rfl, rfl⟩ := h
      simp only [ofFront, hscheme, file_absolute, ofSpecialScheme_absolute]
    · cases h
  rw [join, resolve, join, resolve]
  simp only [hfront]

end Url

/-! ## The two scopes -/

theorem SameDocument.agree {registry : Registry} {scope scope' : Url} {r r' : Resolver}
    {reference : String} (h : SameDocument registry scope scope' r r')
    (hlocal : Url.isLocal reference = true) : r.Agree r' reference := by
  refine Resolver.agree_of_document (h.registry_eq.2.trans h.registry_eq.1.symm)
    (resolve_local h.scope_eq.1 hlocal) (resolve_local h.scope_eq.2 hlocal) rfl ?_
  exact h.document_eq.1.trans h.document_eq.2.symm

section

variable {registry : Registry} {base scope : Url} {root node narrowed : Members} {path : List String}
variable {c place : Compiler}

theorem Visits.root_scope {narrowedDraft : Draft} (h : Visits c root path place node)
    (hc : c.resolver = { registry, base })
    (hkeeps : keepsDocument c.draft narrowedDraft root path = true) :
    ∃ scope, (narrowedDraft.idOf? root).elim (.ok base) base.join = .ok scope ∧
      (ownId? root = none → scope = base) ∧
      ∃ fragment, place.resolver.scope = { scope with fragment } := by
  rw [keepsDocument, Bool.and_eq_true, List.all_eq_true] at hkeeps
  obtain ⟨inside, hinside, hstays⟩ := h.stays hkeeps.1
  obtain ⟨fragment, hscope⟩ := hstays.scope_eq
  cases hown : ownId? root with
  | none =>
    have hroot := hkeeps.2
    rw [hown, Bool.and_eq_true, Option.isNone_iff_eq_none, Option.isNone_iff_eq_none] at hroot
    have hplace : inside = c := Node.inside_bare hroot.1 hinside
    refine ⟨base, ?_, fun _ => rfl, fragment, ?_⟩
    · rw [hroot.2]
      rfl
    · rw [hscope, hplace, hc]
      rfl
  | some id =>
    rw [Node.Inside, idOf?_of_own c.draft hown] at hinside
    obtain ⟨resolver, henter, rfl⟩ := hinside
    obtain ⟨scope, hjoin, rfl⟩ := Resolver.enterId_ok henter
    rw [hc] at hjoin
    refine ⟨scope, ?_, fun hnone => absurd hnone (Option.some_ne_none id), fragment, hscope⟩
    rw [idOf?_of_own narrowedDraft hown]
    exact hjoin

variable (hc : c.resolver = Session.aliasNarrowed c.draft (.object root) (.object narrowed)
  { registry, base })
variable (hinside : Node.Inside narrowed c place)
variable (hscope : (c.draft.idOf? root).elim (.ok base) base.join = .ok scope)

include hc hinside hscope

/-- Lookups from a narrowed schema land in the document of the root's scope. -/
theorem document_narrowed (hplain : c.draft.idOf? narrowed = none → scope = base) :
    ∃ scope' fragment, place.resolver.scope = { scope' with fragment } ∧
      place.resolver.documentOf scope' = scope.withoutFragment.text := by
  cases hid : c.draft.idOf? narrowed with
  | none =>
    rw [Node.inside_bare hid hinside, hc, Session.aliasNarrowed_none hid, hplain hid]
    exact ⟨base, base.fragment, rfl, Resolver.documentOf_plain rfl base⟩
  | some id =>
    rw [Node.Inside, hid] at hinside
    obtain ⟨resolver, henter, rfl⟩ := hinside
    obtain ⟨scope', hjoin, rfl⟩ := Resolver.enterId_ok henter
    rw [hc, (Session.aliasNarrowed_keeps ..).2] at hjoin
    refine ⟨scope', scope'.fragment, rfl, ?_⟩
    have halias := Session.aliasNarrowed_some hid hjoin hscope
    show c.resolver.documentOf scope' = _
    rw [hc, halias]
    exact Resolver.documentOf_addAlias rfl scope' scope

/-- Where both identifiers keep to the document, there is no alias. -/
theorem plain_narrowed (hbase : scope = base)
    (hlocal : identifiesLocally c.draft narrowed = true) :
    place.resolver.aliases = [] ∧ ∃ fragment, place.resolver.scope = { base with fragment } := by
  cases hid : c.draft.idOf? narrowed with
  | none =>
    rw [Node.inside_bare hid hinside, hc, Session.aliasNarrowed_none hid]
    exact ⟨rfl, base.fragment, rfl⟩
  | some id =>
    rw [Node.Inside, hid] at hinside
    obtain ⟨resolver, henter, rfl⟩ := hinside
    obtain ⟨scope', hjoin, rfl⟩ := Resolver.enterId_ok henter
    rw [hc, (Session.aliasNarrowed_keeps ..).2] at hjoin
    have halias := Session.aliasNarrowed_some hid hjoin hscope
    have hjoin' : base.join id = .ok scope' := hjoin
    rw [identifiesLocally, hid] at hlocal
    rw [Url.join_local hlocal] at hjoin'
    cases hjoin'
    refine ⟨?_, _, rfl⟩
    show c.resolver.aliases = []
    rw [hc, halias, Resolver.addAlias, hbase]
    exact congrArg Resolver.aliases (if_pos rfl)

end

/-- The document is narrowed to something along the path to a node, and references lead to the same from
both, or fail. This holds of those that join to one URL from both, as absolute ones do by
`Url.join_absolute`, unless its document has the alias. It holds of those without an anchor whose documents
have their roots at one place. And if the identifiers on the way keep to the document, it holds of those
that name a place in their own document, and if what the document is narrowed to keeps to it as well, of
all. -/
theorem Session.resolve_narrowed {session : Session} {url : Url} {root node : Members}
    {path : List String} {options : Options} {place : Compiler}
    (formed : (Json.object root).wellFormed = true)
    (hvisits : Visits (session.compilerFor url.withoutFragment (.object root) (.object root) false
      options) root path place node) :
    ∃ narrowed, narrow (.object root) path = .ok (.object narrowed) ∧
      ∀ place', Node.Inside narrowed (session.compilerFor url.withoutFragment (.object root)
          (.object narrowed) true options) place' →
        let r := place.resolver
        let r' := place'.resolver
        (∀ reference, (r.scope.join reference).toOption = (r'.scope.join reference).toOption →
          (∀ url, r'.scope.join reference = .ok url →
            r'.aliases.lookup url.withoutFragment.text = none) → r.Agree r' reference) ∧
        (∀ reference url url', r.scope.join reference = .ok url →
          r'.scope.join reference = .ok url' → Resolver.namesAnchor url = false →
          session.registry.place? (r'.documentOf url') =
            session.registry.place? (r.documentOf url) → r.Agree r' reference) ∧
        (keepsDocument (options.draftOf (.object root)) (options.draftOf (.object narrowed)) root
            path = true → ∀ reference, Url.isLocal reference = true ∨ ownId? root = none ∧
              identifiesLocally (options.draftOf (.object narrowed)) narrowed = true →
          r.Agree r' reference) := by
  obtain ⟨narrowed, hnarrow, hhanded⟩ := hvisits.narrows formed
  refine ⟨narrowed, hnarrow, fun place' hinside => ?_⟩
  obtain ⟨hregistry, haliases⟩ := hvisits.keeps
  have hregistry' : place'.resolver.registry = session.registry :=
    hinside.keeps.1.trans (Session.aliasNarrowed_keeps ..).1
  have hsame : place'.resolver.registry = place.resolver.registry := hregistry'.trans hregistry.symm
  refine ⟨fun reference => Resolver.agree_of_join hsame haliases,
    fun reference url url' hjoin hjoin' hanchor hplace => ?_, fun hkeeps reference h => ?_⟩
  · refine Resolver.agree_of_place hsame hjoin hjoin' hanchor ?_
    rw [hregistry]
    exact hplace
  · obtain ⟨scope, hscope, hbase, hplace⟩ := hvisits.root_scope rfl hkeeps
    rcases h with hlocal | ⟨hown, hnarrowed⟩
    · obtain ⟨scope', fragment', hplace', hdocument⟩ := document_narrowed rfl hinside hscope
        fun hbare => hbase (ownId?_of_bare hkeeps hhanded hbare)
      exact SameDocument.agree ⟨⟨hregistry, hregistry'⟩, ⟨hplace, fragment', hplace'⟩,
        Resolver.documentOf_plain haliases scope, hdocument⟩ hlocal
    · obtain ⟨hplain, fragment', hplace'⟩ :=
        plain_narrowed rfl hinside hscope (hbase hown) hnarrowed
      obtain ⟨fragment, hplace⟩ := hplace
      have hjoin : place.resolver.scope.join reference = place'.resolver.scope.join reference := by
        rw [hplace, hplace', hbase hown]
        exact (Url.join_fragment ..).trans (Url.join_fragment ..).symm
      exact Resolver.agree_of_join hsame haliases (congrArg _ hjoin) fun url _ => by rw [hplain]; rfl

/-- A part with a reference in it, and a document with that part and with definitions. -/
def partSchema (reference : String) : Members :=
  [("type", .string "object"), ("properties", .object [("b", .object [("$ref", .string reference)])])]

def wholeSchema (reference : String) : Members :=
  [("$id", .string "http://example.com/d.json"), ("type", .string "object"),
    ("properties", .object [("a", .object (partSchema reference))]),
    ("definitions", .object [("t", .object [("type", .string "string")])])]

def wholeSession (reference : String) : Session :=
  let other : Url := ⟨"http", some { host := "example.com" }, "/t.json", none, none⟩
  Session.ofDocuments [⟨other, .object [("type", .string "string")]⟩,
    fileAt "/d.json" (.object (wholeSchema reference))]

theorem resolve_narrowed_whole :
    let url := (fileAt "/d.json" .null).url
    let compilerFor := (wholeSession "t.json").compilerFor url.withoutFragment
    let root := wholeSchema "t.json"
    ∃ place place' narrowed,
      Visits (compilerFor (.object root) (.object root) false {}) root ["a"] place
        (partSchema "t.json") ∧
      narrow (.object root) ["a"] = .ok (.object narrowed) ∧
      Node.Inside narrowed (compilerFor (.object root) (.object narrowed) true {}) place' ∧
      place.resolver.Agree place'.resolver "#/definitions/t" ∧
      place.resolver.Agree place'.resolver "http://example.com/t.json" := by
  intro url compilerFor root
  let narrowed := partSchema "t.json" ++ [("$id", .string "http://example.com/d.json/a")]
  have hvisits : Visits (compilerFor (.object root) (.object root) false {}) root ["a"] _
      (partSchema "t.json") :=
    .step ⟨_, rfl, rfl⟩ rfl rfl rfl (by decide) (by decide) rfl (.here rfl)
  have hnarrow : narrow (.object root) ["a"] = .ok (.object narrowed) := rfl
  obtain ⟨place', hinside, hscope, haliases⟩ : ∃ place', Node.Inside narrowed
      (compilerFor (.object root) (.object narrowed) true {}) place' ∧
      place'.resolver.scope = ⟨"http", some { host := "example.com" }, "/d.json/a", none, none⟩ ∧
      place'.resolver.aliases = [("http://example.com/d.json/a", "http://example.com/d.json")] :=
    ⟨_, ⟨_, rfl, rfl⟩, rfl, rfl⟩
  obtain ⟨found, hfound, hrest⟩ := Session.resolve_narrowed (by decide +kernel) hvisits
  cases hnarrow.symm.trans hfound
  obtain ⟨hjoined, -, hlocal⟩ := hrest place' hinside
  have hfree : ∀ url, place'.resolver.scope.join "http://example.com/t.json" = .ok url →
      place'.resolver.aliases.lookup url.withoutFragment.text = none := by
    have hother : Url.join ⟨"http", some { host := "example.com" }, "/d.json/a", none, none⟩
        "http://example.com/t.json" =
          .ok ⟨"http", some { host := "example.com" }, "/t.json", none, none⟩ := rfl
    intro url hjoin
    rw [hscope, hother] at hjoin
    cases hjoin
    rw [haliases]
    rfl
  exact ⟨_, place', narrowed, hvisits, hnarrow, hinside,
    hlocal (by decide +kernel) "#/definitions/t" (.inl rfl),
    hjoined "http://example.com/t.json" (congrArg _ (Url.join_absolute rfl _ _)) hfree⟩

/-- Inside of a node of a document a reference leads elsewhere than inside of what the document is
narrowed to along the path to the node. -/
def Session.Disagrees (session : Session) (url : Url) (root : Members) (path : List String)
    (reference : String) : Prop :=
  ∃ node narrowed place place',
    Visits (session.compilerFor url.withoutFragment (.object root) (.object root) false {}) root path
      place node ∧
    narrow (.object root) path = .ok (.object narrowed) ∧
    Node.Inside narrowed (session.compilerFor url.withoutFragment (.object root) (.object narrowed)
      true {}) place' ∧
    ¬ place.resolver.Agree place'.resolver reference

theorem Resolver.not_agree {r r' : Resolver} {reference : String}
    (h : (r.resolve reference).isOk ≠ (r'.resolve reference).isOk) : ¬ r.Agree r' reference := by
  rintro (⟨_, _, _, _, hfound, hfound', -⟩ | ⟨⟨_, hfails⟩, _, hfails'⟩)
  · rw [hfound, hfound'] at h
    exact h rfl
  · rw [hfails, hfails'] at h
    exact h rfl

/-- Whether a reference leads somewhere from just one of a property and what is narrowed to it. -/
def Session.disagreesAt (session : Session) (url : Url) (root node : Members)
    (segment reference : String) : Option Bool := do
  let c := session.compilerFor url.withoutFragment (.object root) (.object root) false {}
  let outside ← (c.resolver.inside c.draft root).toOption
  let resolver ← (outside.inside c.draft node).toOption
  let narrowed ← (narrow (.object root) [segment]).toOption.bind Json.asMembers?
  let c' := session.compilerFor url.withoutFragment (.object root) (.object narrowed) true {}
  let resolver' ← (c'.resolver.inside c'.draft narrowed).toOption
  return (resolver.resolve reference).isOk != (resolver'.resolve reference).isOk

theorem Node.inside_of_ok {schema : Members} {c : Compiler} {resolver : Resolver}
    (h : c.resolver.inside c.draft schema = .ok resolver) : Inside schema c (c.within resolver) := by
  rw [Resolver.inside] at h
  rw [Inside]
  cases hid : c.draft.idOf? schema with
  | none =>
    rw [hid] at h
    cases h
    rfl
  | some id =>
    rw [hid] at h
    exact ⟨resolver, h, rfl⟩

theorem Session.disagrees_of_at {session : Session} {url : Url} {root properties node : Members}
    {segment reference : String} (htype : typeIs root "object" = true)
    (henum : root.get? "enum" = none)
    (hproperties : root.get? "properties" = some (.object properties))
    (hself : segment ≠ selfSegment) (hfree : segment ∉ Node.reservedNames)
    (hnode : Members.get? properties segment = some (.object node))
    (h : session.disagreesAt url root node segment reference = some true) :
    session.Disagrees url root [segment] reference := by
  simp only [disagreesAt, Option.bind_eq_bind, Option.bind_eq_some_iff] at h
  obtain ⟨outside, houtside, resolver, hresolver, narrowed, ⟨schema, hnarrow, hmembers⟩, resolver',
    hresolver', hends⟩ := h
  let c := session.compilerFor url.withoutFragment (.object root) (.object root) false {}
  have hvisits : Visits c root [segment] (((c.within outside).atProperty segment).within resolver)
      node := .step (Node.inside_of_ok (ok_of_toOption houtside)) htype henum hproperties hself hfree hnode
    (.here (Node.inside_of_ok (ok_of_toOption hresolver)))
  have hnarrowed : narrow (.object root) [segment] = .ok (.object narrowed) := by
    rw [ok_of_toOption hnarrow]
    cases schema with
    | object members =>
      cases hmembers
      rfl
    | _ => cases hmembers
  refine ⟨node, narrowed, _, _, hvisits, hnarrowed, Node.inside_of_ok (ok_of_toOption hresolver'), ?_⟩
  exact Resolver.not_agree (bne_iff_ne.mp (Option.some.inj hends))

def scopedPart : Members :=
  [("$id", .string "part.json"), ("type", .string "object"),
    ("properties", .object [("b", .object [("$ref", .string "#/definitions/t")])]),
    ("definitions", .object [("t", .object [("type", .string "string")])])]

def scopedSchema : Members :=
  [("type", .string "object"), ("properties", .object [("a", .object scopedPart)])]

def legacySchema : Members :=
  [("$schema", .string "http://json-schema.org/draft-04/schema#"),
    ("id", .string "http://example.com/d.json"), ("type", .string "object"),
    ("properties", .object [("a", .object (partSchema "#t"))]),
    ("definitions", .object [("t", .object [("id", .string "#t"), ("type", .string "string")])])]

def hiddenSchema : Members :=
  [("$id", .string "http://example.com/d.json"), ("type", .string "object"),
    ("properties", .object [("a", .object (("$id", .null) :: partSchema "#t"))]),
    ("definitions", .object [("t", .object [("$id", .string "#t"), ("type", .string "string")])])]

/-- The alias of a narrowed schema is for references that start with `#`. In a document with an identifier
relative ones lead elsewhere, and so does the identifier that narrowing makes of it. Besides, definitions
of a part with an identifier of its own are not found, nor are anchors of a document with a legacy
identifier or with one that a part hides. -/
theorem resolve_narrowed_elsewhere :
    let file (root : Members) := fileAt "/d.json" (.object root)
    let url := (file []).url
    (wholeSession "t.json").Disagrees url (wholeSchema "t.json") ["a"] "t.json" ∧
      (wholeSession "t.json").Disagrees url (wholeSchema "t.json") ["a"]
        "http://example.com/d.json/a" ∧
      (Session.ofDocuments [file scopedSchema]).Disagrees url scopedSchema ["a"] "#/definitions/t" ∧
      (Session.ofDocuments [file legacySchema]).Disagrees url legacySchema ["a"] "#t" ∧
      (Session.ofDocuments [file hiddenSchema]).Disagrees url hiddenSchema ["a"] "#t" := by
  intro file url
  have hself : "a" ≠ selfSegment := by decide
  have hfree : "a" ∉ Node.reservedNames := by decide
  exact ⟨Session.disagrees_of_at rfl rfl rfl hself hfree rfl (by decide +kernel),
    Session.disagrees_of_at rfl rfl rfl hself hfree rfl (by decide +kernel),
    Session.disagrees_of_at rfl rfl rfl hself hfree rfl (by decide +kernel),
    Session.disagrees_of_at rfl rfl rfl hself hfree rfl (by decide +kernel),
    Session.disagrees_of_at rfl rfl rfl hself hfree rfl (by decide +kernel)⟩

end SchemaShape
