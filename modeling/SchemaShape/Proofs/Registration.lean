import SchemaShape.Proofs.Compiler.Inlining
import SchemaShape.Proofs.Isolation

/-! # Registering another document, and registering in another order

A registry that is given a document under a new key still finds what it found before, whatever the
document claims. So what compiled before compiles to the same afterwards, and what failed for another
reason than a missing target still fails for that reason.

Documents that have no key in common are found in whatever order they are registered.
-/

namespace SchemaShape
set_option autoImplicit false

open Correspondence

/-! ## Lookups -/

namespace Registry

/-- Whatever one registry finds, the other one finds, too. -/
def Extends (registry registry' : Registry) : Prop :=
  ∀ key node, registry.get? key = some node → registry'.get? key = some node

theorem extends_insert {registry : Registry} {document : Document}
    (hnew : registry.contains document.key = false) : registry.Extends (registry.insert document) := by
  intro key node h
  obtain ⟨place, found, hplace, hfound, hnode⟩ := Resolver.place?_of_get? h
  have hkey : key ≠ document.key := by
    rintro rfl
    rw [contains, hplace] at hnew
    cases hnew
  have hplace' : (registry.insert document).place? key = some place := by
    rw [place?_insert, if_neg hkey, hplace, Option.some_or]
  have hfound' : (registry.insert document).documents[place.document]? = some found := by
    rw [documents_insert, List.getElem?_append_left (List.getElem?_eq_some_iff.mp hfound).1, hfound]
  rw [get?, locate?, hplace']
  simp only [Option.bind_eq_bind, Option.bind_some, hfound']
  exact hnode

end Registry

namespace Resolver

theorem target_extends {r : Resolver} {registry : Registry} (hextends : r.registry.Extends registry)
    {url : Url} {node : Json} (h : r.target url = .ok node) :
    ({ r with registry } : Resolver).target url = .ok node := by
  obtain ⟨fragment, root, hdecode, hroot, htarget⟩ := target_ok h
  refine target_of_fragment hdecode (hextends _ _ hroot) ?_
  rw [fragmentTarget?] at htarget ⊢
  split at htarget
  · exact htarget
  · exact htarget
  · exact hextends _ _ htarget

theorem resolve_extends {r : Resolver} {registry : Registry} (hextends : r.registry.Extends registry)
    {reference : String} {url : Url} {node : Json} (h : r.resolve reference = .ok (url, node)) :
    ({ r with registry } : Resolver).resolve reference = .ok (url, node) := by
  obtain ⟨hjoin, htarget⟩ := resolve_ok h
  exact resolve_of_target hjoin (target_extends hextends htarget)

end Resolver

/-! ## Compilers with another registry -/

/-- The same place, where lookups go to another registry. -/
def Compiler.consulting (c : Compiler) (registry : Registry) : Compiler :=
  { c with resolver := { c.resolver with registry } }

/-- The second place is like the first one, but for its location, and its registry finds more. -/
def Informed (c c' : Compiler) : Prop :=
  ∃ location registry, c' = { c.consulting registry with location } ∧
    c.resolver.registry.Extends registry

/-- If the first side succeeds, the second one succeeds with the same shape and says the same. If the
first one fails with a target found, the second one fails likewise. -/
def informed : Correspondence where
  admits := fun _ => True
  states := Informed
  shapes := Eq
  flags := Eq
  entries := fun d d' => d.said = d'.said
  failures := fun failure failure' => failure.kind = failure'.kind
  cut := fun failure => failure.kind = "RefResolution"

theorem informed_lawful : informed.Lawful where
  toRules := by
    refine rules_of_equal rfl rfl ?_ ?_ ?_ (fun _ _ _ => rfl) (fun _ _ => rfl) (fun _ _ => rfl)
      fun _ _ => rfl
    · rintro c _ ⟨location, registry, rfl, -⟩
      exact ⟨rfl, rfl, rfl⟩
    · rintro c _ tokens ⟨location, registry, rfl, hextends⟩
      exact ⟨_, registry, rfl, hextends⟩
    · rintro c _ key ⟨location, registry, rfl, hextends⟩
      exact ⟨_, registry, rfl, hextends⟩
  part := fun h _ => h
  ids := by
    rintro schema c _ - ⟨location, registry, rfl, -⟩
    rfl
  enters := by
    rintro schema c _ id - ⟨location, registry, rfl, hextends⟩ -
    exact enters_of_join rfl fun _ _ => ⟨location, registry, rfl, hextends⟩
  resolves := by
    rintro schema c c' reference - ⟨location, registry, heq, hextends⟩ - -
    rw [Resolves, ResolvesTo]
    cases hresolve : c.resolver.resolve reference with
    | error failure =>
      obtain ⟨reason, rfl⟩ := Resolver.resolve_error hresolve
      cases hresolve' : c'.resolver.resolve reference with
      | error failure' =>
        obtain ⟨reason', rfl⟩ := Resolver.resolve_error hresolve'
        rfl
      | ok found => exact ⟨id, rfl⟩
    | ok found =>
      obtain ⟨url, target⟩ := found
      have hresolve' : c'.resolver.resolve reference = .ok (url, target) := by
        rw [heq]
        exact Resolver.resolve_extends hextends hresolve
      rw [hresolve', heq]
      exact ⟨fun _ _ => rfl, trivial, .inl rfl, fun _ => ⟨_, registry, rfl, hextends⟩⟩
  refCycle := fun _ _ => rfl

/-- A compiler that knows more ends alike, unless what it did not know was a target. -/
theorem ends_informed {c : Compiler} {registry : Registry}
    (hextends : c.resolver.registry.Extends registry) (schema : Json) :
    (∃ root added added', (Compile.upTo c.remaining schema true).Gives c (.ok root) added ∧
      (Compile.upTo c.remaining schema true).Gives (c.consulting registry) (.ok root) added' ∧
      added'.map Diagnostic.said = added.map Diagnostic.said) ∨
    (∃ failure failure' added added',
      (Compile.upTo c.remaining schema true).Gives c (.error failure) added ∧
      (Compile.upTo c.remaining schema true).Gives (c.consulting registry) (.error failure') added' ∧
      failure'.kind = failure.kind) ∨
    ∃ failure added, (Compile.upTo c.remaining schema true).Gives c (.error failure) added ∧
      failure.kind = "RefResolution" := by
  have hroot : SameRoot c (c.consulting registry) true true := rfl
  have hmatches := informed_lawful.upTo c.remaining (show informed.admits schema from trivial) hroot rfl
    ⟨c.location, registry, rfl, hextends⟩
  rcases hmatches with
    ⟨_, added, _, added', hgives, hgives', houtcomes, hentries⟩ | ⟨failure, added, hgives, hcut, -⟩
  · cases houtcomes with
    | @value root root' heq =>
      obtain rfl : root = root' := heq
      exact .inl ⟨root, added, added', hgives, hgives', (Diagnostic.said_eq hentries).symm⟩
    | failure hkind => exact .inr (.inl ⟨_, _, added, added', hgives, hgives', Eq.symm hkind⟩)
  · exact .inr (.inr ⟨failure, added, hgives, hcut⟩)

/-- The same place, where the other registry finds the same. -/
def Consulting (c c' : Compiler) : Prop :=
  ∃ registry, c' = c.consulting registry ∧
    ∀ key, c.resolver.registry.locate? key = registry.locate? key

def consulted : Correspondence :=
  identical (fun _ => True) Consulting

theorem consulted_lawful : consulted.Lawful := by
  refine identical_lawful (fun h _ => h) ?_ ?_ ?_ ?_ ?_
  · rintro c _ tokens ⟨registry, rfl, hlocate⟩
    exact ⟨registry, rfl, hlocate⟩
  · rintro c _ key ⟨registry, rfl, hlocate⟩
    exact ⟨registry, rfl, hlocate⟩
  · rintro c _ ⟨registry, rfl, -⟩
    exact ⟨registry, _, _, rfl⟩
  · rintro schema c _ id - ⟨registry, rfl, hlocate⟩ -
    exact enters_of_join rfl fun _ _ => ⟨registry, rfl, hlocate⟩
  · rintro schema c _ reference - ⟨registry, rfl, hlocate⟩ - -
    have htarget (url : Url) : c.resolver.target url = (c.consulting registry).resolver.target url :=
      Resolver.target_congr rfl rfl fun key _ => hlocate key
    have hanchor (url : Url) :
        c.resolver.locateAnchor? url = (c.consulting registry).resolver.locateAnchor? url :=
      Resolver.locateAnchor?_congr rfl rfl fun key _ => hlocate key
    have hresolve : (c.consulting registry).resolver.resolve reference =
        c.resolver.resolve reference := by
      simp only [Resolver.resolve, htarget]
      rfl
    refine resolvesTo_of_resolve hresolve (fun _ _ => rfl) fun url _ _ => ⟨trivial, .inl rfl, ?_⟩
    intro _
    rw [Compile.targetLocation, Compile.targetLocation, hanchor]
    exact ⟨registry, rfl, hlocate⟩

/-! ## Sessions -/

namespace Session

variable {session session' : Session} {url : Url} {path : List String} {options : Options}

theorem aliasNarrowed_registry (draft : Draft) (whole narrowed : Json) (resolver : Resolver)
    (registry : Registry) : aliasNarrowed draft whole narrowed { resolver with registry } =
      { aliasNarrowed draft whole narrowed resolver with registry } := by
  simp only [aliasNarrowed]
  split
  · rfl
  · split
    · simp only [Resolver.addAlias]
      split
      · rfl
      · rfl
    · rfl

theorem compilerFor_consulting (session session' : Session) (base : Url) (whole schema : Json)
    (narrowed : Bool) (options : Options) :
    session'.compilerFor base whole schema narrowed options =
      (session.compilerFor base whole schema narrowed options).consulting session'.registry := by
  cases narrowed with
  | false => rfl
  | true =>
    have halias := aliasNarrowed_registry (options.draft.getD (Draft.detectIn schema)) whole schema
      { registry := session.registry, base } session'.registry
    simp only [compilerFor, if_true, Compiler.consulting]
    rw [halias]
    rfl

theorem compilerFor_registry (session : Session) (base : Url) (whole schema : Json)
    (narrowed : Bool) (options : Options) :
    (session.compilerFor base whole schema narrowed options).resolver.registry = session.registry := by
  rw [compilerFor_consulting session session]
  rfl

theorem compile_congr
    (hlocate : ∀ key, session.registry.locate? key = session'.registry.locate? key) :
    session.compile url path options = session'.compile url path options := by
  have hget : session.registry.get? url.withoutFragment.text =
      session'.registry.get? url.withoutFragment.text := Resolver.get?_congr (hlocate _)
  cases hwhole : session.registry.get? url.withoutFragment.text with
  | none => rw [compile_unregistered hwhole, compile_unregistered (hget ▸ hwhole)]
  | some whole =>
    have hwhole' := hget ▸ hwhole
    cases hschema : (if path.isEmpty then .ok whole else narrow whole path : Except Failure Json) with
    | error failure => rw [compile_astray hwhole hschema, compile_astray hwhole' hschema]
    | ok schema =>
      generalize hc : session.compilerFor url.withoutFragment whole schema (!path.isEmpty) options = c
      have hc' : session'.compilerFor url.withoutFragment whole schema (!path.isEmpty) options =
          c.consulting session'.registry := hc ▸ compilerFor_consulting ..
      have hregistry : c.resolver.registry = session.registry := hc ▸ compilerFor_registry ..
      have hconsulting : Consulting c (c.consulting session'.registry) :=
        ⟨_, rfl, fun key => hregistry ▸ hlocate key⟩
      have hroot : SameRoot c (c.consulting session'.registry) true true := rfl
      have hsame := consulted_lawful.upTo c.remaining (show consulted.admits schema from trivial) hroot
        rfl hconsulting
      obtain ⟨result, added, hgives, hgives'⟩ := identical_ends hsame
      rw [compile_of_gives hwhole hschema hc hgives, compile_of_gives hwhole' hschema hc' hgives']
      rfl

/-- A document under a new key changes no compile that succeeds, whatever it claims, but for locations of
diagnostics, nor the kind of any failure but that of a reference that leads nowhere. -/
theorem compile_add {document : Document} (hnew : session.contains document.url = false) (url : Url)
    (path : List String) (options : Options) :
    (∀ before, session.compile url path options = .ok before →
      ∃ after, (session.add document).compile url path options = .ok after ∧
        after.root = before.root ∧ after.name = before.name ∧ after.draft = before.draft ∧
        after.diagnostics.map Diagnostic.said = before.diagnostics.map Diagnostic.said) ∧
    ∀ failure, session.compile url path options = .error failure → failure.kind ≠ "RefResolution" →
      ∃ failure', (session.add document).compile url path options = .error failure' ∧
        failure'.kind = failure.kind := by
  have hextends : session.registry.Extends (session.add document).registry :=
    Registry.extends_insert hnew
  cases hwhole : session.registry.get? url.withoutFragment.text with
  | none =>
    rw [compile_unregistered hwhole]
    refine ⟨nofun, fun failure h hkind => ?_⟩
    cases h
    exact absurd rfl hkind
  | some whole =>
    have hwhole' := hextends _ _ hwhole
    cases hschema : (if path.isEmpty then .ok whole else narrow whole path : Except Failure Json) with
    | error failure =>
      rw [compile_astray hwhole hschema, compile_astray hwhole' hschema]
      refine ⟨nofun, fun failure' h _ => ⟨failure, rfl, ?_⟩⟩
      cases h
      rfl
    | ok schema =>
      generalize hc : session.compilerFor url.withoutFragment whole schema (!path.isEmpty) options = c
      have hc' : (session.add document).compilerFor url.withoutFragment whole schema (!path.isEmpty)
          options = c.consulting (session.add document).registry := hc ▸ compilerFor_consulting ..
      have hregistry : c.resolver.registry = session.registry := hc ▸ compilerFor_registry ..
      rcases ends_informed (hregistry ▸ hextends) schema with
        ⟨root, added, added', hgives, hgives', hsaid⟩ |
        ⟨failure, failure', added, added', hgives, hgives', hkind⟩ | ⟨failure, added, hgives, hmissing⟩
      · rw [compile_of_gives hwhole hschema hc hgives, compile_of_gives hwhole' hschema hc' hgives']
        refine ⟨fun before h => ?_, nofun⟩
        cases h
        refine ⟨_, rfl, rfl, rfl, rfl, ?_⟩
        simp only [report, List.map_append, hsaid]
        rfl
      · rw [compile_of_gives hwhole hschema hc hgives, compile_of_gives hwhole' hschema hc' hgives']
        refine ⟨nofun, fun failure h _ => ⟨failure', rfl, ?_⟩⟩
        cases h
        exact hkind
      · rw [compile_of_gives hwhole hschema hc hgives]
        refine ⟨nofun, fun failure h hkind => ?_⟩
        cases h
        exact absurd hmissing hkind

/-- A schema that claims the key of another one, and its anchor. -/
def collidingSchema : Json :=
  .object [("$id", .string "file:///d.json"), ("type", .string "null"),
    ("definitions", .object [("t", .object [("$id", .string "#t"), ("type", .string "null")])])]

def anchoredSession : Session := ofDocuments [fileAt "/d.json" (anchoredSchema "string")]

theorem compile_add_colliding :
    let document := fileAt "/x.json" collidingSchema
    let root (session : Session) := (session.compile (fileAt "/d.json" .null).url [] {}).map (·.root)
    anchoredSession.contains document.url = false ∧
      document.claims.map (·.key) = ["file:///d.json", "file:///d.json#t"] ∧
      root anchoredSession = .ok (.record "JSONSchema" true [⟨"p", false, .scalar .string⟩]) ∧
      root (anchoredSession.add document) = root anchoredSession := by
  intro document root
  have hnew : anchoredSession.contains document.url = false := by decide +kernel
  obtain ⟨hkept, -⟩ := compile_add hnew (fileAt "/d.json" .null).url [] {}
  have hroot : (anchoredSession.compile (fileAt "/d.json" .null).url [] {}).map (·.root) =
      .ok (.record "JSONSchema" true [⟨"p", false, .scalar .string⟩]) := rfl
  refine ⟨hnew, by decide +kernel, hroot, ?_⟩
  cases hbefore : anchoredSession.compile (fileAt "/d.json" .null).url [] {} with
  | error failure =>
    rw [hbefore] at hroot
    cases hroot
  | ok before =>
    obtain ⟨after, hafter, hsame, -⟩ := hkept before hbefore
    simp only [root, hbefore, hafter, Except.map, hsame]

end Session

/-! ## Orders of registration -/

namespace Document

/-- What a document may be found under. -/
def keys (document : Document) : List String :=
  document.key :: document.claims.map (·.key)

theorem unclaimed_of_not_mem {document : Document} {key : String} (h : key ∉ document.keys) :
    document.key ≠ key ∧ document.claimed? key = none := by
  obtain ⟨hkey, hclaims⟩ := not_or.mp (mt List.mem_cons.mpr h)
  refine ⟨Ne.symm hkey, ?_⟩
  rw [claimed?, Option.map_eq_none_iff, List.find?_eq_none]
  exact fun claim hmem heq => hclaims (List.mem_map.mpr ⟨claim, hmem, eq_of_beq heq⟩)

end Document

namespace Registry

variable {documents : List Document} {document : Document} {key : String}

/-- A key of one document alone leads there, wherever in the order the document comes. -/
theorem locate?_apart (apart : documents.Pairwise fun d d' => d.keys.Disjoint d'.keys)
    (hmem : document ∈ documents) (hkey : key ∈ document.keys) :
    (documents.foldl insert empty).locate? key =
      (document.denoted? key).map fun pointer => (document.stored, pointer) := by
  obtain ⟨before, after, rfl⟩ := List.append_of_mem hmem
  have hothers : ∀ other ∈ before ++ after, document.keys.Disjoint other.keys :=
    (List.pairwise_cons.mp ((List.perm_middle.pairwise_iff List.disjoint_symm).mp apart)).1
  have hfree : ∀ other ∈ before ++ after, other.key ≠ key ∧ other.claimed? key = none :=
    fun other mem => Document.unclaimed_of_not_mem fun hother => hothers other mem hkey hother
  refine locate?_undisturbed (fun _ other mem => (hfree other (List.mem_append_right _ mem)).1)
    fun _ => ⟨fun other mem => (hfree other mem).1,
      fun other mem => (hfree other (List.mem_append_left _ mem)).2, fun other mem hsome => ?_⟩
  rw [(hfree other (List.mem_append_right _ mem)).2] at hsome
  cases hsome

theorem locate?_unknown (h : ∀ document ∈ documents, key ∉ document.keys) :
    (documents.foldl insert empty).locate? key = none := by
  have hplace : (documents.foldl insert empty).place? key = none :=
    place?_unclaimed (fun document mem => Document.unclaimed_of_not_mem (h document mem)) rfl
  rw [locate?, hplace]
  rfl

theorem locate?_perm {documents' : List Document} (hperm : documents.Perm documents')
    (apart : documents.Pairwise fun d d' => d.keys.Disjoint d'.keys) (key : String) :
    (documents.foldl insert empty).locate? key = (documents'.foldl insert empty).locate? key := by
  have apart' : documents'.Pairwise fun d d' => d.keys.Disjoint d'.keys :=
    (hperm.pairwise_iff List.disjoint_symm).mp apart
  by_cases hknown : ∃ document ∈ documents, key ∈ document.keys
  · obtain ⟨document, hmem, hkey⟩ := hknown
    rw [locate?_apart apart hmem hkey, locate?_apart apart' (hperm.mem_iff.mp hmem) hkey]
  · have hunknown : ∀ document ∈ documents, key ∉ document.keys :=
      fun document hmem hkey => hknown ⟨document, hmem, hkey⟩
    rw [locate?_unknown hunknown,
      locate?_unknown fun document hmem => hunknown document (hperm.mem_iff.mpr hmem)]

end Registry

/-- Sessions of documents without a key in common compile everything alike, in whatever order the
documents were registered. -/
theorem Session.compile_perm {documents documents' : List Document}
    (hperm : documents.Perm documents')
    (apart : documents.Pairwise fun d d' => d.keys.Disjoint d'.keys) (url : Url) (path : List String)
    (options : Options) :
    (ofDocuments documents).compile url path options =
      (ofDocuments documents').compile url path options := by
  refine compile_congr fun key => ?_
  rw [registry_ofDocuments, registry_ofDocuments]
  exact Registry.locate?_perm hperm apart key

theorem compile_perm_files :
    let documents := [fileAt "/a.json" (anchoredSchema "null"), fileAt "/b.json" (definedSchema "string"),
      fileAt "/c.json" (.object [("$ref", .string "a.json#t")])]
    (documents.map Document.keys).flatten =
        ["file:///a.json", "file:///a.json#t", "file:///b.json", "file:///c.json"] ∧
      (Session.ofDocuments documents).compile (fileAt "/c.json" .null).url [] {} =
        (Session.ofDocuments documents.reverse).compile (fileAt "/c.json" .null).url [] {} := by
  intro documents
  have apart : documents.Pairwise fun d d' => ∀ key ∈ d.keys, key ∉ d'.keys := by decide +kernel
  have hdisjoint : documents.Pairwise fun d d' => d.keys.Disjoint d'.keys := apart.imp fun h _ => h _
  exact ⟨by decide +kernel, Session.compile_perm (List.reverse_perm _).symm hdisjoint _ _ _⟩

end SchemaShape
