import SchemaShape.Proofs.Index
import SchemaShape.Proofs.Locations

/-! # Scopes that a compile enters

Two walks go through a document. The registry searches all of it for identifiers, data apart, and the
compiler goes from schema to schema and enters the identifiers that it meets. Where both get to a node by
the same way they agree on its document, and so whatever scope is entered is registered.

The search goes by keys and takes every object for a schema. It misses the schema of a property that is
named like a keyword for data, and reads an identifier in a map of properties that has one named so.
-/

namespace SchemaShape
set_option autoImplicit false

open Compile

/-! ## Ways that the search goes as well -/

/-- A property whose schema is searched under the base of the node. -/
structure Node.ShowsProperty (draft : Draft) (schema : Members) (key : String) (part : Json) : Prop
    extends Node.HasProperty schema key part where
  searched : key ∉ Claim.dataKeywords
  unidentified : ∀ properties, schema.get? "properties" = some (.object properties) →
    draft.idOf? properties = none

/-- A compile that starts with a schema at a place gets to a schema at a place, without references, and
through properties that the search goes through as well. -/
inductive Visible (start : Compiler) (root : Json) : Compiler → Json → Prop where
  | root : Visible start root start root
  | part {c inside : Compiler} {schema : Members} {tokens : Pointer} {part : Json}
      (h : Visible start root c (.object schema)) (hinside : Node.Inside schema c inside)
      (hpart : Node.Selects schema tokens part) : Visible start root (inside.below tokens) part
  | property {c inside : Compiler} {schema : Members} {key : String} {part : Json}
      (h : Visible start root c (.object schema)) (hinside : Node.Inside schema c inside)
      (hpart : Node.ShowsProperty c.draft schema key part) :
      Visible start root (inside.atProperty key) part

/-- Where the search goes through every property, it goes wherever the compile gets to without references. -/
theorem Compiling.visible {start c : Compiler} {root value : Json}
    (hshown : ∀ c schema key part, Compiling start root [] c (.object schema) →
      Node.HasProperty schema key part → Node.ShowsProperty c.draft schema key part)
    (h : Compiling start root [] c value) : Visible start root c value := by
  generalize hfollowed : ([] : List Url) = followed at h
  induction h with
  | root => exact .root
  | part _ hinside hpart ih => exact .part (ih hfollowed) hinside hpart
  | property h hinside hpart ih =>
    subst hfollowed
    exact .property (ih rfl) hinside (hshown _ _ _ _ h hpart)
  | target => cases hfollowed

namespace Node

variable {draft : Draft} {base inner : Url} {schema : Members} {claimed : Option String}
variable {tokens : Pointer} {key : String} {part : Json}

theorem Selects.searched (h : Selects schema tokens part)
    (hreads : Claim.Reads draft base schema inner claimed) :
    Claim.Searched draft base (.object schema) tokens inner part := by
  have hbranch : ∀ keyword ∈ branchKeywords, keyword ∉ Claim.dataKeywords := by decide
  cases h with
  | branch hkeyword _ hget hpart =>
    exact .member hreads hget (hbranch _ hkeyword) (.item hpart (.here inner part))
  | position _ hget hpart => exact .member hreads hget (by decide) (.item hpart (.here inner part))
  | items _ hget => exact .member hreads hget (by decide) (.here inner part)

theorem ShowsProperty.isSearched (h : ShowsProperty draft schema key part)
    (hkeys : (Json.object schema).everyObject Members.distinct = true)
    (hreads : Claim.Reads draft base schema inner claimed) :
    Claim.Searched draft base (.object schema) ["properties", key] inner part := by
  obtain ⟨properties, hget, hvalue⟩ := h.get?_eq hkeys
  have hmap : Claim.Reads draft inner properties inner none := .anonymous (h.unidentified properties hget)
  exact .member hreads hget (by decide) (.member hmap hvalue h.searched (.here inner part))

end Node

/-! ## Registered scopes -/

/-- The search of the document gets to a value under the document of the scope that it is compiled in, and
that document is registered. -/
structure Scoped (registry : Registry) (document : Document) (c : Compiler) (value : Json) : Prop where
  registry_eq : c.resolver.registry = registry
  aliases_eq : c.resolver.aliases = []
  draft_eq : c.draft = Draft.detectIn document.schema
  formed : c.resolver.scope.Formed
  searched : ∃ pointer, Claim.Searched c.draft document.url.withoutFragment document.schema pointer
    c.resolver.scope.withoutFragment value
  registered : registry.contains c.resolver.scope.withoutFragment.text = true

namespace Scoped

variable {documents : List Document} {document : Document} {c inside : Compiler} {schema : Members}

/-- The search reads an identifier to the document of the scope that the compiler enters for it. -/
theorem reads (hformed : c.resolver.scope.Formed) (hinside : Node.Inside schema c inside) :
    ∃ claimed, Claim.Reads c.draft c.resolver.scope.withoutFragment schema
        inside.resolver.scope.withoutFragment claimed ∧
      (inside.resolver.scope.withoutFragment = c.resolver.scope.withoutFragment ∨
        claimed = some inside.resolver.scope.withoutFragment.text) := by
  cases hid : c.draft.idOf? schema with
  | none =>
    rw [Node.Inside, hid] at hinside
    obtain rfl : inside = c := hinside
    exact ⟨none, .anonymous hid, .inl rfl⟩
  | some id =>
    rw [Node.Inside, hid] at hinside
    obtain ⟨resolver, henter, rfl⟩ := hinside
    obtain ⟨url, hjoin, rfl⟩ := Resolver.enterId_ok henter
    have hscope : (c.within (c.resolver.enter url)).resolver.scope = url := rfl
    rw [hscope]
    obtain ⟨joined, hjoined, hdocument⟩ := hformed.join_withoutFragment hjoin
    obtain ⟨inner, claimed, hreads⟩ :=
      Claim.exists_reads c.draft c.resolver.scope.withoutFragment schema
    refine ⟨claimed, ?_⟩
    cases hreads with
    | anonymous hnone => cases hid.symm.trans hnone
    | unjoined hid' hfails =>
      cases hid.symm.trans hid'
      cases hjoined.symm.trans hfails
    | anchor hid' hjoin' hlocal hfragment hnonempty =>
      cases hid.symm.trans hid'
      -- An anchor stays in the document.
      have hstays : url.withoutFragment = c.resolver.scope.withoutFragment := by
        rw [Url.join_local hlocal] at hjoin
        cases hjoin
        rfl
      rw [hstays]
      exact ⟨.anchor hid hjoin' hlocal hfragment hnonempty, .inl rfl⟩
    | url hid' hjoin' hplain =>
      cases hid.symm.trans hid'
      cases hjoined.symm.trans hjoin'
      rw [← hdocument]
      exact ⟨.url hid hjoined hplain, .inr rfl⟩

theorem inside_registered
    (hkeys : ∀ document ∈ documents, document.schema.everyObject Members.distinct = true)
    (hmem : document ∈ documents)
    (h : Scoped (documents.foldl .insert .empty) document c (.object schema))
    (hinside : Node.Inside schema c inside) :
    (documents.foldl Registry.insert .empty).contains
      inside.resolver.scope.withoutFragment.text = true := by
  obtain ⟨pointer, hsearched⟩ := h.searched
  obtain ⟨claimed, hreads, hkept | rfl⟩ := reads h.formed hinside
  · rw [hkept]
    exact h.registered
  · refine Registry.contains_of_claims hkeys hmem (.inr ⟨pointer, schema, ?_⟩)
    rw [h.draft_eq] at hsearched hreads
    exact ⟨_, _, hsearched, hreads⟩

theorem step
    (hkeys : ∀ document ∈ documents, document.schema.everyObject Members.distinct = true)
    (hmem : document ∈ documents)
    (h : Scoped (documents.foldl .insert .empty) document c (.object schema))
    (hinside : Node.Inside schema c inside) {tokens : Pointer} {part : Json}
    (hpart : ∀ {claimed}, Claim.Reads c.draft c.resolver.scope.withoutFragment schema
      inside.resolver.scope.withoutFragment claimed → Claim.Searched c.draft
        c.resolver.scope.withoutFragment (.object schema) tokens
        inside.resolver.scope.withoutFragment part) :
    Scoped (documents.foldl .insert .empty) document inside part := by
  have hregistered := h.inside_registered hkeys hmem hinside
  obtain ⟨pointer, hsearched⟩ := h.searched
  obtain ⟨claimed, hreads, -⟩ := reads h.formed hinside
  have hdraft := hinside.draft_eq
  have hpart' := hsearched.trans (hpart hreads)
  rw [← hdraft] at hpart'
  rcases hinside.eq_or_enter with rfl | ⟨id, url, hjoin, rfl⟩
  · exact ⟨h.registry_eq, h.aliases_eq, h.draft_eq, h.formed, ⟨_, hpart'⟩, hregistered⟩
  · exact ⟨h.registry_eq, h.aliases_eq, h.draft_eq, h.formed.join hjoin, ⟨_, hpart'⟩, hregistered⟩

theorem of_visible
    (hkeys : ∀ document ∈ documents, document.schema.everyObject Members.distinct = true)
    (hmem : document ∈ documents) {start : Compiler} {root value : Json}
    (hstart : Scoped (documents.foldl .insert .empty) document start root)
    (h : Visible start root c value) : Scoped (documents.foldl .insert .empty) document c value := by
  induction h with
  | root => exact hstart
  | part _ hinside hpart ih =>
    obtain ⟨hregistry, haliases, hdraft, hformed, hsearched, hregistered⟩ :=
      ih.step hkeys hmem hinside hpart.searched
    exact ⟨hregistry, haliases, hdraft, hformed, hsearched, hregistered⟩
  | property _ hinside hpart ih =>
    obtain ⟨pointer, hnode⟩ := ih.searched
    have hdistinct := (Json.within_at? hnode.at?_eq).everyObject (hkeys document hmem)
    obtain ⟨hregistry, haliases, hdraft, hformed, hsearched, hregistered⟩ :=
      ih.step hkeys hmem hinside (hpart.isSearched hdistinct)
    exact ⟨hregistry, haliases, hdraft, hformed, hsearched, hregistered⟩

theorem start
    (hkeys : ∀ document ∈ documents, document.schema.everyObject Members.distinct = true)
    (hmem : document ∈ documents) (hurl : document.url.Formed) {options : Options}
    (hdraft : options.draft = none) :
    Scoped (documents.foldl .insert .empty) document
      ((Session.ofDocuments documents).compilerFor document.url.withoutFragment document.schema
        document.schema false options) document.schema := by
  refine ⟨Session.registry_ofDocuments documents, rfl, ?_, hurl.withoutFragment, ⟨[], ?_⟩, ?_⟩
  · show options.draft.getD (Draft.detectIn document.schema) = _
    rw [hdraft]
    rfl
  · show Claim.Searched _ _ _ [] document.url.withoutFragment.withoutFragment _
    rw [Url.withoutFragment_idem]
    exact .here _ _
  · show (documents.foldl Registry.insert .empty).contains
      document.url.withoutFragment.withoutFragment.text = true
    rw [Url.withoutFragment_idem]
    exact Registry.contains_of_claims hkeys hmem (.inl rfl)

end Scoped

theorem Resolver.resolve_registered {r : Resolver} {reference key : String} {root : Json}
    (haliases : r.aliases = [])
    (hroot : r.registry.get? r.scope.withoutFragment.text = some root)
    (hlocal : Url.isLocal reference = true) (hkey : '#' ∉ key.toList) :
    r.resolve reference ≠ .error (.refResolution reference r.scope.text
      ("no document is registered as " ++ key)) := by
  have hjoin : r.scope.join reference = .ok { r.scope with fragment := Url.fragmentOf reference } :=
    Url.join_local hlocal
  intro hresolve
  cases htarget : r.target { r.scope with fragment := Url.fragmentOf reference } with
  | ok node =>
    rw [resolve_of_target hjoin htarget] at hresolve
    cases hresolve
  | error reason =>
    rw [resolve_of_no_target hjoin htarget] at hresolve
    have hreason : reason = "no document is registered as " ++ key := by
      cases hresolve
      rfl
    have hdocument : r.documentOf { r.scope with fragment := Url.fragmentOf reference } =
        r.scope.withoutFragment.text := documentOf_plain haliases _
    rcases target_error htarget (hdocument ▸ hroot) with ⟨failure, hfailure⟩ | ⟨fragment, hmissed⟩
    · have hfirst := congrArg (·.toList.head?) (hreason.symm.trans hfailure)
      have hno : "no document is registered as ".toList.head? = some 'n' := rfl
      have hfragment : "fragment is not UTF-8: ".toList.head? = some 'f' := rfl
      simp only [String.toList_append, List.head?_append, hno, hfragment, Option.some_or] at hfirst
      cases hfirst
    · have hmark : '#' ∈ ("no document is registered as " ++ key).toList := by
        rw [hreason.symm.trans hmissed]
        simp only [String.toList_append, List.mem_append]
        exact .inl (.inr (by decide))
      rw [String.toList_append, List.mem_append] at hmark
      exact hmark.elim (by decide) hkey

/-- Whatever scope a compile of a document enters on ways that the search for identifiers goes as well, its
document is registered, and no local reference under it is answered with that a document is not. (The key
of a document has no `#`.) -/
theorem Session.enters_registered {documents : List Document}
    (hkeys : ∀ document ∈ documents, document.schema.everyObject Members.distinct = true)
    {document : Document} (hmem : document ∈ documents) (hurl : document.url.Formed)
    {options : Options} (hdraft : options.draft = none) {c inside : Compiler} {schema : Members}
    (hvisible : Visible ((ofDocuments documents).compilerFor document.url.withoutFragment
      document.schema document.schema false options) document.schema c (.object schema))
    (hinside : Node.Inside schema c inside) :
    (ofDocuments documents).registry.contains
        inside.resolver.scope.withoutFragment.text = true ∧
      ∀ reference key, Url.isLocal reference = true → '#' ∉ key.toList →
        inside.resolver.resolve reference ≠ .error (.refResolution reference
          inside.resolver.scope.text ("no document is registered as " ++ key)) := by
  have hscoped := Scoped.of_visible hkeys hmem (.start hkeys hmem hurl hdraft) hvisible
  have hregistered := hscoped.inside_registered hkeys hmem hinside
  have hresolver : inside.resolver.registry = documents.foldl Registry.insert .empty ∧
      inside.resolver.aliases = [] := by
    rcases hinside.eq_or_enter with rfl | ⟨id, url, -, rfl⟩
    · exact ⟨hscoped.registry_eq, hscoped.aliases_eq⟩
    · exact ⟨hscoped.registry_eq, hscoped.aliases_eq⟩
  obtain ⟨hregistry, haliases⟩ := hresolver
  obtain ⟨root, hroot⟩ := Registry.exists_get?_of_contains hkeys hregistered
  rw [registry_ofDocuments]
  refine ⟨hregistered, fun reference key hlocal hkey => ?_⟩
  exact Resolver.resolve_registered haliases (hregistry ▸ hroot) hlocal hkey

/-- A schema with an identifier of its own, in which a reference leads to what stands beside. -/
def identifiedSchema : Members :=
  [("$id", .string "http://example.com/e.json"), ("type", .string "object"),
    ("properties", .object [("a", .object [("$ref", .string "#/t")])]),
    ("t", .object [("type", .string "string")])]

def holderSchema (key : String) : Members :=
  [("type", .string "object"), ("properties", .object [(key, .object identifiedSchema)])]

def holderDocuments (key : String) : List Document :=
  [⟨Document.defaultUrl, .object (holderSchema key)⟩]

def holderCompiler (key : String) : Compiler :=
  (Session.ofDocuments (holderDocuments key)).compilerFor Document.defaultUrl.withoutFragment
    (.object (holderSchema key)) (.object (holderSchema key)) false {}

def identifiedUrl : Url :=
  { scheme := "http", authority := some { host := "example.com" }, path := "/e.json"
    query := none, fragment := none }

/-- Where the keywords of the identified schema are compiled. -/
def identifiedPlace (key : String) : Compiler :=
  let c := (holderCompiler key).atProperty key
  c.within (c.resolver.enter identifiedUrl)

theorem holder_property {key : String} (hkey : key ∉ Node.reservedNames) :
    Node.HasProperty (holderSchema key) key (.object identifiedSchema) where
  typed := ⟨rfl, "object", List.mem_singleton_self _, rfl⟩
  member := ⟨_, rfl, List.mem_singleton_self _⟩
  free := hkey

theorem inside_identified (key : String) :
    Node.Inside identifiedSchema ((holderCompiler key).atProperty key) (identifiedPlace key) := by
  have hjoin : Document.defaultUrl.withoutFragment.join "http://example.com/e.json" =
      .ok identifiedUrl := by
    decide +kernel
  have henter : ((holderCompiler key).atProperty key).resolver.enterId "http://example.com/e.json" =
      .ok ((holderCompiler key).atProperty key |>.resolver.enter identifiedUrl) :=
    congrArg (Except.map _) hjoin
  exact ⟨_, henter, rfl⟩

theorem Session.enters_registered_part :
    Visible (holderCompiler "part") (.object (holderSchema "part"))
        ((holderCompiler "part").atProperty "part") (.object identifiedSchema) ∧
      (ofDocuments (holderDocuments "part")).registry.contains "http://example.com/e.json" = true ∧
      ∀ reference key, Url.isLocal reference = true → '#' ∉ key.toList →
        (identifiedPlace "part").resolver.resolve reference ≠ .error (.refResolution reference
          "http://example.com/e.json" ("no document is registered as " ++ key)) := by
  have hshown : Node.ShowsProperty (holderCompiler "part").draft (holderSchema "part") "part"
      (.object identifiedSchema) :=
    ⟨holder_property (by decide), by decide, by rintro _ ⟨⟩; rfl⟩
  have hvisible : Visible (holderCompiler "part") (.object (holderSchema "part"))
      ((holderCompiler "part").atProperty "part") (.object identifiedSchema) :=
    .property .root rfl hshown
  have htext : (identifiedPlace "part").resolver.scope.withoutFragment.text =
      "http://example.com/e.json" := by
    decide +kernel
  have hkeys : ∀ document ∈ holderDocuments "part",
      document.schema.everyObject Members.distinct = true := by
    decide +kernel
  have hentered := enters_registered hkeys (List.mem_singleton_self _) (Url.formed_ofFilePath _)
    rfl hvisible (inside_identified "part")
  rw [htext] at hentered
  exact ⟨hvisible, hentered⟩

/-- The schema of a property that is named like a keyword for data is compiled in its own scope, but nothing
is registered there. -/
theorem Session.enters_unregistered_enum :
    let place := identifiedPlace "enum"
    Compiling (holderCompiler "enum") (.object (holderSchema "enum")) []
        ((holderCompiler "enum").atProperty "enum") (.object identifiedSchema) ∧
      Node.Inside identifiedSchema ((holderCompiler "enum").atProperty "enum") place ∧
      (ofDocuments (holderDocuments "enum")).registry.contains
        place.resolver.scope.withoutFragment.text = false ∧
      place.resolver.resolve "#/t" = .error (.refResolution "#/t" "http://example.com/e.json"
        "no document is registered as http://example.com/e.json") := by
  intro place
  have hcompiling : Compiling (holderCompiler "enum") (.object (holderSchema "enum")) []
      ((holderCompiler "enum").atProperty "enum") (.object identifiedSchema) :=
    .property .root rfl (holder_property (by decide))
  have hresolve : (match place.resolver.resolve "#/t" with
      | .error failure => failure == .refResolution "#/t" "http://example.com/e.json"
          "no document is registered as http://example.com/e.json"
      | .ok _ => false) = true := by
    decide +kernel
  refine ⟨hcompiling, inside_identified "enum", by decide +kernel, ?_⟩
  split at hresolve
  · next failure hfailure => rw [hfailure, eq_of_beq hresolve]
  · cases hresolve

end SchemaShape
