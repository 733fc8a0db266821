import SchemaShape.Proofs.Compiler.Lockstep
import SchemaShape.Proofs.Resolver
import SchemaShape.Proofs.Session
import SchemaShape.Proofs.Url.Fragment

/-! # Documents of a session by themselves

A document whose references all start with `#` compiles in a session as it does alone, provided that
the other documents do not take away what such references are looked up under: the URLs that its
schemas can have as their scope, and the anchors in these.

The proviso is needed. A document with an identifier looks its references up under that identifier;
another document that is registered there, or that claimed the same anchor before, supplies the
targets.
-/

namespace SchemaShape
set_option autoImplicit false

open Correspondence
open Registry (IsKeyIn Undisturbed)

namespace Document

/-- The URLs that a schema of a document may have as its scope: that of the document, those that
identifiers lead to from there, and places in these. -/
inductive Scope (draft : Draft) (document : Document) : Url → Prop where
  | base : Scope draft document document.url.withoutFragment
  | identifier {scope joined : Url} {members : Members} {id : String}
      (h : Scope draft document scope) (within : (Json.object members).Within document.schema)
      (hid : draft.idOf? members = some id) (hjoin : scope.join id = .ok joined) :
      Scope draft document joined
  | place {scope : Url} (h : Scope draft document scope) (fragment : Option String) :
      Scope draft document { scope with fragment }

end Document

section

variable {draft : Draft} {before after : List Document} {document : Document}

/-! ## Lookups -/

theorem within_of_alone {key : String} {node : Json}
    (h : (Registry.empty.insert document).get? key = some node) : node.Within document.schema := by
  rw [Registry.get?, Registry.locate?_alone] at h
  cases hdenoted : document.denoted? key with
  | none =>
    rw [hdenoted] at h
    cases h
  | some pointer =>
    rw [hdenoted] at h
    exact Json.within_at? h

theorem Resolver.locateAnchor?_of_denoted {url : Url} {schema schema' : Json} {r r' : Resolver}
    (hregistry : r.registry = Registry.empty.insert ⟨url, schema⟩)
    (hother : r' = { r with registry := Registry.empty.insert ⟨url, schema'⟩ })
    (hdenoted : ∀ key, Document.denoted? ⟨url, schema'⟩ key = Document.denoted? ⟨url, schema⟩ key)
    (target : Url) : r.locateAnchor? target = r'.locateAnchor? target := by
  rw [hother]
  simp only [locateAnchor?, hregistry, Registry.locate?_alone, hdenoted, Option.bind_eq_bind,
    Option.bind_map]
  rfl

/-! ## Two compiles side by side -/

/-- In the session and alone, the document is at the same place. -/
structure Companions (draft : Draft) (before after : List Document) (document : Document)
    (c c' : Compiler) : Prop where
  alone : c' = { c with resolver := { c.resolver with registry := Registry.empty.insert document } }
  registry : c.resolver.registry = (before ++ document :: after).foldl Registry.insert .empty
  sameDraft : c.draft = draft
  aliases : c.resolver.aliases = []
  base : document.Scope draft c.resolver.base
  entered : ∀ url ∈ c.resolver.entered, document.Scope draft url

theorem Companions.scope {c c' : Compiler} (h : Companions draft before after document c c') :
    document.Scope draft c.resolver.scope := by
  rw [Resolver.scope]
  cases hentered : c.resolver.entered with
  | nil => exact h.base
  | cons url rest => exact h.entered url (hentered ▸ List.mem_cons_self ..)

theorem Companions.scope_eq {c c' : Compiler} (h : Companions draft before after document c c') :
    c'.resolver.scope = c.resolver.scope := by
  rw [h.alone]
  rfl

theorem Companions.enter {c c' : Compiler} {url : Url}
    (h : Companions draft before after document c c') (hurl : document.Scope draft url) :
    Companions draft before after document (c.within (c.resolver.enter url))
      (c'.within (c'.resolver.enter url)) := by
  obtain ⟨rfl, hregistry, hdraft, haliases, hbase, hentered⟩ := h
  refine ⟨rfl, hregistry, hdraft, haliases, hbase, fun other mem => ?_⟩
  rcases List.mem_cons.mp mem with rfl | hrest
  · exact hurl
  · exact hentered other hrest

end

/-! ## Sessions -/

theorem get?_own (before : List Document) {after : List Document} {document : Document}
    (hlast : ∀ other ∈ after, other.key ≠ document.key) :
    (Session.ofDocuments (before ++ document :: after)).registry.get?
      document.url.withoutFragment.text = some document.schema := by
  rw [Session.registry_ofDocuments, Registry.get?]
  show ((List.foldl Registry.insert .empty (before ++ document :: after)).locate?
    document.key >>= _) = _
  rw [Registry.locate?_undisturbed (fun _ => hlast) fun hne => absurd rfl hne, Document.denoted?,
    if_pos rfl]
  rfl

theorem get?_alone (document : Document) : (Session.ofDocuments [document]).registry.get?
    document.url.withoutFragment.text = some document.schema :=
  get?_own [] fun _ mem => absurd mem List.not_mem_nil

/-- A property of the type that a definition gives. -/
def definedSchema (type : String) : Json :=
  .object [("type", .string "object"),
    ("properties", .object [("p", .object [("$ref", .string "#/definitions/t")])]),
    ("definitions", .object [("t", .object [("type", .string type)])])]

/-- A property of the type that an anchor leads to. -/
def anchoredSchema (type : String) : Json :=
  .object [("type", .string "object"),
    ("properties", .object [("p", .object [("$ref", .string "#t")])]),
    ("definitions", .object [("t", .object [("$id", .string "#t"), ("type", .string type)])])]

end SchemaShape
