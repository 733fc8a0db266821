import SchemaShape.Proofs.Compiler.Success
import SchemaShape.Proofs.Narrowing.Path
import SchemaShape.Proofs.Resolver
import SchemaShape.Proofs.Session
import SchemaShape.Proofs.Shape

/-! # The scope of a narrowed document

A narrowed schema has another identifier, so its references are looked up in another scope, which an
alias leads back to the document. An alias helps references that start with `#` and no others: so
every schema that a compile gets to has to refer in this way, also the ones that stand in a document
that was registered under the identifier.
-/

namespace SchemaShape
set_option autoImplicit false

open Correspondence Narrowing

/-! ## What a compile gets to -/

/-- The URL that the references of a document are relative to. -/
def rootScope (draft : Draft) (url : Url) (root : Members) : Url :=
  match draft.idOf? root with
  | none => url.withoutFragment
  | some id => (url.withoutFragment.join id).toOption.getD url.withoutFragment

namespace Resolver

/-- The schemas that a schema contains or refers to, directly or through others. -/
inductive Reaches (resolver : Resolver) (start : Json) : Json → Prop where
  | start : Reaches resolver start start
  | part {schema : Members} {part : Json} (h : Reaches resolver start (.object schema))
      (hpart : Node.Subschema schema part) : Reaches resolver start part
  | target {schema : Members} {reference : String} {url : Url} {target : Json}
      (h : Reaches resolver start (.object schema))
      (hget : schema.get? "$ref" = some (.string reference))
      (hresolve : resolver.resolve reference = .ok (url, target)) : Reaches resolver start target

end Resolver

/-- The schema has no scope of its own, and refers to other parts of its document. -/
structure KeepsScope (draft : Draft) (schema : Members) : Prop where
  unscoped : draft.idOf? schema = none
  refers : refersLocally schema = true
  other : schema.get? "$ref" ≠ some (.string "#")

theorem KeepsScope.isLocal {draft : Draft} {schema : Members} {reference : String}
    (h : KeepsScope draft schema) (hget : schema.get? "$ref" = some (.string reference)) :
    Url.isLocal reference = true := by
  have hlocal := h.refers
  rw [refersLocally, hget] at hlocal
  exact hlocal

/-! ## Two compiles side by side -/

/-- References to places in the scopes are looked up in one document. -/
structure SameDocument (registry : Registry) (scope scope' : Url)
    (resolver resolver' : Resolver) : Prop where
  registry_eq : resolver.registry = registry ∧ resolver'.registry = registry
  scope_eq : (∃ fragment, resolver.scope = { scope with fragment }) ∧
    ∃ fragment, resolver'.scope = { scope' with fragment }
  document_eq : resolver.documentOf scope = scope.withoutFragment.text ∧
    resolver'.documentOf scope' = scope.withoutFragment.text

/-- The compilers are at one node, in scopes of their own. -/
structure Alongside (registry : Registry) (draft : Draft) (scope scope' : Url)
    (c c' : Compiler) : Prop where
  draft_eq : c.draft = draft ∧ c'.draft = draft
  repeats_eq : c.refusesRepeats = c'.refusesRepeats
  name_eq : c.recordName = c'.recordName
  resolvers : SameDocument registry scope scope' c.resolver c'.resolver
  active_eq : ∃ fragments : List (Option String),
    c.active = fragments.map (fun fragment => ({ scope with fragment } : Url).text) ∧
    c'.active = fragments.map (fun fragment => ({ scope' with fragment } : Url).text)

/-- The two sides give the same shapes up to outer flags. -/
def sameErased (registry : Registry) (draft : Draft) (scope scope' : Url) (start : Json) :
    Correspondence where
  admits := Resolver.Reaches { registry, base := scope } start
  states := Alongside registry draft scope scope'
  shapes := Shape.SameErased
  flags := fun _ _ => True
  entries := fun _ _ => True
  failures := fun _ _ => True

section

variable {registry : Registry} {draft : Draft} {scope scope' : Url} {start : Json} {c c' : Compiler}

theorem recordName_atProperty (c : Compiler) (key : String) :
    (c.atProperty key).recordName = c.recordName ++ Name.ofTitle key := by
  simp [Compiler.recordName, Compiler.atProperty, String.join_append, String.append_assoc]

theorem contains_text {url : Url} {fragments : List (Option String)} {fragment : Option String} :
    (fragments.map fun fragment => ({ url with fragment } : Url).text).contains
      ({ url with fragment } : Url).text = fragments.contains fragment := by
  induction fragments with
  | nil => rfl
  | cons first rest ih =>
    rw [List.map_cons, List.contains_cons, List.contains_cons, ih]
    congr 1
    rw [Bool.eq_iff_iff, beq_iff_eq, beq_iff_eq, Url.text_fragment_inj]

theorem SameDocument.target_eq {resolver resolver' : Resolver}
    (h : SameDocument registry scope scope' resolver resolver') (fragment : Option String) :
    resolver.target { scope with fragment } =
        Resolver.target { registry, base := scope } { scope with fragment } ∧
      resolver'.target { scope' with fragment } =
        Resolver.target { registry, base := scope } { scope with fragment } := by
  have hdocument : resolver.documentOf { scope with fragment } =
      Resolver.documentOf { registry, base := scope } { scope with fragment } := h.document_eq.1
  have hdocument' : resolver'.documentOf { scope' with fragment } =
      Resolver.documentOf { registry, base := scope } { scope with fragment } := h.document_eq.2
  constructor
  · refine Resolver.target_congr rfl hdocument fun key _ => ?_
    rw [h.registry_eq.1]
  · refine Resolver.target_congr rfl hdocument' fun key _ => ?_
    rw [h.registry_eq.2]

theorem resolve_local {resolver : Resolver} {url : Url} {reference : String}
    (hscope : ∃ fragment, resolver.scope = { url with fragment })
    (hlocal : Url.isLocal reference = true) :
    resolver.scope.join reference = .ok { url with fragment := Url.fragmentOf reference } := by
  obtain ⟨fragment, hscope⟩ := hscope
  rw [hscope, Url.join_local hlocal]

theorem Alongside.resolves (h : Alongside registry draft scope scope' c c') {schema : Members}
    {reference : String} (hlocal : Url.isLocal reference = true)
    (hreaches : Resolver.Reaches { registry, base := scope } start (.object schema))
    (hget : schema.get? "$ref" = some (.string reference)) :
    (sameErased registry draft scope scope' start).Resolves reference c c' := by
  have hjoin := resolve_local h.resolvers.scope_eq.1 hlocal
  have hjoin' := resolve_local h.resolvers.scope_eq.2 hlocal
  have hbase : ∃ fragment, Resolver.scope { registry, base := scope } = { scope with fragment } :=
    ⟨scope.fragment, rfl⟩
  have hstart := resolve_local hbase hlocal
  obtain ⟨htarget, htarget'⟩ := h.resolvers.target_eq (Url.fragmentOf reference)
  rw [Resolves, ResolvesTo]
  simp only [Resolver.resolve, hjoin, hjoin', htarget, htarget']
  cases hfound : Resolver.target { registry, base := scope }
      { scope with fragment := Url.fragmentOf reference } with
  | error e => trivial
  | ok node =>
    have hresolve : Resolver.resolve { registry, base := scope } reference =
        .ok ({ scope with fragment := Url.fragmentOf reference }, node) := by
      simp only [Resolver.resolve, hstart, hfound]
      rfl
    obtain ⟨fragments, hactive, hactive'⟩ := h.active_eq
    refine ⟨fun _ _ => rfl, .target hreaches hget hresolve, .inl ?_, fun _ => ?_⟩
    · rw [Compiler.refuses, Compiler.refuses, h.repeats_eq, hactive, hactive', contains_text,
        contains_text]
    · refine ⟨h.draft_eq, h.repeats_eq, h.name_eq,
        ⟨h.resolvers.registry_eq, ⟨⟨_, rfl⟩, ⟨_, rfl⟩⟩, h.resolvers.document_eq⟩,
        Url.fragmentOf reference :: fragments, ?_, ?_⟩
      · simp only [Compiler.atTarget, hactive, List.map_cons]
      · simp only [Compiler.atTarget, hactive', List.map_cons]

theorem sameErased_lawful
    (hkeeps : ∀ schema, Resolver.Reaches { registry, base := scope } start (.object schema) →
      KeepsScope draft schema) : (sameErased registry draft scope scope' start).Lawful where
  part := fun h hpart => .part h hpart
  below := fun _ h => ⟨h.draft_eq, h.repeats_eq, h.name_eq, h.resolvers, h.active_eq⟩
  atProperty := by
    intro c c' key h
    have hname : (c.atProperty key).recordName = (c'.atProperty key).recordName := by
      rw [recordName_atProperty, recordName_atProperty, h.name_eq]
    exact ⟨h.draft_eq, h.repeats_eq, hname, h.resolvers, h.active_eq⟩
  ids := fun {schema} _ _ _ h =>
    congrArg (·.idOf? schema) (h.draft_eq.1.trans h.draft_eq.2.symm)
  integers := fun h => congrArg (fun draft : Draft => draft.integerShape.erased)
    (h.draft_eq.1.trans h.draft_eq.2.symm)
  enters := by
    intro schema c c' id hreaches h hid
    rw [h.draft_eq.1, (hkeeps schema hreaches).unscoped] at hid
    cases hid
  resolves := by
    intro schema c c' reference hreaches h hget _
    exact h.resolves ((hkeeps schema hreaches).isLocal hget) hreaches hget
  self := by
    intro schema c c' hreaches _ hget
    exact absurd hget (hkeeps schema hreaches).other
  warning := fun _ _ _ => trivial
  malformed := fun _ _ => trivial
  unsupported := fun _ _ => trivial
  rootType := fun _ _ => trivial
  refCycle := fun _ _ => trivial
  inner := trivial
  fixed := fun _ _ => rfl
  nothing := fun h => h.isNothing_eq
  union := by
    intro members members' h
    simp only [sameErased, Shape.SameErased, Shape.erased, Shape.erasedList_eq h]
  list := by
    intro element element' h
    have heq : element.erased = element'.erased := h
    simp only [sameErased, Shape.SameErased, Shape.erased, heq]
  tuple := by
    intro elements elements' h
    simp only [sameErased, Shape.SameErased, Shape.erased, Shape.erasedList_eq h]
  record := by
    intro c c' outer outer' fields fields' h _ hfields
    simp only [sameErased, Shape.SameErased, Shape.erased, Shape.erasedFields_eq hfields, h.name_eq]

end

/-! ## Identifiers and aliases -/

theorem Draft.idOf?_alike {schema : Members} (draft : Draft) (h : schema.get? "id" = none) :
    draft.idOf? schema = (schema.get? "$id").bind Json.asString? := by
  cases hown : (schema.get? "$id").bind Json.asString? with
  | some id => simp only [Draft.idOf?, hown]
  | none => cases draft <;> simp only [Draft.idOf?, hown, h, Option.bind_none]

theorem get?_of_idOf? {draft : Draft} {schema : Members} {id : String}
    (hnone : schema.get? "id" = none) (h : draft.idOf? schema = some id) :
    schema.get? "$id" = some (.string id) := by
  rw [draft.idOf?_alike hnone] at h
  obtain ⟨value, hget, hvalue⟩ := Option.bind_eq_some_iff.mp h
  cases value with
  | string text =>
    cases hvalue
    exact hget
  | _ => cases hvalue

theorem idOf?_bare {draft : Draft} {schema : Members}
    (h : ∀ keyword ∈ "id" :: inheritedKeywords, schema.get? keyword = none) :
    draft.idOf? schema = none := by
  rw [draft.idOf?_alike (h "id" (by decide)), h "$id" (by decide)]
  rfl

theorem Narrowing.Leads.bare {schema node : Members} {path : List String} (h : Leads schema path node)
    (hpath : path ≠ []) : ∀ keyword ∈ "id" :: inheritedKeywords, node.get? keyword = none := by
  induction h with
  | here => exact absurd rfl hpath
  | @step schema properties child node segment rest _ _ _ _ hbare h ih =>
    cases h with
    | here => exact hbare
    | step => exact ih (List.cons_ne_nil _ _)

theorem Node.inside_bare {schema : Members} {c place : Compiler}
    (h : c.draft.idOf? schema = none) (hinside : Node.Inside schema c place) : place = c := by
  rw [Node.Inside, h] at hinside
  exact hinside

theorem Narrowing.Carries.idOf?_eq {root node narrowed : Members} {path : List String}
    (h : Carries root path node narrowed) (draft : Draft) (hroot : root.get? "id" = none)
    (hnode : node.get? "id" = none) :
    draft.idOf? narrowed = (draft.idOf? root).map (textAlong "/" · path) := by
  have hnarrowed : narrowed.get? "id" = none := (h.others "id" (by decide)).trans hnode
  rw [draft.idOf?_alike hroot, draft.idOf?_alike hnarrowed, h.id]
  cases root.get? "$id" with
  | none => rfl
  | some value => cases value <;> rfl

theorem Resolver.documentOf_addAlias {resolver : Resolver} (h : resolver.aliases = [])
    (url target : Url) :
    (resolver.addAlias url target).documentOf url = target.withoutFragment.text := by
  simp only [addAlias]
  split
  · next heq =>
    rw [documentOf_plain h]
    exact heq
  · simp [documentOf]

theorem Resolver.addAlias_keeps (resolver : Resolver) (url target : Url) :
    (resolver.addAlias url target).registry = resolver.registry ∧
      (resolver.addAlias url target).scope = resolver.scope := by
  rw [addAlias]
  split
  · exact ⟨rfl, rfl⟩
  · exact ⟨rfl, rfl⟩

section

variable {draft : Draft} {root narrowed : Members} {resolver : Resolver}

theorem Session.aliasNarrowed_keeps (draft : Draft) (whole narrowed : Json) (resolver : Resolver) :
    (Session.aliasNarrowed draft whole narrowed resolver).registry = resolver.registry ∧
      (Session.aliasNarrowed draft whole narrowed resolver).scope = resolver.scope := by
  simp only [Session.aliasNarrowed]
  split
  · exact ⟨rfl, rfl⟩
  · split
    · exact resolver.addAlias_keeps _ _
    · exact ⟨rfl, rfl⟩

theorem Session.aliasNarrowed_none (h : draft.idOf? narrowed = none) :
    Session.aliasNarrowed draft (.object root) (.object narrowed) resolver = resolver := by
  rw [Session.aliasNarrowed]
  simp only [Json.asMembers?, Option.bind_some, h]

/-- The identifier of a narrowed schema stands for the identifier of its document, or for its base. -/
theorem Session.aliasNarrowed_some {id : String} {scope scope' : Url}
    (h : draft.idOf? narrowed = some id) (hjoin : resolver.base.join id = .ok scope')
    (hscope : (draft.idOf? root).elim (.ok resolver.base) resolver.base.join = .ok scope) :
    Session.aliasNarrowed draft (.object root) (.object narrowed) resolver =
      resolver.addAlias scope' scope := by
  rw [Session.aliasNarrowed]
  simp only [Json.asMembers?, Option.bind_some, h, hjoin]
  cases hroot : draft.idOf? root with
  | none =>
    rw [hroot] at hscope
    cases hscope
    rfl
  | some id =>
    rw [hroot, Option.elim_some] at hscope
    simp only [hscope]

end

/-- At the two roots references are looked up in one document. -/
theorem sameDocument_roots {registry : Registry} {draft : Draft} {url : Url}
    {root narrowed : Members} {append : String → String} {c c' place : Compiler}
    (hc : c.draft = draft ∧ c.resolver = { registry, base := url.withoutFragment })
    (hc' : c'.draft = draft ∧ c'.resolver = Session.aliasNarrowed draft (.object root)
      (.object narrowed) { registry, base := url.withoutFragment })
    (hid : draft.idOf? narrowed = (draft.idOf? root).map append)
    (hjoin : ∀ id, draft.idOf? narrowed = some id →
      ∃ joined, url.withoutFragment.join id = .ok joined)
    (hinside : Node.Inside root c place) :
    ∃ resolver resolver' scope', place = c.within resolver ∧
      Node.Inside narrowed c' (c'.within resolver') ∧
      SameDocument registry (rootScope draft url root) scope' resolver resolver' := by
  rw [Node.Inside, hc.1] at hinside
  cases hroot : draft.idOf? root with
  | none =>
    have hnarrowed : draft.idOf? narrowed = none := by rw [hid, hroot]; rfl
    have hscope : rootScope draft url root = url.withoutFragment := by rw [rootScope, hroot]
    have halias : c'.resolver = { registry, base := url.withoutFragment } := by
      rw [hc'.2, Session.aliasNarrowed_none hnarrowed]
    rw [hroot] at hinside
    refine ⟨c.resolver, c'.resolver, url.withoutFragment, hinside, ?_, ?_⟩
    · rw [Node.Inside, hc'.1, hnarrowed]
      rfl
    · rw [hscope, hc.2, halias]
      exact ⟨⟨rfl, rfl⟩, ⟨⟨none, rfl⟩, ⟨none, rfl⟩⟩, Resolver.documentOf_plain rfl _,
        Resolver.documentOf_plain rfl _⟩
  | some id =>
    have hnarrowed : draft.idOf? narrowed = some (append id) := by rw [hid, hroot]; rfl
    obtain ⟨scope', hscope'⟩ := hjoin _ hnarrowed
    rw [hroot] at hinside
    obtain ⟨resolver, henter, rfl⟩ := hinside
    obtain ⟨scope, hscope, rfl⟩ := Resolver.enterId_ok henter
    have hbase : url.withoutFragment.join id = .ok scope := by
      rw [hc.2] at hscope
      exact hscope
    have hrootScope : rootScope draft url root = scope := by
      rw [rootScope, hroot]
      simp only [hbase]
      rfl
    let plain : Resolver := { registry, base := url.withoutFragment }
    have halias : c'.resolver = plain.addAlias scope' scope := by
      rw [hc'.2]
      exact Session.aliasNarrowed_some hnarrowed hscope' (by rw [hroot]; exact hbase)
    obtain ⟨hregistry, hplain⟩ := plain.addAlias_keeps scope' scope
    refine ⟨_, c'.resolver.enter scope', scope', rfl, ?_, ?_⟩
    · rw [Node.Inside, hc'.1, hnarrowed]
      refine ⟨c'.resolver.enter scope', ?_, rfl⟩
      rw [Resolver.enterId, halias, hplain]
      show (url.withoutFragment.join (append id)).map _ = _
      rw [hscope']
      rfl
    · rw [hrootScope, hc.2, halias]
      exact ⟨⟨rfl, hregistry⟩, ⟨⟨scope.fragment, rfl⟩, ⟨scope'.fragment, rfl⟩⟩,
        Resolver.documentOf_plain rfl _, Resolver.documentOf_addAlias rfl scope' scope⟩

end SchemaShape
