import SchemaShape.Proofs.Json.Parts
import SchemaShape.Proofs.Url.Fragment
import SchemaShape.Resolver

/-! # What references resolve to

A resolver looks up two kinds of keys: the document that a URL points into, and the anchors in it. Two
resolvers whose lookups agree resolve alike. `r.Agree r' reference` says that a reference leads from both
to one node of one registered document, or from neither to any.
-/

namespace SchemaShape
set_option autoImplicit false

/-- Whether a node with a reference refers to its own document. -/
def refersLocally (schema : Members) : Bool :=
  match schema.get? "$ref" with
  | some (.string reference) => Url.isLocal reference
  | _ => true

/-- The key is the one of a document, or of an anchor in it. -/
def Registry.IsKeyIn (document key : String) : Prop :=
  key = document ∨ ∃ anchor, key = document ++ "#" ++ anchor

theorem ok_of_toOption {ε α : Type} {result : Except ε α} {value : α}
    (h : result.toOption = some value) : result = .ok value := by
  cases result with
  | error e => cases h
  | ok found =>
    cases h
    rfl

namespace Resolver

open Registry (IsKeyIn)

variable {r r' : Resolver} {url url' : Url}

theorem documentOf_plain (h : r.aliases = []) (url : Url) :
    r.documentOf url = url.withoutFragment.text := by
  rw [documentOf, h]
  rfl

theorem get?_congr {registry registry' : Registry} {key : String}
    (h : registry.locate? key = registry'.locate? key) : registry.get? key = registry'.get? key := by
  rw [Registry.get?, Registry.get?, h]

theorem target_congr (hfragment : url.fragment = url'.fragment)
    (hdocument : r.documentOf url = r'.documentOf url')
    (hlocate : ∀ key, IsKeyIn (r.documentOf url) key →
      r.registry.locate? key = r'.registry.locate? key) : r.target url = r'.target url' := by
  have hroot := get?_congr (hlocate _ (.inl rfl))
  have hanchor : ∀ anchor, r.registry.get? (r.documentOf url ++ "#" ++ anchor) =
      r'.registry.get? (r.documentOf url ++ "#" ++ anchor) :=
    fun anchor => get?_congr (hlocate _ (.inr ⟨anchor, rfl⟩))
  simp only [target, fragmentTarget?, ← hfragment, ← hdocument, hroot, hanchor]

theorem target_of_lookups (hregistry : r.registry = r'.registry) (haliases : r.aliases = r'.aliases)
    (url : Url) : r.target url = r'.target url := by
  refine target_congr rfl ?_ fun key _ => ?_
  · rw [documentOf, documentOf, haliases]
  · rw [hregistry]

theorem locateAnchor?_congr (hfragment : url.fragment = url'.fragment)
    (hdocument : r.documentOf url = r'.documentOf url')
    (hlocate : ∀ key, IsKeyIn (r.documentOf url) key →
      r.registry.locate? key = r'.registry.locate? key) :
    r.locateAnchor? url = r'.locateAnchor? url' := by
  have hanchor : ∀ anchor, r.registry.locate? (r.documentOf url ++ "#" ++ anchor) =
      r'.registry.locate? (r.documentOf url ++ "#" ++ anchor) :=
    fun anchor => hlocate _ (.inr ⟨anchor, rfl⟩)
  simp only [locateAnchor?, ← hfragment, ← hdocument, hanchor]

theorem target_ok {node : Json} (h : r.target url = .ok node) :
    ∃ fragment root, Percent.decode (url.fragment.getD "").toList = .ok fragment ∧
      r.registry.get? (r.documentOf url) = some root ∧
      r.fragmentTarget? (r.documentOf url) root (String.ofList fragment) = some node := by
  simp only [target] at h
  cases hdecode : Percent.decode (url.fragment.getD "").toList with
  | error e =>
    rw [hdecode] at h
    cases h
  | ok fragment =>
    rw [hdecode] at h
    cases hroot : r.registry.get? (r.documentOf url) with
    | none =>
      simp only [hroot] at h
      cases h
    | some root =>
      simp only [hroot] at h
      cases htarget : r.fragmentTarget? (r.documentOf url) root (String.ofList fragment) with
      | none =>
        simp only [bind, Except.bind, htarget] at h
        cases h
      | some found =>
        simp only [bind, Except.bind, htarget] at h
        cases h
        exact ⟨fragment, root, rfl, rfl, htarget⟩

theorem target_error {root : Json} {reason : String} (h : r.target url = .error reason)
    (hroot : r.registry.get? (r.documentOf url) = some root) :
    (∃ failure : Text.Utf8.Failure, reason = "fragment is not UTF-8: " ++ failure.message) ∨
      ∃ fragment, reason = r.documentOf url ++ " has nothing at #" ++ fragment := by
  simp only [target, hroot] at h
  cases hdecode : Percent.decode (url.fragment.getD "").toList with
  | error failure =>
    rw [hdecode] at h
    cases h
    exact .inl ⟨failure, rfl⟩
  | ok fragment =>
    rw [hdecode] at h
    cases htarget : r.fragmentTarget? (r.documentOf url) root (String.ofList fragment) with
    | none =>
      simp only [bind, Except.bind, htarget] at h
      cases h
      exact .inr ⟨_, rfl⟩
    | some node =>
      simp only [bind, Except.bind, htarget] at h
      cases h

theorem target_of_fragment {fragment : List Char} {root node : Json}
    (hdecode : Percent.decode (url.fragment.getD "").toList = .ok fragment)
    (hroot : r.registry.get? (r.documentOf url) = some root)
    (htarget : r.fragmentTarget? (r.documentOf url) root (String.ofList fragment) = some node) :
    r.target url = .ok node := by
  simp only [target, hdecode, hroot, bind, Except.bind, htarget]

/-- Where lookups correspond, so do targets, or both sides say the same of why there is none. -/
theorem target_rel {related : Json → Json → Prop} (hdocument : r.documentOf url = r'.documentOf url)
    (hroot : Option.Rel related (r.registry.get? (r.documentOf url))
      (r'.registry.get? (r.documentOf url)))
    (hfragment : ∀ fragment root root', Percent.decode (url.fragment.getD "").toList = .ok fragment →
      related root root' → Option.Rel related
        (r.fragmentTarget? (r.documentOf url) root (String.ofList fragment))
        (r'.fragmentTarget? (r.documentOf url) root' (String.ofList fragment))) :
    (∃ node node', r.target url = .ok node ∧ r'.target url = .ok node' ∧ related node node') ∨
      ∃ reason, r.target url = .error reason ∧ r'.target url = .error reason := by
  simp only [target, ← hdocument, bind, Except.bind]
  cases hdecode : Percent.decode (url.fragment.getD "").toList with
  | error failure => exact .inr ⟨_, rfl, rfl⟩
  | ok fragment =>
    generalize r.registry.get? (r.documentOf url) = found at hroot ⊢
    generalize r'.registry.get? (r.documentOf url) = found' at hroot ⊢
    cases hroot with
    | none => exact .inr ⟨_, rfl, rfl⟩
    | @some root root' hroot =>
      have hnode := hfragment fragment root root' hdecode hroot
      simp only
      generalize r.fragmentTarget? (r.documentOf url) root (String.ofList fragment) = node at hnode ⊢
      generalize r'.fragmentTarget? (r.documentOf url) root' (String.ofList fragment) = node' at hnode ⊢
      cases hnode with
      | none => exact .inr ⟨_, rfl, rfl⟩
      | some h => exact .inl ⟨_, _, rfl, rfl, h⟩

theorem within_of_target {node : Json} (h : r.target url = .ok node) :
    ∃ key root, IsKeyIn (r.documentOf url) key ∧ r.registry.get? key = some root ∧
      node.Within root := by
  obtain ⟨fragment, root, -, hroot, htarget⟩ := target_ok h
  rw [fragmentTarget?] at htarget
  split at htarget
  · cases htarget
    exact ⟨_, _, .inl rfl, hroot, .refl _⟩
  · exact ⟨_, _, .inl rfl, hroot, Json.within_pointer? htarget⟩
  · exact ⟨_, _, .inr ⟨_, rfl⟩, htarget, .refl _⟩

theorem resolve_ok {reference : String} {node : Json} (h : r.resolve reference = .ok (url, node)) :
    r.scope.join reference = .ok url ∧ r.target url = .ok node := by
  simp only [resolve] at h
  split at h
  · cases h
  · next joined hjoin =>
    cases htarget : r.target joined with
    | error e =>
      rw [htarget] at h
      cases h
    | ok found =>
      rw [htarget] at h
      cases h
      exact ⟨hjoin, htarget⟩

theorem resolve_of_target {reference : String} {node : Json}
    (hjoin : r.scope.join reference = .ok url) (htarget : r.target url = .ok node) :
    r.resolve reference = .ok (url, node) := by
  simp only [resolve, hjoin, htarget]
  rfl

theorem resolve_of_no_join {reference : String} {e : UrlError}
    (hjoin : r.scope.join reference = .error e) :
    r.resolve reference = .error (.refResolution reference r.scope.text e.message) := by
  simp only [resolve, hjoin]

theorem resolve_of_no_target {reference reason : String} (hjoin : r.scope.join reference = .ok url)
    (htarget : r.target url = .error reason) :
    r.resolve reference = .error (.refResolution reference r.scope.text reason) := by
  simp only [resolve, hjoin, htarget]
  rfl

theorem resolve_error {reference : String} {failure : Failure}
    (h : r.resolve reference = .error failure) :
    ∃ reason, failure = .refResolution reference r.scope.text reason := by
  simp only [resolve] at h
  split at h
  · cases h
    exact ⟨_, rfl⟩
  · next joined hjoin =>
    cases htarget : r.target joined with
    | error e =>
      rw [htarget] at h
      cases h
      exact ⟨e, rfl⟩
    | ok found =>
      rw [htarget] at h
      cases h

theorem resolve_fails {reference : String} (h : ∀ url, r.scope.join reference = .ok url →
    ∃ reason, r.target url = .error reason) :
    ∃ failure, r.resolve reference = .error failure := by
  cases hresolve : r.resolve reference with
  | error failure => exact ⟨failure, rfl⟩
  | ok found =>
    obtain ⟨hjoin, htarget⟩ := resolve_ok hresolve
    obtain ⟨reason, hreason⟩ := h _ hjoin
    rw [htarget] at hreason
    cases hreason

/-- Where the references in a node are resolved: its identifier is entered. -/
def inside (resolver : Resolver) (draft : Draft) (schema : Members) :
    Except UrlError Resolver :=
  match draft.idOf? schema with
  | none => .ok resolver
  | some id => resolver.enterId id

/-! ## Places of targets -/

theorem place?_of_get? {registry : Registry} {key : String} {node : Json}
    (h : registry.get? key = some node) :
    ∃ place document, registry.place? key = some place ∧
      registry.documents[place.document]? = some document ∧
      document.schema.at? place.pointer = some node := by
  rw [Registry.get?, Option.bind_eq_bind, Option.bind_eq_some_iff] at h
  obtain ⟨⟨document, pointer⟩, hlocate, hnode⟩ := h
  rw [Registry.locate?, Option.bind_eq_bind, Option.bind_eq_some_iff] at hlocate
  obtain ⟨place, hplace, hdocument⟩ := hlocate
  rw [Option.bind_eq_bind, Option.bind_eq_some_iff] at hdocument
  obtain ⟨found, hfound, hpair⟩ := hdocument
  cases hpair
  exact ⟨place, document, hplace, hfound, hnode⟩

/-- The place of the node that a fragment names in a document, given the place of its root. -/
def fragmentPlace? (r : Resolver) (document : String) (root : Place) (fragment : String) :
    Option Place :=
  match fragment.toList with
  | [] => some root
  | '/' :: _ => (Pointer.ofText? fragment).map fun pointer => ⟨root.document, root.pointer ++ pointer⟩
  | _ => r.registry.place? (document ++ "#" ++ fragment)

/-- The place of the node that a URL names. -/
def place? (r : Resolver) (url : Url) : Option Place := do
  let fragment ← (Percent.decode (url.fragment.getD "").toList).toOption
  let root ← r.registry.place? (r.documentOf url)
  r.fragmentPlace? (r.documentOf url) root (String.ofList fragment)

theorem fragmentPlace?_of_target {document fragment : String} {root node : Json} {place : Place}
    {found : Document} (hdocument : r.registry.documents[place.document]? = some found)
    (hroot : found.schema.at? place.pointer = some root)
    (h : r.fragmentTarget? document root fragment = some node) :
    ∃ place' document', r.fragmentPlace? document place fragment = some place' ∧
      r.registry.documents[place'.document]? = some document' ∧
      document'.schema.at? place'.pointer = some node := by
  rw [fragmentTarget?] at h
  rw [fragmentPlace?]
  cases htext : fragment.toList with
  | nil =>
    simp only [htext, Option.some.injEq] at h ⊢
    exact ⟨place, found, rfl, hdocument, h ▸ hroot⟩
  | cons c text =>
    by_cases hslash : c = '/'
    · subst hslash
      simp only [htext, Json.pointer?, Option.bind_eq_some_iff] at h
      obtain ⟨pointer, hpointer, hnode⟩ := h
      simp only [hpointer, Option.map_some]
      refine ⟨⟨place.document, place.pointer ++ pointer⟩, found, rfl, hdocument, ?_⟩
      rw [Json.at?_append, hroot]
      exact hnode
    · simp only [htext, List.cons.injEq, hslash, false_and, imp_self, implies_true] at h ⊢
      exact place?_of_get? h

theorem place?_of_target {node : Json} (h : r.target url = .ok node) :
    ∃ place document, r.place? url = some place ∧
      r.registry.documents[place.document]? = some document ∧
      document.schema.at? place.pointer = some node := by
  obtain ⟨fragment, root, hdecode, hroot, htarget⟩ := target_ok h
  obtain ⟨place, document, hplace, hdocument, hat⟩ := place?_of_get? hroot
  have hfound : r.place? url =
      r.fragmentPlace? (r.documentOf url) place (String.ofList fragment) := by
    rw [place?, hdecode, hplace]
    rfl
  rw [hfound]
  exact fragmentPlace?_of_target hdocument hat htarget

theorem place?_congr (hfragment : url.fragment = url'.fragment)
    (hdocument : r.documentOf url = r'.documentOf url') (hregistry : r.registry = r'.registry) :
    r.place? url = r'.place? url' := by
  simp only [place?, fragmentPlace?, hfragment, hdocument, hregistry]

/-- Whether a URL names an anchor, and not the root of its document or a node by a pointer. -/
def namesAnchor (url : Url) : Bool :=
  match Percent.decode (url.fragment.getD "").toList with
  | .ok (first :: _) => first != '/'
  | _ => false

/-- If documents have their roots at one place, the same pointer leads to one place in both. -/
theorem target_of_place {node : Json} (hregistry : r'.registry = r.registry)
    (hfragment : url'.fragment = url.fragment) (hanchor : namesAnchor url = false)
    (hplace : r.registry.place? (r'.documentOf url') = r.registry.place? (r.documentOf url))
    (h : r.target url = .ok node) : r'.target url' = .ok node ∧ r'.place? url' = r.place? url := by
  obtain ⟨fragment, root, hdecode, hroot, htarget⟩ := target_ok h
  have hdecode' : Percent.decode (url'.fragment.getD "").toList = .ok fragment := by
    rw [hfragment, hdecode]
  have hroot' : r'.registry.get? (r'.documentOf url') = some root := by
    rw [← hroot, hregistry]
    simp only [Registry.get?, Registry.locate?, hplace]
  rw [namesAnchor, hdecode] at hanchor
  cases fragment with
  | nil =>
    refine ⟨target_of_fragment hdecode' hroot' htarget, ?_⟩
    simp only [place?, hdecode, hdecode', hregistry, hplace]
    rfl
  | cons first rest =>
    have hslash : first = '/' := by simpa using hanchor
    subst hslash
    have htarget' : r'.fragmentTarget? (r'.documentOf url') root (String.ofList ('/' :: rest)) =
        some node := by
      rw [← htarget, fragmentTarget?, fragmentTarget?, String.toList_ofList]
      rfl
    refine ⟨target_of_fragment hdecode' hroot' htarget', ?_⟩
    simp only [place?, fragmentPlace?, hdecode, hdecode', hregistry, hplace, String.toList_ofList]
    rfl

/-! ## Resolvers that agree -/

variable {reference : String}

/-- Two resolvers find one node of one registered document by a reference, or neither finds any. -/
def Agree (r r' : Resolver) (reference : String) : Prop :=
  (∃ url url' node place, r.resolve reference = .ok (url, node) ∧
      r'.resolve reference = .ok (url', node) ∧ r.place? url = some place ∧
      r'.place? url' = some place) ∨
    (∃ failure, r.resolve reference = .error failure) ∧
      ∃ failure, r'.resolve reference = .error failure

theorem agree_of_targets (hjoin : r.scope.join reference = .ok url)
    (hjoin' : r'.scope.join reference = .ok url')
    (hforth : ∀ node, r.target url = .ok node →
      r'.target url' = .ok node ∧ r'.place? url' = r.place? url)
    (hback : ∀ node, r'.target url' = .ok node → ∃ node, r.target url = .ok node) :
    Agree r r' reference := by
  cases hfound : r.target url with
  | ok node =>
    obtain ⟨place, -, hplace, -⟩ := place?_of_target hfound
    obtain ⟨hfound', hplace'⟩ := hforth node hfound
    exact .inl ⟨url, url', node, place, resolve_of_target hjoin hfound,
      resolve_of_target hjoin' hfound', hplace, hplace'.trans hplace⟩
  | error reason =>
    refine .inr ⟨resolve_fails fun joined h => ?_, resolve_fails fun joined h => ?_⟩
    · rw [hjoin] at h
      cases h
      exact ⟨reason, hfound⟩
    · rw [hjoin'] at h
      cases h
      cases hfound' : r'.target url' with
      | ok node =>
        obtain ⟨node, hnode⟩ := hback node hfound'
        cases hfound.symm.trans hnode
      | error reason' => exact ⟨reason', rfl⟩

theorem agree_of_document (hregistry : r'.registry = r.registry)
    (hjoin : r.scope.join reference = .ok url) (hjoin' : r'.scope.join reference = .ok url')
    (hfragment : url.fragment = url'.fragment) (hdocument : r.documentOf url = r'.documentOf url') :
    Agree r r' reference := by
  have htarget : r'.target url' = r.target url :=
    (target_congr hfragment hdocument fun _ _ => by rw [hregistry]).symm
  exact agree_of_targets hjoin hjoin'
    (fun node h => ⟨htarget.trans h, (place?_congr hfragment hdocument hregistry.symm).symm⟩)
    (fun node h => ⟨node, htarget.symm.trans h⟩)

theorem agree_of_place (hregistry : r'.registry = r.registry)
    (hjoin : r.scope.join reference = .ok url) (hjoin' : r'.scope.join reference = .ok url')
    (hanchor : namesAnchor url = false)
    (hplace : r.registry.place? (r'.documentOf url') = r.registry.place? (r.documentOf url)) :
    Agree r r' reference := by
  have hfragment : url'.fragment = url.fragment :=
    (Url.fragment_of_join hjoin').trans (Url.fragment_of_join hjoin).symm
  have hanchor' : namesAnchor url' = false := by
    rw [namesAnchor, hfragment]
    exact hanchor
  refine agree_of_targets hjoin hjoin'
    (fun node h => target_of_place hregistry hfragment hanchor hplace h) fun node h => ⟨node, ?_⟩
  refine (target_of_place hregistry.symm hfragment.symm hanchor' ?_ h).1
  rw [hregistry]
  exact hplace.symm

theorem agree_of_join (hregistry : r'.registry = r.registry) (hplain : r.aliases = [])
    (hjoin : (r.scope.join reference).toOption = (r'.scope.join reference).toOption)
    (hfree : ∀ url, r'.scope.join reference = .ok url →
      r'.aliases.lookup url.withoutFragment.text = none) : Agree r r' reference := by
  cases hjoin' : r'.scope.join reference with
  | ok url =>
    rw [hjoin'] at hjoin
    refine agree_of_document hregistry (ok_of_toOption hjoin) hjoin' rfl ?_
    rw [documentOf_plain hplain, documentOf, hfree url hjoin', Option.getD_none]
  | error e =>
    refine .inr ⟨resolve_fails fun joined h => ?_, resolve_fails fun joined h => ?_⟩
    · rw [h, hjoin'] at hjoin
      cases hjoin
    · rw [hjoin'] at h
      cases h

end Resolver

end SchemaShape
