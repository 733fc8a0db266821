import SchemaShape.Proofs.Compiler.Success
import SchemaShape.Proofs.Resolver
import SchemaShape.Proofs.Url.Parser

/-! # Compiling from another place in a document

References and identifiers lead to the same from wherever in a document they are followed. So a schema
that comes to a shape at one place of a document comes to a shape at every other one, be it the root or
the target of a reference, as long as repeats are not refused.
-/

namespace SchemaShape
set_option autoImplicit false

open Correspondence Compile

/-! ## Joining from places in one document -/

namespace Url

variable {base base' : Url}

theorem isOpaque_withoutFragment (h : base.isOpaque = true) : base.withoutFragment.isOpaque = true := by
  rw [isOpaque, Bool.and_eq_true, bne_iff_ne] at h
  have htrimmed : (trimmed base.path).toList.head? ≠ some '/' := by
    intro hhead
    have hpre : (trimmed base.path).toList <+: base.path.toList := by
      have hsuffix := (List.dropWhile_suffix (· == ' ') (l := base.path.toList.reverse)).reverse
      rwa [List.reverse_reverse, ← String.toList_ofList (l := (List.dropWhile _ _).reverse)] at hsuffix
    obtain ⟨rest, hrest⟩ := hpre
    refine h.2 ?_
    rw [← hrest, List.head?_append, hhead]
    rfl
  rw [withoutFragment, isOpaque, Bool.and_eq_true, bne_iff_ne]
  refine ⟨h.1, ?_⟩
  split
  · exact htrimmed
  · exact h.2

theorem Formed.join_document (hbase : base.Formed) (reference : String) :
    (∃ url url', base.join reference = .ok url ∧ base.withoutFragment.join reference = .ok url' ∧
        url'.withoutFragment = url.withoutFragment) ∨
      ∃ e, base.join reference = .error e ∧ base.withoutFragment.join reference = .error e := by
  cases hjoin : base.join reference with
  | ok url =>
    obtain ⟨url', hjoin', hdocument⟩ := hbase.join_withoutFragment hjoin
    exact .inl ⟨url, url', rfl, hjoin', hdocument⟩
  | error e =>
    refine .inr ⟨e, rfl, ?_⟩
    cases hisOpaque : base.isOpaque && base.query.isNone with
    | false =>
      have hdocument : base.withoutFragment = { base with fragment := none } := by
        rw [Url.withoutFragment, hisOpaque]
        rfl
      rw [hdocument, join_fragment, hjoin]
    | true =>
      have hopaque := (Bool.and_eq_true_iff.mp hisOpaque).1
      rw [Url.join, resolve] at hjoin ⊢
      cases hscheme : scheme? (Reference.ofText reference).front with
      | some found => rw [ofFront_of_scheme hbase hopaque hscheme, hjoin]
      | none =>
        simp only [ofFront, hscheme, hopaque, isOpaque_withoutFragment hopaque, if_true] at hjoin ⊢
        split at hjoin
        · cases hjoin
        · next hnotLocal => rw [if_neg hnotLocal, ← hjoin]

/-- From places in one document a reference joins to places in one document, with the fragment that it
has, or it does not join. -/
theorem Formed.join_alongside (hbase : base.Formed) (hbase' : base'.Formed)
    (h : base.withoutFragment = base'.withoutFragment) (reference : String) :
    (∃ url url', base.join reference = .ok url ∧ base'.join reference = .ok url' ∧
        url.withoutFragment = url'.withoutFragment ∧ url.fragment = url'.fragment) ∨
      ∃ e, base.join reference = .error e ∧ base'.join reference = .error e := by
  rcases hbase.join_document reference with ⟨url, document, hjoin, hdocument, heq⟩ | ⟨e, hjoin, herror⟩
  · rcases hbase'.join_document reference with ⟨url', document', hjoin', hdocument', heq'⟩ | ⟨_, _, h'⟩
    · rw [h, hdocument'] at hdocument
      cases hdocument
      exact .inl ⟨url, url', hjoin, hjoin', heq.symm.trans heq',
        (fragment_of_join hjoin).trans (fragment_of_join hjoin').symm⟩
    · rw [h, h'] at hdocument
      cases hdocument
  · rcases hbase'.join_document reference with ⟨_, _, _, h', _⟩ | ⟨e', hjoin', herror'⟩
    · rw [h, h'] at herror
      cases herror
    · rw [h, herror'] at herror
      cases herror
      exact .inr ⟨e, hjoin, hjoin'⟩

end Url

/-! ## Places side by side -/

/-- The two places lead to the same: their scopes are in one document. -/
structure Abreast (c c' : Compiler) : Prop where
  draft_eq : c.draft = c'.draft
  repeats_eq : c.refusesRepeats = false ∧ c'.refusesRepeats = false
  registry_eq : c.resolver.registry = c'.resolver.registry
  aliases_eq : c.resolver.aliases = [] ∧ c'.resolver.aliases = []
  formed : c.resolver.scope.Formed ∧ c'.resolver.scope.Formed
  document_eq : c.resolver.scope.withoutFragment = c'.resolver.scope.withoutFragment

namespace Abreast

variable {c c' : Compiler}

theorem enter (h : Abreast c c') {url url' : Url} (hformed : url.Formed) (hformed' : url'.Formed)
    (heq : url.withoutFragment = url'.withoutFragment) {d d' : Compiler}
    (hd : d.draft = c.draft ∧ d.refusesRepeats = c.refusesRepeats ∧ d.resolver = c.resolver.enter url)
    (hd' : d'.draft = c'.draft ∧ d'.refusesRepeats = c'.refusesRepeats ∧
      d'.resolver = c'.resolver.enter url') : Abreast d d' := by
  obtain ⟨hdraft, hrepeats, hresolver⟩ := hd
  obtain ⟨hdraft', hrepeats', hresolver'⟩ := hd'
  refine ⟨?_, ?_, ?_, ?_, ?_, ?_⟩
  · rw [hdraft, hdraft', h.draft_eq]
  · rw [hrepeats, hrepeats']
    exact h.repeats_eq
  · rw [hresolver, hresolver']
    exact h.registry_eq
  · rw [hresolver, hresolver']
    exact h.aliases_eq
  · rw [hresolver, hresolver']
    exact ⟨hformed, hformed'⟩
  · rw [hresolver, hresolver']
    exact heq

theorem target_eq (h : Abreast c c') {url url' : Url} (heq : url.withoutFragment = url'.withoutFragment)
    (hfragment : url.fragment = url'.fragment) : c.resolver.target url = c'.resolver.target url' := by
  refine Resolver.target_congr hfragment ?_ fun key _ => by rw [h.registry_eq]
  rw [Resolver.documentOf_plain h.aliases_eq.1, Resolver.documentOf_plain h.aliases_eq.2, heq]

end Abreast

/-- There is a shape on both sides, or on neither. -/
def shaping : Correspondence where
  admits := fun _ => True
  states := Abreast
  shapes := fun shape shape' => shape.isNothing = shape'.isNothing
  flags := fun _ _ => True
  entries := fun _ _ => True
  failures := fun _ _ => True

theorem Abreast.resolves {c c' : Compiler} (h : Abreast c c') (reference : String) :
    shaping.Resolves reference c c' := by
  rw [Resolves, ResolvesTo]
  rcases h.formed.1.join_alongside h.formed.2 h.document_eq reference with
    ⟨url, url', hjoin, hjoin', heq, hfragment⟩ | ⟨e, hjoin, hjoin'⟩
  · have htarget := h.target_eq heq hfragment
    cases hfound : c.resolver.target url with
    | error reason =>
      rw [Resolver.resolve_of_no_target hjoin hfound,
        Resolver.resolve_of_no_target hjoin' (htarget.symm.trans hfound)]
      trivial
    | ok node =>
      rw [Resolver.resolve_of_target hjoin hfound,
        Resolver.resolve_of_target hjoin' (htarget.symm.trans hfound)]
      refine ⟨fun _ _ => rfl, trivial, .inl ?_, fun _ => ?_⟩
      · rw [Compiler.refuses, Compiler.refuses, h.repeats_eq.1, h.repeats_eq.2]
        rfl
      · exact h.enter (h.formed.1.join hjoin) (h.formed.2.join hjoin') heq ⟨rfl, rfl, rfl⟩
          ⟨rfl, rfl, rfl⟩
  · rw [Resolver.resolve_of_no_join hjoin, Resolver.resolve_of_no_join hjoin']
    trivial

theorem shaping_lawful : shaping.Lawful where
  part := fun h _ => h
  below := fun _ h =>
    ⟨h.draft_eq, h.repeats_eq, h.registry_eq, h.aliases_eq, h.formed, h.document_eq⟩
  atProperty := fun _ h =>
    ⟨h.draft_eq, h.repeats_eq, h.registry_eq, h.aliases_eq, h.formed, h.document_eq⟩
  ids := fun {schema} _ _ _ h => congrArg (·.idOf? schema) h.draft_eq
  integers := fun h => congrArg (fun draft : Draft => draft.integerShape.isNothing) h.draft_eq
  enters := by
    intro schema c c' id _ h _
    rw [Enters, Resolver.enterId, Resolver.enterId]
    rcases h.formed.1.join_alongside h.formed.2 h.document_eq id with
      ⟨url, url', hjoin, hjoin', heq, -⟩ | ⟨e, hjoin, hjoin'⟩
    · rw [hjoin, hjoin']
      exact h.enter (h.formed.1.join hjoin) (h.formed.2.join hjoin') heq ⟨rfl, rfl, rfl⟩
        ⟨rfl, rfl, rfl⟩
    · rw [hjoin, hjoin']
      rfl
  resolves := fun _ h _ _ => h.resolves _
  warning := fun _ _ _ => trivial
  malformed := fun _ _ => trivial
  unsupported := fun _ _ => trivial
  rootType := fun _ _ => trivial
  refCycle := fun _ _ => trivial
  inner := trivial
  fixed := fun _ _ => rfl
  nothing := id
  union := fun _ => rfl
  list := fun _ => rfl
  tuple := fun _ => rfl
  record := fun _ _ _ => rfl
  self := fun _ _ _ => rfl

/-- The keywords of a node come to a shape at both places, or at neither. -/
theorem Abreast.named_ok {c c' : Compiler} (h : Abreast c c') {depth height : Nat} {schema : Members}
    {type : String} {outer : Bool} (outer' : Bool) {shape : Shape} {added : List Diagnostic}
    (hheight : (Json.object schema).height ≤ height + 1)
    (hgives : (Node.named (fun part => nested (followUpTo depth) height part false) type schema
      outer).Gives c (.ok shape) added) :
    ∃ shape' added', (Node.named (fun part => nested (followUpTo depth) height part false) type schema
      outer').Gives c' (.ok shape') added' := by
  have hinners : shaping.Inners schema (fun part => nested (followUpTo depth) height part false)
      (fun part => nested (followUpTo depth) height part false) := by
    intro part hpart d d' hd
    have hlt := hpart.height_lt
    exact shaping_lawful.nested height height (by omega) (by omega) trivial (fun _ _ => rfl) trivial
      (shaping_lawful.references (.inl rfl)) hd
  have hmatches : shaping.Matches shaping.shapes
      (Node.named (fun part => nested (followUpTo depth) height part false) type schema outer)
      (Node.named (fun part => nested (followUpTo depth) height part false) type schema outer')
      c c' := shaping_lawful.named (shaping_lawful.alike hinners) type trivial h
  rcases hmatches with
    ⟨_, _, _, added', hends, hends', houtcomes, -⟩ | ⟨_, _, _, hcut, -⟩
  · obtain ⟨rfl, -⟩ := hgives.unique hends
    cases houtcomes with
    | value => exact ⟨_, added', hends'⟩
  · exact hcut.elim

end SchemaShape
