import SchemaShape.Proofs.Compiler.Enumeration
import SchemaShape.Proofs.Compiler.Reentry
import SchemaShape.Proofs.Compiler.Repeats
import SchemaShape.Proofs.Compiler.Root
import SchemaShape.Proofs.Narrowing.References
import SchemaShape.Proofs.Retyped

/-! # Roots with a list of types

At the root of a document a list of types that names objects is taken for `object`, with a warning.
Nothing else tells the document from one that says `object`, even where references lead back to the
root and find a list of types there: then neither of the two compiles.

The reason is that the rule for objects is part of what such a reference leads to, too. Take the least
number of references that have to be followed inside one another for the rule to come to a shape at
the root. With as many, no reference that is followed inside leads to the root, for there the rule
would come to a shape with fewer.

The proviso is that the rule leads to the same from the root and from where references to the root
lead. An identifier has to be read alike at both places, and to count under the draft of the compile if
it does under the one that the document declares.
-/

namespace SchemaShape
set_option autoImplicit false

open Correspondence Compile
open Registry (IsKeyIn)

/-! ## The root -/

def Compile.asObject (depth height : Nat) (root : Members) (outer : Bool) : Compile Shape :=
  Node.named (fun part => nested (followUpTo depth) height part false) "object" root outer

section

variable {type other : ObjectType} {root : Members} {depth height : Nat} {outer : Bool}
variable {c place : Compiler} {added : List Diagnostic}

theorem ObjectType.fallback_inside (hinside : Node.Inside root c place) :
    type.fallback place = type.fallback c := by
  have hlocation : place.location = c.location := by
    rw [Node.Inside] at hinside
    split at hinside
    · rw [hinside]
    · obtain ⟨resolver, -, rfl⟩ := hinside
      rfl
  cases type with
  | plain => rfl
  | listed names _ => simp only [fallback, Compiler.warning, hlocation]

theorem gives_root {result : Except Failure Shape} (htype : root.get? "type" = some type.json)
    (htop : c.active = []) (hinside : Node.Inside root c place)
    (hheight : (Json.object root).height ≤ height + 1)
    (h : (asObject depth height root true).Gives place result added) :
    (upTo depth (.object root) true).Gives c result (type.fallback c ++ added) := by
  rw [upTo_of_height hheight]
  refine Node.gives_shape hinside ?_
  rw [← ObjectType.fallback_inside hinside]
  cases type with
  | plain =>
    simp only [Node.members, htype, ObjectType.json]
    exact h
  | listed names mem =>
    have htop' : place.active.isEmpty = true := by
      rw [Node.Inside] at hinside
      split at hinside
      · rw [hinside, htop]
        rfl
      · obtain ⟨resolver, -, rfl⟩ := hinside
        exact List.isEmpty_iff.mpr htop
    simp only [Node.members, htype, ObjectType.json, Json.mapM_asString?_string, Node.listed]
    rw [← List.nil_append (ObjectType.fallback _ _ ++ _)]
    refine gives_bind (gives_inspect fun _ => rfl) ?_
    rw [htop', Bool.and_true, if_pos rfl, if_pos (List.contains_iff_mem.mpr mem)]
    exact gives_bind (gives_warn _ _ _) h

/-- A root that comes to a shape comes to the shape that the rule for objects gives. -/
theorem root_ok {shape : Shape} (htype : root.get? "type" = some type.json) (htop : c.active = [])
    (hheight : (Json.object root).height ≤ height + 1)
    (h : (upTo depth (.object root) true).Gives c (.ok shape) added) :
    ∃ place after, Node.Inside root c place ∧
      (asObject depth height root true).Gives place (.ok shape) after ∧
      added = type.fallback c ++ after := by
  rw [upTo_of_height hheight] at h
  obtain ⟨place, hinside, -⟩ := h.members_ok hheight
  obtain ⟨result, after, hrule⟩ : ∃ result after,
      (asObject depth height root true).Gives place result after :=
    Node.tidy_named "object" (tidyInners_nested hheight) place
  have hroot := gives_root htype htop hinside hheight hrule
  rw [upTo_of_height hheight] at hroot
  obtain ⟨rfl, rfl⟩ := h.unique hroot
  exact ⟨place, after, hinside, hrule, rfl⟩

theorem asObject_ok {shape : Shape} (htype : root.get? "type" = some type.json)
    (hheight : (Json.object root).height ≤ height + 1)
    (h : (upTo depth (.object root) outer).Gives c (.ok shape) added) :
    ∃ place shape' after, Node.Inside root c place ∧
      (asObject depth height root outer).Gives place (.ok shape') after := by
  rw [upTo_of_height hheight] at h
  obtain ⟨place, hinside, hmembers⟩ := h.members_ok hheight
  have tidy : Node.TidyInners root fun part => nested (followUpTo depth) height part false :=
    tidyInners_nested hheight
  cases type with
  | plain =>
    simp only [Node.members, htype, ObjectType.json] at hmembers
    exact ⟨place, shape, added, hinside, hmembers⟩
  | listed names mem =>
    simp only [Node.members, htype, ObjectType.json, Json.mapM_asString?_string] at hmembers
    rcases Node.listed_ok tidy hmembers with ⟨-, after, hrule, -⟩ | ⟨shapes, -, hshapes⟩
    · exact ⟨place, shape, after, hinside, hrule⟩
    · obtain ⟨shape', -, after, hrule, -⟩ := exists_of_forall₂ hshapes mem
      exact ⟨place, shape', after, hinside, hrule⟩

theorem asObject_retyped : asObject depth height (root.retyped other) outer =
    asObject depth height root outer := by
  have hget : ∀ key, key ≠ "type" → (root.retyped other).get? key = root.get? key :=
    fun key => Members.get?_retyped
  simp only [asObject, Node.named, hget "enum" (by decide)]
  split
  · rfl
  · exact Node.object_congr (hget "properties" (by decide)) (hget "required" (by decide)) _ _

end

/-! ## Back to the root -/

theorem Draft.idOf?_unique {draft draft' : Draft} {schema : Members} {id id' : String}
    (h : draft.idOf? schema = some id) (h' : draft'.idOf? schema = some id') : id = id' := by
  cases hown : (schema.get? "$id").bind Json.asString? with
  | some own =>
    simp only [idOf?, hown, Option.some.injEq] at h h'
    exact h.symm.trans h'
  | none =>
    simp only [idOf?, hown] at h h'
    cases draft <;> cases draft' <;>
      first
      | cases h
      | cases h'
      | exact Option.some.inj (h.symm.trans h')

/-- The root is read alike from wherever references lead to it: its identifier, if it has one, leads
from where it leads to the same again, and the document is known under it only if it counts. -/
structure Document.Stable (draft : Draft) (url : Url) (root : Members) : Prop where
  counts : draft.idOf? root = none → (Draft.detectIn (.object root)).idOf? root = none
  settled : ∀ id joined, draft.idOf? root = some id → url.withoutFragment.join id = .ok joined →
    joined.join id = .ok joined

theorem Document.stable_of_join {draft : Draft} {url : Url} {root : Members}
    (counts : draft.idOf? root = none → (Draft.detectIn (.object root)).idOf? root = none)
    (hjoin : ∀ id, draft.idOf? root = some id → ∀ base base' : Url, base.join id = base'.join id) :
    Stable draft url root :=
  ⟨counts, fun id _ hid hjoined => (hjoin id hid _ _).trans hjoined⟩

section

variable {draft : Draft} {url target : Url} {type other : ObjectType} {root : Members}
variable {depth height : Nat} {outer : Bool} {c top start place : Compiler}

structure Alone (draft : Draft) (url : Url) (root : Members) (c : Compiler) : Prop where
  draft_eq : c.draft = draft
  repeats_eq : c.refusesRepeats = false
  registry_eq : c.resolver.registry = Registry.empty.insert ⟨url, .object root⟩
  aliases_eq : c.resolver.aliases = []
  formed : c.resolver.scope.Formed

theorem Alone.atTarget (h : Alone draft url root c) (hformed : target.Formed) (location : Location) :
    Alone draft url root (c.atTarget target location) :=
  ⟨h.draft_eq, h.repeats_eq, h.registry_eq, h.aliases_eq, hformed⟩

/-- A compile at the root of the document, whose keywords are compiled at `start`. -/
structure Rooted (draft : Draft) (url : Url) (root : Members) (top start : Compiler) : Prop extends
    Alone draft url root top where
  active_eq : top.active = []
  scope_eq : top.resolver.scope = url.withoutFragment
  inside : Node.Inside root top start

/-- At the root the rule for objects comes to a shape. -/
def Suffices (height : Nat) (root : Members) (start : Compiler) (depth : Nat) : Prop :=
  ∃ shape added, (asObject depth height root true).Gives start (.ok shape) added

section

variable (stable : Document.Stable draft url root) (hurl : url.Formed)
variable (hstart : Rooted draft url root top start)

include stable hurl hstart

/-- The root is read in the document itself, or in the one that its identifier leads to, and its
identifier leads to the same from both. -/
theorem Rooted.exists_base {id : String} {joined : Url} (hid : draft.idOf? root = some id)
    (hjoin : top.resolver.scope.join id = .ok joined)
    (hdocument : target.withoutFragment = url.withoutFragment ∨
      ∃ id joined, (Draft.detectIn (.object root)).idOf? root = some id ∧
        url.withoutFragment.join id = .ok joined ∧
        target.withoutFragment = joined.withoutFragment) :
    ∃ base : Url, base.Formed ∧ base.join id = .ok joined ∧
      target.withoutFragment = base.withoutFragment := by
  rcases hdocument with heq | ⟨id', settled, hid', hsettled, heq⟩
  · refine ⟨_, hstart.formed, hjoin, ?_⟩
    rw [hstart.scope_eq, Url.withoutFragment_idem, heq]
  · obtain rfl := Draft.idOf?_unique hid hid'
    rw [hstart.scope_eq, hsettled] at hjoin
    cases hjoin
    exact ⟨_, hurl.withoutFragment.join hsettled, stable.settled id _ hid hsettled, heq⟩

theorem Alone.abreast {key : String} (h : Alone draft url root c)
    (hkey : IsKeyIn c.resolver.scope.withoutFragment.text key)
    (hdenoted : Document.denoted? ⟨url, .object root⟩ key = some [])
    (hinside : Node.Inside root c place) : Abreast place start := by
  have hdocument := Document.document_of_root hurl h.formed hkey hdenoted
  have hinside' := hstart.inside
  rw [Node.Inside, h.draft_eq] at hinside
  rw [Node.Inside, hstart.draft_eq] at hinside'
  cases hid : draft.idOf? root with
  | none =>
    rw [hid] at hinside hinside'
    obtain rfl : place = c := hinside
    obtain rfl : start = top := hinside'
    refine ⟨h.draft_eq.trans hstart.draft_eq.symm, ⟨h.repeats_eq, hstart.repeats_eq⟩,
      h.registry_eq.trans hstart.registry_eq.symm, ⟨h.aliases_eq, hstart.aliases_eq⟩,
      ⟨h.formed, hstart.formed⟩, ?_⟩
    rw [hstart.scope_eq, Url.withoutFragment_idem]
    refine hdocument.resolve_right ?_
    rintro ⟨id, _, hsome, -⟩
    rw [stable.counts hid] at hsome
    cases hsome
  | some id =>
    rw [hid] at hinside hinside'
    obtain ⟨resolver, henter, rfl⟩ := hinside
    obtain ⟨resolver', henter', rfl⟩ := hinside'
    obtain ⟨joined, hjoin, rfl⟩ := Resolver.enterId_ok henter
    obtain ⟨joined', hjoin', rfl⟩ := Resolver.enterId_ok henter'
    obtain ⟨base, hbase, hbasejoin, heq⟩ :=
      Rooted.exists_base stable hurl hstart hid hjoin' hdocument
    have hsame : joined.withoutFragment = joined'.withoutFragment := by
      rcases h.formed.join_alongside hbase heq id with
        ⟨_, _, hleft, hright, hsame, -⟩ | ⟨_, hleft, -⟩
      · rw [hjoin] at hleft
        rw [hbasejoin] at hright
        cases hleft
        cases hright
        exact hsame
      · rw [hjoin] at hleft
        cases hleft
    exact ⟨h.draft_eq.trans hstart.draft_eq.symm, ⟨h.repeats_eq, hstart.repeats_eq⟩,
      h.registry_eq.trans hstart.registry_eq.symm, ⟨h.aliases_eq, hstart.aliases_eq⟩,
      ⟨h.formed.join hjoin, hstart.formed.join hjoin'⟩, hsame⟩

variable (htype : root.get? "type" = some type.json)
variable (hheight : (Json.object root).height ≤ height + 1)

include htype hheight

/-- If a reference to the root comes to a shape, so does the rule for objects at the root itself. -/
theorem Alone.suffices {shape : Shape} {added : List Diagnostic} {key : String}
    (h : Alone draft url root c) (hkey : IsKeyIn c.resolver.scope.withoutFragment.text key)
    (hdenoted : Document.denoted? ⟨url, .object root⟩ key = some [])
    (hgives : (upTo depth (.object root) outer).Gives c (.ok shape) added) :
    Suffices height root start depth := by
  obtain ⟨place, _, _, hplace, hrule⟩ := asObject_ok htype hheight hgives
  have habreast := Alone.abreast stable hurl hstart h hkey hdenoted hplace
  exact habreast.named_ok true hheight hrule

/-! ## The two documents side by side -/

omit stable hurl hstart htype hheight

/-- At the same place in a document alone, and in the one with the other type. -/
structure Retypes (draft : Draft) (url : Url) (root : Members) (other : ObjectType)
    (c c' : Compiler) : Prop where
  alone : Alone draft url root c
  retyped : c' = { c with resolver := { c.resolver with
    registry := Registry.empty.insert ⟨url, .object (root.retyped other)⟩ } }

theorem Retypes.atTarget {c' : Compiler} (h : Retypes draft url root other c c')
    (htype : root.get? "type" = some type.json) (hformed : target.Formed) :
    Retypes draft url root other (c.atTarget target (targetLocation c.resolver target))
      (c'.atTarget target (targetLocation c'.resolver target)) := by
  obtain ⟨halone, hretyped⟩ := h
  have hresolver : c'.resolver = { c.resolver with
      registry := Registry.empty.insert ⟨url, .object (root.retyped other)⟩ } := by rw [hretyped]
  have hanchor := Resolver.locateAnchor?_of_denoted halone.registry_eq hresolver
    (Document.denoted?_retyped htype) target
  refine ⟨halone.atTarget hformed _, ?_⟩
  rw [targetLocation, targetLocation, ← hanchor, hretyped]
  rfl

def retyping (draft : Draft) (url : Url) (root : Members) (other : ObjectType) : Correspondence :=
  identicalUnless (fun _ => True) (fun _ => True) (Retypes draft url root other)

theorem retyping_scoped : (retyping draft url root other).Scoped := by
  refine identical_scoped (fun h _ => h) ?_ ?_ ?_ ?_
  · rintro c _ tokens ⟨⟨hdraft, hrepeats, hregistry, haliases, hformed⟩, rfl⟩
    exact ⟨⟨hdraft, hrepeats, hregistry, haliases, hformed⟩, rfl⟩
  · rintro c _ key ⟨⟨hdraft, hrepeats, hregistry, haliases, hformed⟩, rfl⟩
    exact ⟨⟨hdraft, hrepeats, hregistry, haliases, hformed⟩, rfl⟩
  · rintro c _ ⟨-, rfl⟩
    exact ⟨_, _, _, rfl⟩
  · rintro schema c _ id _ ⟨halone, rfl⟩ _
    refine enters_of_join rfl fun joined hjoin => ⟨?_, rfl⟩
    exact ⟨halone.draft_eq, halone.repeats_eq, halone.registry_eq, halone.aliases_eq,
      halone.formed.join hjoin⟩

include stable hurl hstart htype hheight

theorem retyping_references (untyped : Document.Untyped ⟨url, .object root⟩)
    (hfewer : ∀ fewer < depth, ¬ Suffices height root start fewer) :
    (retyping draft url root other).References (followUpTo depth) (followUpTo depth) := by
  induction depth with
  | zero =>
    intro _ reference _ _ _ c c' _ _ _ _
    exact matches_cut (gives_refuse reference c) trivial False.elim
  | succ depth ih =>
    intro members reference _ _ _ c c' outer _ h hflags
    cases hflags
    obtain ⟨halone, hretyped⟩ := h
    have hresolver : c'.resolver = { c.resolver with
        registry := Registry.empty.insert ⟨url, .object (root.retyped other)⟩ } := by rw [hretyped]
    cases hresolve : c.resolver.resolve reference with
    | error failure => exact matches_cut (gives_followTo_error hresolve) trivial False.elim
    | ok found =>
      obtain ⟨target, node⟩ := found
      obtain ⟨hjoin, htarget⟩ := Resolver.resolve_ok hresolve
      have hallowed : (c.refusesRepeats && c.active.contains target.text) = false := by
        rw [halone.repeats_eq, Bool.false_and]
      have hthere := halone.atTarget (halone.formed.join hjoin) (targetLocation c.resolver target)
      have hcut {failure : Failure} {added : List Diagnostic} (hgives : (upTo depth node outer).Gives
          (c.atTarget target (targetLocation c.resolver target)) (.error failure) added) :
          (retyping draft url root other).Matches Eq (followUpTo (depth + 1) reference outer)
            (followUpTo (depth + 1) reference outer) c c' :=
        matches_cut (gives_followTo hresolve hallowed hgives) trivial False.elim
      rcases Document.target_retyped halone.registry_eq hresolver htype untyped htarget with
        ⟨rfl, key, hkey, hdenoted⟩ | htext | htarget'
      · obtain ⟨result, added, hgives⟩ := tidy_upTo depth (.object root) outer
          (c.atTarget target (targetLocation c.resolver target))
        cases result with
        | error failure => exact hcut hgives
        | ok shape =>
          rw [Resolver.documentOf_plain halone.aliases_eq] at hkey
          have hsuffices := hthere.suffices stable hurl hstart htype hheight hkey hdenoted hgives
          exact absurd hsuffices (hfewer depth (Nat.lt_succ_self depth))
      · obtain ⟨failure, hgives⟩ := htext.fails depth outer
          (c.atTarget target (targetLocation c.resolver target))
        exact hcut hgives
      · have hscope : c'.resolver.scope = c.resolver.scope := by
          rw [hretyped]
          rfl
        have hresolve' : c'.resolver.resolve reference = .ok (target, node) :=
          Resolver.resolve_of_target (hscope ▸ hjoin) htarget'
        have hthere' := Retypes.atTarget ⟨halone, hretyped⟩ htype (halone.formed.join hjoin)
        have hreferences := ih fun fewer hlt => hfewer fewer (Nat.lt_succ_of_lt hlt)
        have hroot : SameRoot (c.atTarget target (targetLocation c.resolver target))
            (c'.atTarget target (targetLocation c'.resolver target)) outer outer := rfl
        refine matches_followTo hresolve hresolve' ?_ ?_ fun _ => ?_
        · rw [hretyped]
          rfl
        · rw [hretyped]
          rfl
        · rw [upTo_eq]
          exact retyping_scoped.nested _ _ (Nat.le_refl _) (Nat.le_refl _) trivial (fun _ _ => hroot)
            rfl hreferences hthere'

/-- With the least number of references with which the rule for objects comes to a shape at the root, it
does the same in both documents. -/
theorem Rooted.same_object {start' : Compiler} {shape : Shape} {added : List Diagnostic}
    (untyped : Document.Untyped ⟨url, .object root⟩)
    (hretypes : Retypes draft url root other start start')
    (hfewer : ∀ fewer < depth, ¬ Suffices height root start fewer)
    (h : (asObject depth height root true).Gives start (.ok shape) added) :
    (asObject depth height root true).Gives start' (.ok shape) added := by
  have hreferences : (retyping draft url root other).References (followUpTo depth)
      (followUpTo depth) :=
    retyping_references stable hurl hstart htype hheight untyped hfewer
  have hinners : (retyping draft url root other).Inners root
      (fun part => nested (followUpTo depth) height part false)
      (fun part => nested (followUpTo depth) height part false) := by
    intro part hpart d d' hd
    have hlt := hpart.height_lt
    exact retyping_scoped.nested height height (by omega) (by omega) trivial (fun _ _ => rfl) rfl
      hreferences hd
  have hmatches : (retyping draft url root other).Matches Eq (asObject depth height root true)
      (asObject depth height root true) start start' :=
    retyping_scoped.toRules.named (retyping_scoped.toRules.alike hinners) "object" rfl hretypes
  rcases identical_or_cut hmatches with ⟨_, _, hgives, hgives'⟩ | ⟨_, _, hgives, -⟩
  · obtain ⟨rfl, rfl⟩ := h.unique hgives
    exact hgives'
  · cases (h.unique hgives).1

end

theorem Retypes.inside {c' : Compiler} (h : Retypes draft url root other c c')
    (hinside : Node.Inside root c place) :
    ∃ place', Retypes draft url root other place place' ∧
      Node.Inside (root.retyped other) c' place' := by
  obtain ⟨halone, rfl⟩ := h
  rw [Node.Inside] at hinside
  simp only [Node.Inside, Members.idOf?_retyped]
  cases hid : c.draft.idOf? root with
  | none =>
    rw [hid] at hinside
    obtain rfl : place = c := hinside
    exact ⟨_, ⟨halone, rfl⟩, rfl⟩
  | some id =>
    rw [hid] at hinside
    obtain ⟨resolver, henter, rfl⟩ := hinside
    obtain ⟨joined, hjoin, rfl⟩ := Resolver.enterId_ok henter
    refine ⟨_, ⟨⟨halone.draft_eq, halone.repeats_eq, halone.registry_eq, halone.aliases_eq,
      halone.formed.join hjoin⟩, rfl⟩, _, ?_, rfl⟩
    show Except.map _ (c.resolver.scope.join id) = _
    rw [hjoin]
    rfl

/-- A root that comes to a shape as one type comes to the same shape as another one. -/
theorem upTo_retyped {shape : Shape} {added : List Diagnostic} {c' : Compiler}
    (stable : Document.Stable draft url root) (hurl : url.Formed)
    (htype : root.get? "type" = some type.json) (untyped : Document.Untyped ⟨url, .object root⟩)
    (htop : c.active = []) (hscope : c.resolver.scope = url.withoutFragment)
    (h : Retypes draft url root other c c')
    (hgives : (upTo depth (.object root) true).Gives c (.ok shape) added) :
    ∃ after, added = type.fallback c ++ after ∧
      (upTo depth (.object (root.retyped other)) true).Gives c' (.ok shape)
        (other.fallback c ++ after) := by
  let height := max (Json.heightMembers root) (Json.heightMembers (root.retyped other))
  have hheight : (Json.object root).height ≤ height + 1 := Nat.succ_le_succ (Nat.le_max_left ..)
  have hheight' : (Json.object (root.retyped other)).height ≤ height + 1 :=
    Nat.succ_le_succ (Nat.le_max_right ..)
  obtain ⟨start, after, hinside, hrule, rfl⟩ := root_ok htype htop hheight hgives
  have hstart : Rooted draft url root c start := ⟨h.alone, htop, hscope, hinside⟩
  obtain ⟨start', hretypes, hinside'⟩ := h.inside hinside
  -- The least number of references will do, and with it both documents do the same.
  classical
  have hsuffices : ∃ depth, Suffices height root start depth := ⟨depth, shape, after, hrule⟩
  have hle : Nat.find hsuffices ≤ depth := Nat.find_min' hsuffices ⟨shape, after, hrule⟩
  obtain ⟨shape', after', hleast⟩ := Nat.find_spec hsuffices
  have hmore := upTo_mono hle (gives_root htype htop hinside hheight hleast) not_failsByCycle_ok
  obtain ⟨heq, hadded⟩ := hgives.unique hmore
  cases heq
  obtain rfl := List.append_cancel_left hadded
  have hsame := hstart.same_object stable hurl htype hheight untyped hretypes
    (fun _ => Nat.find_min hsuffices) hleast
  rw [← @asObject_retyped other] at hsame
  have htop' : c'.active = [] := by
    rw [h.retyped]
    exact htop
  have hfallback : other.fallback c' = other.fallback c := by
    rw [h.retyped]
    cases other <;> rfl
  have hroot := gives_root Members.get?_retyped_type htop' hinside' hheight' hsame
  rw [hfallback] at hroot
  exact ⟨_, rfl, upTo_mono hle hroot not_failsByCycle_ok⟩

end

/-! ## Sessions -/

section

variable {url : Url} {type other : ObjectType} {root : Members}

theorem Document.Stable.retyped {draft : Draft} (stable : Stable draft url root) :
    Stable draft url (root.retyped other) := by
  refine ⟨fun hnone => ?_, fun id joined hid => ?_⟩
  · rw [Members.idOf?_retyped] at hnone
    rw [Members.detectIn_retyped, Members.idOf?_retyped]
    exact stable.counts hnone
  · rw [Members.idOf?_retyped] at hid
    exact stable.settled id joined hid

namespace Session

def compileAlone (url : Url) (root : Members) (options : Options) : Except Failure Compilation :=
  (ofDocuments [⟨url, .object root⟩]).compile url [] options

def compilerAlone (url : Url) (root : Members) (options : Options) : Compiler :=
  (ofDocuments [⟨url, .object root⟩]).compilerFor url.withoutFragment (.object root) (.object root)
    false options

theorem compileAlone_of_gives {options : Options} {result : Except Failure Shape}
    {added : List Diagnostic} (h : (upTo (compilerAlone url root options).remaining (.object root)
      true).Gives (compilerAlone url root options) result added) :
    compileAlone url root options = result.map (report url [] (compilerAlone url root options) added) :=
  compile_of_gives (get?_alone ⟨url, .object root⟩) rfl rfl h

theorem compilerAlone_retyped (options : Options) : compilerAlone url (root.retyped other) options =
    { compilerAlone url root options with resolver := { (compilerAlone url root options).resolver with
        registry := Registry.empty.insert ⟨url, .object (root.retyped other)⟩ } } := by
  simp only [compilerAlone, compilerFor, Members.detectIn_retyped, Members.ofSchema_retyped]
  rfl

theorem compile_retyped {options : Options} {compilation : Compilation} (hurl : url.Formed)
    (stable : Document.Stable (options.draftOf (.object root)) url root)
    (htype : root.get? "type" = some type.json) (untyped : Document.Untyped ⟨url, .object root⟩)
    (h : compileAlone url root options = .ok compilation) :
    ∃ after, compilation.diagnostics = type.fallback (compilerAlone url root options) ++ after ∧
      compileAlone url (root.retyped other) options = .ok { compilation with
        diagnostics := other.fallback (compilerAlone url root options) ++ after } := by
  have hretyped := @compilerAlone_retyped url other root options
  obtain ⟨result, added, hgives⟩ := tidy_upTo (compilerAlone url root options).remaining
    (.object root) true (compilerAlone url root options)
  rw [compileAlone_of_gives hgives] at h
  cases result with
  | error failure => cases h
  | ok shape =>
    cases h
    -- Both documents are compared without the check for repeats.
    obtain ⟨result, added', hbounded⟩ := tidy_upTo (compilerAlone url root options).remaining
      (.object root) true { compilerAlone url root options with refusesRepeats := false }
    obtain ⟨rfl, rfl⟩ := (same_without_check hgives hbounded).resolve_left not_failsByCycle_ok
    have hretypes : Retypes (options.draftOf (.object root)) url root other
        { compilerAlone url root options with refusesRepeats := false }
        { compilerAlone url (root.retyped other) options with refusesRepeats := false } :=
      ⟨⟨rfl, rfl, rfl, rfl, hurl.withoutFragment⟩, by rw [hretyped]⟩
    obtain ⟨after, hadded, hbounded'⟩ :=
      upTo_retyped stable hurl htype untyped rfl rfl hretypes hbounded
    obtain ⟨result', added', hgives'⟩ := tidy_upTo (compilerAlone url root options).remaining
      (.object (root.retyped other)) true (compilerAlone url (root.retyped other) options)
    have hresult := same_with_check hgives' hbounded' (by rw [hretyped]; rfl) (by rw [hretyped]; rfl)
      (by rw [hretyped]; exact hurl.withoutFragment)
    obtain ⟨rfl, rfl⟩ := hresult.resolve_left not_failsByCycle_ok
    have hremaining : (compilerAlone url (root.retyped other) options).remaining =
        (compilerAlone url root options).remaining := by
      rw [hretyped]
      rfl
    have hfallback (type : ObjectType) : type.fallback { compilerAlone url root options with
        refusesRepeats := false } = type.fallback (compilerAlone url root options) := by
      cases type <;> rfl
    refine ⟨after, ?_, ?_⟩
    · rw [← hfallback, ← hadded]
      rfl
    · rw [compileAlone_of_gives (hremaining ▸ hgives'), hretyped, ← hfallback]
      rfl

/-- Compiled alone, a document whose root has a list of types with `object` among them succeeds just
where it does with `object` in place of the list, and but for a warning at the root it compiles to the
same. -/
theorem compile_fallback {names : List String} (options : Options) (hurl : url.Formed)
    (hkeys : (Json.object root).everyObject Members.distinct = true)
    (htype : root.get? "type" = some (.array (names.map .string))) (hmem : "object" ∈ names)
    (stable : Document.Stable (options.draftOf (.object root)) url root) :
    let compile (root : Members) := (ofDocuments [⟨url, .object root⟩]).compile url [] options
    let warning : Diagnostic := ⟨.warning, .rootTypeFallback, "root type " ++ Text.quotedList names ++
      " is out of scope, falling back to `object`", (Location.ofUrl url.withoutFragment).text⟩
    (compile root).toOption = (compile (root.set "type" (.string "object"))).toOption.map fun plain =>
      { plain with diagnostics := warning :: plain.diagnostics } := by
  intro compile warning
  have hlisted : root.get? "type" = some (ObjectType.listed names hmem).json := htype
  have untyped : Document.Untyped ⟨url, .object root⟩ := Document.untyped_of_distinct hlisted hkeys
  show (compileAlone url root options).toOption =
    (compileAlone url (root.retyped .plain) options).toOption.map _
  cases hcompile : compileAlone url root options with
  | ok compilation =>
    obtain ⟨after, hdiagnostics, hplain⟩ :=
      @compile_retyped _ _ .plain _ _ _ hurl stable hlisted untyped hcompile
    have hwarning : warning :: after = compilation.diagnostics := hdiagnostics.symm
    rw [hplain]
    show some compilation = some { compilation with diagnostics := warning :: after }
    rw [hwarning]
  | error failure =>
    cases hplain : compileAlone url (root.retyped .plain) options with
    | error failure' => rfl
    | ok compilation =>
      have hstable : Document.Stable (options.draftOf (.object (root.retyped .plain))) url
          (root.retyped .plain) := by
        rw [Options.draftOf, Members.detectIn_retyped]
        exact stable.retyped
      obtain ⟨after, -, hback⟩ := @compile_retyped _ .plain (.listed names hmem) _ _ _ hurl hstable
        Members.get?_retyped_type (untyped.retyped hlisted) hplain
      rw [Members.retyped_retyped hlisted, hcompile] at hback
      cases hback

end Session
end

def nullableSchema (type : Json) : Members :=
  [("$id", .string "http://example.com/linked"), ("type", type),
    ("properties", .object [("size", .object [("$ref", .string "linked#/definitions/size")])]),
    ("definitions", .object [("size", .object [("type", .string "number")]),
      ("whole", .object [("$ref", .string "/linked")])])]

theorem compile_fallback_linked :
    let url := Url.ofFilePath "/linked.json"
    let names := ["null", "object"]
    let listed := nullableSchema (.array (names.map .string))
    let compile (root : Members) := (Session.ofDocuments [⟨url, .object root⟩]).compile url [] {}
    let warning : Diagnostic := ⟨.warning, .rootTypeFallback, "root type " ++ Text.quotedList names ++
      " is out of scope, falling back to `object`", (Location.ofUrl url.withoutFragment).text⟩
    url.Formed ∧ (Json.object listed).everyObject Members.distinct = true ∧ "object" ∈ names ∧
      Document.Stable .draft07 url listed ∧
      (compile listed).toOption.map (·.root) =
        some (.record "JSONSchema" true [⟨"size", false, .scalar .number⟩]) ∧
      (compile listed).toOption =
        (compile (listed.set "type" (.string "object"))).toOption.map fun plain =>
          { plain with diagnostics := warning :: plain.diagnostics } := by
  intro url names listed compile warning
  have hurl : url.Formed := Url.formed_ofFilePath "/linked.json"
  have hkeys : (Json.object listed).everyObject Members.distinct = true := by decide +kernel
  have hmem : "object" ∈ names := by decide
  have stable : Document.Stable .draft07 url listed := by
    refine Document.stable_of_join (fun hnone => nomatch hnone) fun id hid => ?_
    cases hid
    exact Url.join_absolute rfl
  exact ⟨hurl, hkeys, hmem, stable, by decide +kernel,
    Session.compile_fallback {} hurl hkeys rfl hmem stable⟩

/-- Under draft-07 the root is read in the directory of the document, and behind the reference in that
of its identifier, which draft-04 knows. -/
def overriddenSchema (type : Json) : Members :=
  [("$schema", .string Draft.draft04.uri), ("id", .string "file:///x/r"), ("type", type),
    ("properties", .object [("a", .object [("$ref", .string "../r")])]),
    ("definitions", .object [("t", .object [("id", .string "file:///r"), ("type", .string "string")])])]

def slashlessSchema (type : Json) : Members :=
  [("$id", .string "file:r/"), ("type", type),
    ("properties", .object [("a", .object [("$ref", .string "../r/")])]),
    ("definitions", .object [("t", .object [("$id", .string "file:///x/y/r/r/"),
      ("type", .string "string")])])]

/-- Where the root is read in two ways a reference to it comes to a shape, and then its type counts. -/
theorem compile_fallback_reread :
    let url := Url.ofFilePath "/x/y/d.json"
    let root (schema : Json → Members) (type : Json) (draft : Option Draft) : Option Shape :=
      ((Session.ofDocuments [⟨url, .object (schema type)⟩]).compile url []
        { draft }).toOption.map (·.root)
    let listed : Json := .array [.string "object", .string "null"]
    let record (shape : Shape) : Shape := .record "JSONSchema" true [⟨"a", false, shape⟩]
    let inside : Shape := .record "JSONSchemaA" false [⟨"a", false, .scalar .string⟩]
    Url.isAbsolute "file:///x/r" = true ∧
      root overriddenSchema listed (some .draft07) = some (record (.union [inside, .scalar .null])) ∧
      root overriddenSchema (.string "object") (some .draft07) = some (record inside) ∧
      (Url.parse "file:r/").toOption.map (·.text) = some "file:///r/" ∧
      root slashlessSchema listed none = some (record (.union [inside, .scalar .null])) ∧
      root slashlessSchema (.string "object") none = some (record inside) := by
  decide +kernel

end SchemaShape
