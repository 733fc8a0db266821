import SchemaShape.Proofs.Compiler.Success
import SchemaShape.Proofs.Resolver

/-! # Invariants of a compile

A compile goes down in a schema, to a property, into an identifier, and to the target of a reference that
is not refused. What each of these keeps holds at every moment of a compile if it holds where the compile
starts. It may depend on how many references may still be followed from a place.
-/

namespace SchemaShape
set_option autoImplicit false

open Correspondence Compile

/-- Of the places from which `depth` more references may be followed as much is known wherever a compile
goes. The schemas that are compiled there are among the admitted ones. -/
structure Compiler.Invariant (admits : Json → Prop) (place : Nat → Compiler → Prop) : Prop where
  part : ∀ {schema part}, admits (.object schema) → Node.Subschema schema part → admits part
  below : ∀ {depth c} tokens, place depth c → place depth (c.below tokens)
  atProperty : ∀ {depth c} key, place depth c → place depth (c.atProperty key)
  within : ∀ {depth c id url} {schema : Members}, admits (.object schema) → place depth c →
    c.draft.idOf? schema = some id → c.resolver.scope.join id = .ok url →
    place depth (c.within (c.resolver.enter url))
  target : ∀ {depth c reference url target} {schema : Members}, admits (.object schema) →
    place (depth + 1) c → schema.get? "$ref" = some (.string reference) →
    c.resolver.resolve reference = .ok (url, target) → admits target
  atTarget : ∀ {depth c reference url target location} {schema : Members},
    admits (.object schema) → place (depth + 1) c →
    schema.get? "$ref" = some (.string reference) →
    c.resolver.resolve reference = .ok (url, target) → c.refuses url = false →
    place depth (c.atTarget url location)

namespace Correspondence

variable {admits : Json → Prop} {place : Nat → Compiler → Prop} {watch : Watch}
variable {cut : Failure → Prop} {resumes : Prop} {reported : Nat → Prop}

/-- One side alone, where a reference is refused only at depths that are reported. -/
def alone (admits : Json → Prop) (cut : Failure → Prop) (resumes : Prop) (reported : Nat → Prop) :
    Correspondence where
  admits := admits
  states := Eq
  shapes := Eq
  flags := Eq
  entries := Eq
  failures := fun failure failure' => failure = failure' ∧
    ∀ reference location depth, failure = .refCycle reference location depth → reported depth
  cut := cut
  resumes := resumes

theorem alone_watched (invariant : Compiler.Invariant admits place)
    (hschema : ∀ schema outer depth c, admits schema → place depth c →
      watch.Passes (.schema schema outer) c) (depth : Nat) :
    ((alone admits cut resumes reported).withStates fun c c' => c = c' ∧ place depth c).Watched
      watch where
  toRules := by
    refine rules_of_equal rfl rfl ?_ (fun tokens h => ?_) (fun key h => ?_) ?_ ?_ ?_ ?_
    · rintro c _ ⟨rfl, -⟩
      exact ⟨rfl, rfl, rfl⟩
    · exact ⟨congrArg (·.below tokens) h.1, invariant.below tokens h.2⟩
    · exact ⟨congrArg (·.atProperty key) h.1, invariant.atProperty key h.2⟩
    · exact fun kind message h => congrArg (fun c : Compiler => c.warning kind message) h.1
    · exact fun reason h =>
        ⟨congrArg (fun c : Compiler => Failure.malformedSchema reason c.location.text) h.1, nofun⟩
    · exact fun reason h =>
        ⟨congrArg (fun c : Compiler => Failure.unsupportedSchema reason c.location.text) h.1, nofun⟩
    · exact fun types h =>
        ⟨congrArg (fun c : Compiler => Failure.unsupportedRootType types c.location.text) h.1, nofun⟩
  part := invariant.part
  passes := fun outer hadmits h => .inl (hschema _ outer depth _ hadmits h.2)
  ids := fun {schema} _ _ _ _ h _ => congrArg (·.draft.idOf? schema) h.1
  enters := by
    rintro schema c _ id hadmits ⟨rfl, hplace⟩ hid
    exact enters_of_join rfl fun url hjoin => ⟨rfl, invariant.within hadmits hplace hid hjoin⟩

theorem alone_lockstep (invariant : Compiler.Invariant admits place)
    (hschema : ∀ schema outer depth c, admits schema → place depth c →
      watch.Passes (.schema schema outer) c)
    (hrepeated : ∀ reference depth c, place (depth + 1) c → watch.Passes (.repeated reference) c)
    (hreported : ∀ depth c, place depth c → reported c.active.length) :
    (alone admits cut resumes reported).Lockstep watch fun depth c c' => c = c' ∧ place depth c where
  watched := alone_watched invariant hschema
  resolves := by
    rintro depth schema c _ reference hadmits ⟨rfl, hplace⟩ hget hne
    refine resolvesTo_of_resolve rfl (fun failure hresolve => ?_) fun url target hresolve => ?_
    · obtain ⟨reason, rfl⟩ := Resolver.resolve_error hresolve
      exact ⟨rfl, nofun⟩
    · exact ⟨invariant.target hadmits hplace hget hresolve, .inl rfl,
        fun hrefuses => ⟨rfl, invariant.atTarget hadmits hplace hget hresolve hrefuses⟩⟩
  refCycle := by
    rintro depth c _ reference ⟨rfl, hplace⟩
    refine ⟨rfl, fun _ _ _ heq => ?_⟩
    cases heq
    exact hreported depth c hplace
  repeated := fun reference h _ => .inl (hrepeated reference _ _ h.2)

theorem alone_ends {action action' : Compile Shape} {c : Compiler}
    (h : (alone admits cut resumes reported).Matches Eq action action' c c) :
    (∃ result added, action.Gives c result added ∧ action'.Gives c result added ∧
      ∀ reference location depth, result = .error (.refCycle reference location depth) →
        reported depth) ∨
      ∃ failure added, action.Gives c (.error failure) added ∧ cut failure ∧
        (resumes → ∃ result rest, action'.Gives c result (added ++ rest)) := by
  rcases h with ⟨_, added, _, added', hgives, hgives', houtcomes, hentries⟩ |
    ⟨failure, added, hgives, hcut, hresumes⟩
  · have hadded : added = added' := List.forall₂_eq_eq_eq ▸ hentries
    subst hadded
    refine .inl ?_
    cases houtcomes with
    | value heq =>
      subst heq
      exact ⟨_, added, hgives, hgives', nofun⟩
    | failure heq =>
      obtain ⟨rfl, hreported⟩ := heq
      refine ⟨_, added, hgives, hgives', fun _ _ _ hresult => ?_⟩
      cases hresult
      exact hreported _ _ _ rfl
  · refine .inr ⟨failure, added, hgives, hcut, fun hgoes => ?_⟩
    obtain ⟨result, before, rest, hgives', hentries, -⟩ := hresumes hgoes
    have hbefore : added = before := List.forall₂_eq_eq_eq ▸ hentries
    exact ⟨result, rest, hbefore ▸ hgives'⟩

end Correspondence

namespace Compiler

variable {admits : Json → Prop} {place : Nat → Compiler → Prop}
variable {c : Compiler} {schema : Json} {outer : Bool}

/-- With `more` references to follow a compile gives the same or is cut off, if that is so where no
references are left to follow without these. -/
theorem Invariant.upTo_more {cut : Failure → Prop} {resumes : Prop} {reported : Nat → Prop}
    {more depth : Nat} (invariant : Invariant admits place)
    (hreported : ∀ depth c, place depth c → reported c.active.length)
    (hlast : ((alone admits cut resumes reported).withStates fun c c' => c = c' ∧ place 0 c).References
      (fun reference _ => refuse reference) (followUpTo more))
    (hadmits : admits schema) (h : place depth c) :
    (∃ result added, (upTo depth schema outer).Gives c result added ∧
      (upTo (more + depth) schema outer).Gives c result added ∧
      ∀ reference location depth, result = .error (.refCycle reference location depth) →
        reported depth) ∨
    ∃ failure added, (upTo depth schema outer).Gives c (.error failure) added ∧ cut failure ∧
      (resumes → ∃ result rest, (upTo (more + depth) schema outer).Gives c result (added ++ rest)) := by
  have laws : (alone admits cut resumes reported).Lockstep .idle
      fun depth c c' => c = c' ∧ place depth c :=
    alone_lockstep invariant (fun _ _ _ _ _ _ => rfl) (fun _ _ _ _ => rfl) hreported
  have hmatches : (alone admits cut resumes reported).Matches Eq (Watch.idle.upTo depth schema outer)
      (upTo (more + depth) schema outer) c c := laws.upTo hlast depth hadmits rfl rfl ⟨rfl, h⟩
  rw [Watch.upTo_idle] at hmatches
  exact alone_ends hmatches

/-- Where an invariant holds, a compile meets only what is expected there. -/
theorem Invariant.meetsOnly {expects : Moment → Compiler → Bool}
    (invariant : Invariant admits place)
    (hschema : ∀ schema outer depth c, admits schema → place depth c →
      expects (.schema schema outer) { c with diagnostics := [] } = true)
    (hrepeated : ∀ reference depth c, place (depth + 1) c →
      expects (.repeated reference) { c with diagnostics := [] } = true)
    (hadmits : admits schema) (h : place c.remaining c) : c.MeetsOnly expects schema outer := by
  intro alarm
  have laws : (alone admits (fun _ => False) False fun _ => True).Lockstep ⟨expects, alarm⟩
      fun depth c c' => c = c' ∧ place depth c :=
    alone_lockstep invariant hschema hrepeated fun _ _ _ => trivial
  have hmatches : (alone admits (fun _ => False) False fun _ => True).Matches Eq
      (Watch.upTo ⟨expects, alarm⟩ c.remaining schema outer) (upTo (0 + c.remaining) schema outer) c c :=
    laws.upTo laws.refused c.remaining hadmits rfl rfl ⟨rfl, h⟩
  rw [Nat.zero_add] at hmatches
  rcases alone_ends hmatches with ⟨_, _, hgives, hgives', -⟩ | ⟨_, _, _, hcut, -⟩
  · exact hgives.run.trans hgives'.run.symm
  · exact hcut.elim

end Compiler

end SchemaShape
