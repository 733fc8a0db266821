import Mathlib.Data.Nat.Find
import SchemaShape.Proofs.Compiler.Success
import SchemaShape.Proofs.Resolver
import SchemaShape.Proofs.Url.Parser

/-! # Refusing repeated references

A compiler that refuses to follow a reference that is being followed already only fails earlier than
one that goes on up to its limit: both fail by a cycle for the same schemas, and give and report the same
for all others.

What a reference leads to depends on its URL alone: the target, its scope, and that no place inside is the
root. So if following a URL comes to an end that is no cycle, then it does so from some least number of
references on, and inside of it the same URL cannot be followed again: there it would need as many, but
there are fewer left.
-/

namespace SchemaShape
set_option autoImplicit false

open Correspondence Compile

/-! ## Cycles -/

def Failure.isRefCycle : Failure → Bool
  | refCycle _ _ _ => true
  | _ => false

/-- A compile fails because references go on inside one another. -/
def FailsByCycle (result : Except Failure Shape) : Prop :=
  ∃ failure, result = .error failure ∧ failure.isRefCycle = true

theorem not_failsByCycle_ok {shape : Shape} : ¬ FailsByCycle (.ok shape) := by
  rintro ⟨_, heq, -⟩
  cases heq

theorem Correspondence.cutsCycles {admits : Json → Prop} {states : Compiler → Compiler → Prop} :
    (identicalUnless (·.isRefCycle = true) admits states).CutsCycles := ⟨id, fun _ _ _ => rfl⟩

theorem Compile.upTo_mono {depth depth' : Nat} (hle : depth ≤ depth') {schema : Json} {outer : Bool}
    {c : Compiler} {result : Except Failure Shape} {added : List Diagnostic}
    (h : (upTo depth schema outer).Gives c result added) (hresult : ¬ FailsByCycle result) :
    (upTo depth' schema outer).Gives c result added := by
  have laws : (sameUnless (·.isRefCycle = true)).Lawful := sameUnless_lawful _
  have hmatches : (sameUnless (·.isRefCycle = true)).Matches Eq (upTo depth schema outer)
      (upTo depth' schema outer) c c :=
    laws.upTo_of_le (.inr ⟨hle, cutsCycles⟩) trivial rfl rfl rfl
  rcases identical_or_cut hmatches with ⟨_, _, hgives, hgives'⟩ | ⟨failure, _, hgives, hcut⟩
  · obtain ⟨rfl, rfl⟩ := h.unique hgives
    exact hgives'
  · obtain ⟨rfl, -⟩ := h.unique hgives
    exact absurd ⟨failure, rfl, hcut⟩ hresult

/-! ## Side by side -/

/-- The first side refuses repeats, the second one does not. -/
def checked : Correspondence :=
  identicalUnless (·.isRefCycle = true) (fun _ => True)
    fun c c' => c' = { c with refusesRepeats := false }

theorem checked_lawful : checked.Lawful := by
  refine identical_lawful (fun h _ => h) ?_ ?_ ?_ ?_ ?_
  · rintro c _ tokens rfl
    rfl
  · rintro c _ key rfl
    rfl
  · rintro c _ rfl
    exact ⟨c.resolver.registry, false, c.maxRefDepth, rfl⟩
  · rintro schema c _ id _ rfl _
    exact enters_of_join rfl fun _ _ => rfl
  · rintro schema c _ reference _ rfl _ _
    refine resolvesTo_of_resolve rfl (fun _ _ => rfl) fun url _ _ => ⟨trivial, ?_, fun _ => rfl⟩
    cases c.refuses url with
    | true => exact .inr ⟨rfl, cutsCycles⟩
    | false => exact .inl rfl

/-! ## Places that lead to the same -/

/-- Without a check for repeats the two places, which are no roots, lead to the same. -/
structure Elsewhere (c c' : Compiler) : Prop where
  draft_eq : c.draft = c'.draft
  repeats_eq : c.refusesRepeats = false ∧ c'.refusesRepeats = false
  registry_eq : c.resolver.registry = c'.resolver.registry
  aliases_eq : c.resolver.aliases = c'.resolver.aliases
  scope_eq : c.resolver.scope = c'.resolver.scope
  inside : c.active ≠ [] ∧ c'.active ≠ []

theorem Elsewhere.target_eq {c c' : Compiler} (h : Elsewhere c c') (url : Url) :
    c.resolver.target url = c'.resolver.target url :=
  Resolver.target_of_lookups h.registry_eq h.aliases_eq url

theorem Elsewhere.resolve_eq {c c' : Compiler} (h : Elsewhere c c') (reference : String) :
    c.resolver.resolve reference = c'.resolver.resolve reference := by
  simp only [Resolver.resolve, h.scope_eq, h.target_eq]

/-- Whether there is a shape, or what kind of failure, is the same on both sides. -/
def settling : Correspondence where
  admits := fun _ => True
  states := Elsewhere
  shapes := fun shape shape' => shape.isNothing = shape'.isNothing
  flags := fun _ _ => True
  entries := fun _ _ => True
  failures := fun failure failure' => failure.isRefCycle = failure'.isRefCycle

theorem settling_lawful : settling.Lawful where
  part := fun h _ => h
  below := fun _ h => ⟨h.draft_eq, h.repeats_eq, h.registry_eq, h.aliases_eq, h.scope_eq, h.inside⟩
  atProperty := fun _ h =>
    ⟨h.draft_eq, h.repeats_eq, h.registry_eq, h.aliases_eq, h.scope_eq, h.inside⟩
  ids := fun {schema} _ _ _ h => congrArg (·.idOf? schema) h.draft_eq
  integers := fun h => congrArg (fun draft : Draft => draft.integerShape.isNothing) h.draft_eq
  enters := by
    intro schema c c' id _ h _
    refine enters_of_join (by rw [h.scope_eq]) fun url _ => ?_
    exact ⟨h.draft_eq, h.repeats_eq, h.registry_eq, h.aliases_eq, rfl, h.inside⟩
  resolves := by
    intro schema c c' reference _ h _ _
    refine resolvesTo_of_resolve (h.resolve_eq reference).symm (fun _ _ => rfl) fun url _ _ => ?_
    have hrefuses : c.refuses url = c'.refuses url := by
      rw [Compiler.refuses, Compiler.refuses, h.repeats_eq.1, h.repeats_eq.2]
      rfl
    refine ⟨trivial, .inl hrefuses, fun _ => ?_⟩
    exact ⟨h.draft_eq, h.repeats_eq, h.registry_eq, h.aliases_eq, rfl, List.cons_ne_nil _ _,
      List.cons_ne_nil _ _⟩
  warning := fun _ _ _ => trivial
  malformed := fun _ _ => rfl
  unsupported := fun _ _ => rfl
  rootType := fun _ _ => rfl
  refCycle := fun _ _ => rfl
  inner := trivial
  fixed := fun _ _ => rfl
  nothing := id
  union := fun _ => rfl
  list := fun _ => rfl
  tuple := fun _ => rfl
  record := fun _ _ _ => rfl
  self := fun _ _ _ => rfl

theorem Elsewhere.failsByCycle_iff {c c' : Compiler} {depth : Nat} {schema : Json}
    {outer outer' : Bool} {result result' : Except Failure Shape} {added added' : List Diagnostic}
    (h : Elsewhere c c') (hgives : (upTo depth schema outer).Gives c result added)
    (hgives' : (upTo depth schema outer').Gives c' result' added') :
    FailsByCycle result ↔ FailsByCycle result' := by
  have hroot : SameRoot c c' outer outer' := by
    have hempty : c.active.isEmpty = false := by simp [h.inside.1]
    have hempty' : c'.active.isEmpty = false := by simp [h.inside.2]
    rw [SameRoot, hempty, hempty', Bool.and_false, Bool.and_false]
  have hmatches : settling.Matches settling.shapes (upTo depth schema outer)
      (upTo depth schema outer') c c' := settling_lawful.upTo depth trivial hroot trivial h
  rcases hmatches with ⟨_, _, _, _, hends, hends', houtcomes, -⟩ | ⟨_, _, _, hcut⟩
  · obtain ⟨rfl, -⟩ := hgives.unique hends
    obtain ⟨rfl, -⟩ := hgives'.unique hends'
    cases houtcomes with
    | value =>
      constructor
      · rintro ⟨_, heq, _⟩
        cases heq
      · rintro ⟨_, heq, _⟩
        cases heq
    | failure hkind =>
      have hkind' : _ = _ := hkind
      constructor
      · rintro ⟨_, heq, hcycle⟩
        cases heq
        exact ⟨_, rfl, hkind' ▸ hcycle⟩
      · rintro ⟨_, heq, hcycle⟩
        cases heq
        exact ⟨_, rfl, hkind' ▸ hcycle⟩
  · exact hcut.1.elim

/-! ## How many references a URL needs -/

section

variable (draft : Draft) (registry : Registry) (aliases : List (String × String))

/-- A place in the scope of a URL, where repeats are not refused. -/
def placeAt (url : Url) : Compiler :=
  { draft, outerName := "", refusesRepeats := false, resolver := { registry, base := url, aliases }
    active := [url.text], location := Location.ofUrl url }

/-- Following `depth` references inside one another is enough for all that a URL leads to. -/
def Settles (url : Url) (depth : Nat) : Prop :=
  ∀ target, Resolver.target { registry, base := url, aliases } url = .ok target →
    ∃ result added, (upTo depth target false).Gives (placeAt draft registry aliases url) result added ∧
      ¬ FailsByCycle result

/-- The place is one of a compile that does not refuse repeats, and inside of a reference or not. -/
structure Bounded (c : Compiler) : Prop where
  draft_eq : c.draft = draft
  repeats_eq : c.refusesRepeats = false
  registry_eq : c.resolver.registry = registry
  aliases_eq : c.resolver.aliases = aliases

variable {draft registry aliases} {c : Compiler} {url : Url} {target : Json} {outer : Bool}
variable {result : Except Failure Shape} {added : List Diagnostic}

theorem Bounded.elsewhere (h : Bounded draft registry aliases c) (url : Url) (location : Location) :
    Elsewhere (c.atTarget url location) (placeAt draft registry aliases url) :=
  ⟨h.draft_eq, ⟨h.repeats_eq, rfl⟩, h.registry_eq, h.aliases_eq, rfl, List.cons_ne_nil _ _,
    List.cons_ne_nil _ _⟩

/-- Wherever a reference to the URL is followed, it settles with the same number of references. -/
theorem Bounded.settles_iff (h : Bounded draft registry aliases c) {depth : Nat} {location : Location}
    (htarget : c.resolver.target url = .ok target)
    (hgives : (upTo depth target outer).Gives (c.atTarget url location) result added) :
    Settles draft registry aliases url depth ↔ ¬ FailsByCycle result := by
  have helsewhere := h.elsewhere url location
  have htarget' : Resolver.target { registry, base := url, aliases } url = .ok target := by
    rw [← htarget]
    exact (helsewhere.target_eq url).symm
  constructor
  · intro hsettles
    obtain ⟨result', added', hgives', hresult'⟩ := hsettles target htarget'
    rwa [helsewhere.failsByCycle_iff hgives hgives']
  · intro hresult other hother
    rw [htarget'] at hother
    cases hother
    obtain ⟨result', added', hgives'⟩ :=
      tidy_upTo depth target false (placeAt draft registry aliases url)
    exact ⟨result', added', hgives', (helsewhere.failsByCycle_iff hgives hgives').not.mp hresult⟩

/-! ## No repeats without a cycle -/

variable (draft registry aliases) in
/-- The first side does not refuse repeats, but may follow only `depth` more references inside one
another. None of the URLs that are being followed settles with fewer. -/
structure Unrepeated (depth : Nat) (c c' : Compiler) : Prop where
  refusing_eq : c' = { c with refusesRepeats := true }
  bounded : Bounded draft registry aliases c
  formed : c.resolver.scope.Formed
  active : ∀ text ∈ c.active, ∃ url : Url, url.Formed ∧ text = url.text ∧
    ∀ fewer < depth, ¬ Settles draft registry aliases url fewer

variable (draft registry aliases) in
def unrepeated (depth : Nat) : Correspondence :=
  identicalUnless (·.isRefCycle = true) (fun _ => True) (Unrepeated draft registry aliases depth)

theorem Bounded.within {resolver : Resolver} (h : Bounded draft registry aliases c) (url : Url)
    (hresolver : resolver = c.resolver.enter url) :
    Bounded draft registry aliases (c.within resolver) := by
  subst hresolver
  exact ⟨h.draft_eq, h.repeats_eq, h.registry_eq, h.aliases_eq⟩

theorem unrepeated_scoped (depth : Nat) : (unrepeated draft registry aliases depth).Scoped := by
  refine identical_scoped (fun h _ => h) ?_ ?_ ?_ ?_
  · rintro c _ tokens ⟨rfl, hbounded, hformed, hactive⟩
    exact ⟨rfl, ⟨hbounded.draft_eq, hbounded.repeats_eq, hbounded.registry_eq, hbounded.aliases_eq⟩,
      hformed, hactive⟩
  · rintro c _ key ⟨rfl, hbounded, hformed, hactive⟩
    exact ⟨rfl, ⟨hbounded.draft_eq, hbounded.repeats_eq, hbounded.registry_eq, hbounded.aliases_eq⟩,
      hformed, hactive⟩
  · rintro c _ ⟨rfl, _⟩
    exact ⟨c.resolver.registry, true, c.maxRefDepth, rfl⟩
  · rintro schema c _ id _ ⟨rfl, hbounded, hformed, hactive⟩ _
    exact enters_of_join rfl fun url hjoin =>
      ⟨rfl, hbounded.within url rfl, hformed.join hjoin, hactive⟩

theorem Unrepeated.not_contains {depth settled : Nat} {c c' : Compiler}
    (h : Unrepeated draft registry aliases depth c c') (hformed : url.Formed)
    (hsettles : Settles draft registry aliases url settled) (hlt : settled < depth) :
    c.active.contains url.text = false := by
  rw [Bool.eq_false_iff]
  intro hcontains
  obtain ⟨other, hother, htext, hfewer⟩ := h.active _ (List.contains_iff_mem.mp hcontains)
  rw [hformed.text_inj hother htext] at hsettles
  exact hfewer settled hlt hsettles

theorem Unrepeated.atTarget {depth settled : Nat} {c c' : Compiler}
    (h : Unrepeated draft registry aliases depth c c') (hformed : url.Formed)
    (hfewer : ∀ fewer < settled, ¬ Settles draft registry aliases url fewer) (hle : settled ≤ depth)
    (location : Location) : Unrepeated draft registry aliases settled (c.atTarget url location)
      (c'.atTarget url location) := by
  obtain ⟨rfl, hbounded, _, hactive⟩ := h
  refine ⟨rfl, ⟨hbounded.draft_eq, hbounded.repeats_eq, hbounded.registry_eq, hbounded.aliases_eq⟩,
    hformed, fun text mem => ?_⟩
  rcases List.mem_cons.mp mem with rfl | hmem
  · exact ⟨url, hformed, rfl, hfewer⟩
  · obtain ⟨other, hother, htext, hothers⟩ := hactive text hmem
    exact ⟨other, hother, htext, fun fewer hlt => hothers fewer (by omega)⟩

theorem Settles.least {depth : Nat} (h : Settles draft registry aliases url depth) :
    ∃ least ≤ depth, Settles draft registry aliases url least ∧
      ∀ fewer < least, ¬ Settles draft registry aliases url fewer := by
  classical
  exact ⟨Nat.find ⟨depth, h⟩, Nat.find_min' _ h, Nat.find_spec ⟨depth, h⟩,
    fun _ => Nat.find_min ⟨depth, h⟩⟩

theorem unrepeated_upTo {depth depth' : Nat} {c c' : Compiler} (schema : Json) (outer : Bool)
    (hreferences : (unrepeated draft registry aliases depth).References (followUpTo depth)
      (followUpTo depth'))
    (h : Unrepeated draft registry aliases depth c c') :
    (unrepeated draft registry aliases depth).Matches Eq (upTo depth schema outer)
      (upTo depth' schema outer) c c' := by
  have hroot : SameRoot c c' outer outer := by
    rw [h.refusing_eq]
    rfl
  rw [upTo_eq, upTo_eq]
  exact (unrepeated_scoped depth).nested _ _ (Nat.le_refl _) (Nat.le_refl _) trivial
    (fun _ _ => hroot) rfl hreferences h

/-- Where the first side follows references and does not fail by a cycle, the second side follows them
to the same ends. -/
theorem unrepeated_references (depth : Nat) {depth' : Nat} (hle : depth ≤ depth') :
    (unrepeated draft registry aliases depth).References (followUpTo depth) (followUpTo depth') := by
  -- What gets smaller is the least number of references that the target settles with: its compile can
  -- be taken to follow no more than these.
  induction depth using Nat.strongRecOn generalizing depth' with
  | _ depth ih =>
    intro members reference _ _ _ c c' outer _ h hflags
    cases hflags
    cases depth with
    | zero => exact matches_cut (gives_refuse reference c) rfl False.elim
    | succ depth =>
      obtain ⟨depth', rfl⟩ : ∃ rest, depth' = rest + 1 := ⟨depth' - 1, by omega⟩
      have hbounded := h.bounded
      have hresolver : c'.resolver = c.resolver := by rw [h.refusing_eq]
      cases hresolve : c.resolver.resolve reference with
      | error failure =>
        exact matches_identical (gives_followTo_error hresolve)
          (gives_followTo_error (hresolver ▸ hresolve))
      | ok found =>
        obtain ⟨url, target⟩ := found
        obtain ⟨hjoin, htarget⟩ := Resolver.resolve_ok hresolve
        have hurl := h.formed.join hjoin
        have hallowed : (c.refusesRepeats && c.active.contains url.text) = false := by
          rw [hbounded.repeats_eq, Bool.false_and]
        obtain ⟨result, added, hgives⟩ :=
          tidy_upTo depth target outer (c.atTarget url (targetLocation c.resolver url))
        by_cases hresult : FailsByCycle result
        · obtain ⟨failure, rfl, hcycle⟩ := hresult
          exact matches_cut (gives_followTo hresolve hallowed hgives) hcycle False.elim
        · obtain ⟨least, hleast_le, hleast, hfewer⟩ :=
            ((hbounded.settles_iff htarget hgives).mpr hresult).least
          have hplaces := h.atTarget hurl hfewer (by omega) (targetLocation c.resolver url)
          obtain ⟨result', added', hgives'⟩ :=
            tidy_upTo least target outer (c.atTarget url (targetLocation c.resolver url))
          have hresult' := (hbounded.settles_iff htarget hgives').mp hleast
          obtain ⟨rfl, rfl⟩ := hgives.unique (upTo_mono hleast_le hgives' hresult')
          have hrest := ih least (by omega) (show least ≤ depth' by omega)
          rcases identical_or_cut (unrepeated_upTo target outer hrest hplaces) with
            ⟨_, _, hends, hends'⟩ | ⟨failure, _, hends, hcut⟩
          · obtain ⟨rfl, rfl⟩ := hgives'.unique hends
            have hallowed' : (c'.refusesRepeats && c'.active.contains url.text) = false := by
              rw [h.refusing_eq]
              exact (Bool.true_and _).trans (h.not_contains hurl hleast (Nat.lt_succ_of_le hleast_le))
            exact matches_identical (gives_followTo hresolve hallowed hgives)
              (gives_followTo (hresolver ▸ hresolve) hallowed' (hresolver.symm ▸ hends'))
          · obtain ⟨rfl, -⟩ := hgives'.unique hends
            exact absurd ⟨failure, rfl, hcut⟩ hresult'

end

/-! ## Whole compiles -/

section

variable {c : Compiler} {depth : Nat} {schema : Json} {outer : Bool}
variable {result result' : Except Failure Shape} {added added' : List Diagnostic}
variable (hgives : (upTo depth schema outer).Gives c result added)
variable (hgives' : (upTo depth schema outer).Gives { c with refusesRepeats := false } result' added')

include hgives hgives'

theorem same_without_check : FailsByCycle result ∨ result = result' ∧ added = added' := by
  have hmatches : checked.Matches Eq (upTo depth schema outer) (upTo depth schema outer) c
      { c with refusesRepeats := false } := checked_lawful.upTo depth trivial rfl rfl rfl
  rcases identical_or_cut hmatches with ⟨_, _, hends, hends'⟩ | ⟨failure, _, hends, hcut⟩
  · obtain ⟨rfl, rfl⟩ := hgives.unique hends
    exact .inr (hends'.unique hgives')
  · exact .inl ⟨failure, (hgives.unique hends).1, hcut⟩

theorem same_with_check (hrefuses : c.refusesRepeats = true) (hroot : c.active = [])
    (hscope : c.resolver.scope.Formed) :
    FailsByCycle result' ∨ result = result' ∧ added = added' := by
  have hplaces : Unrepeated c.draft c.resolver.registry c.resolver.aliases depth
      { c with refusesRepeats := false } c := by
    refine ⟨?_, ⟨rfl, rfl, rfl, rfl⟩, hscope, fun text mem => ?_⟩
    · rw [← hrefuses]
    · rw [hroot] at mem
      exact absurd mem List.not_mem_nil
  rcases identical_or_cut (unrepeated_upTo schema outer
      (unrepeated_references depth (Nat.le_refl depth)) hplaces) with
    ⟨_, _, hends, hends'⟩ | ⟨failure, _, hends, hcut⟩
  · obtain ⟨rfl, rfl⟩ := hgives'.unique hends
    exact .inr (hgives.unique hends')
  · exact .inl ⟨failure, (hgives'.unique hends).1, hcut⟩

end

/-- With the check for repeats a compile fails by a cycle if and only if it does so without it. If it
does not, both give the same and report the same. The scope may be any URL that is parsed, joined or that
of a file, and the document of one (`Url.formed_parse`, `Url.Formed.join`, `Url.formed_ofFilePath`,
`Url.Formed.withoutFragment`). -/
theorem Compiler.compile_refusing (resolver : Resolver) (draft : Draft) (outerName : String)
    (limit : Nat) (schema : Json) (outer : Bool) (hscope : resolver.scope.Formed) :
    let refusing : Compiler := { Compiler.new resolver draft outerName with maxRefDepth := limit }
    let bounded : Compiler := { refusing with refusesRepeats := false }
    (FailsByCycle (refusing.compile schema outer).1 ↔ FailsByCycle (bounded.compile schema outer).1) ∧
      (¬ FailsByCycle (refusing.compile schema outer).1 →
        (refusing.compile schema outer).1 = (bounded.compile schema outer).1 ∧
        (refusing.compile schema outer).2.diagnostics =
          (bounded.compile schema outer).2.diagnostics) := by
  intro refusing bounded
  obtain ⟨result, added, hgives⟩ := tidy_upTo limit schema outer refusing
  obtain ⟨result', added', hgives'⟩ := tidy_upTo limit schema outer bounded
  have hrun : refusing.compile schema outer = (result, { refusing with diagnostics := added }) :=
    hgives.run
  have hrun' : bounded.compile schema outer = (result', { bounded with diagnostics := added' }) :=
    hgives'.run
  have hforth := same_without_check hgives hgives'
  have hback := same_with_check hgives hgives' rfl rfl hscope
  rw [hrun, hrun']
  refine ⟨⟨fun hcycle => ?_, fun hcycle => ?_⟩, fun hresult => hforth.resolve_left hresult⟩
  · rcases hback with hcycle' | ⟨rfl, -⟩
    · exact hcycle'
    · exact hcycle
  · rcases hforth with hcycle' | ⟨rfl, -⟩
    · exact hcycle'
    · exact hcycle

/-- A list of any length, each of whose parts refers to the next one. -/
def chainSchema : Json :=
  let next : Json := .object [("next", .object [("$ref", .string "#/definitions/link")])]
  .object [("type", .string "object"), ("properties", next),
    ("definitions", .object [("link", .object [("type", .string "object"), ("properties", next)])])]

def chainCompiler : Compiler :=
  let registry := Registry.empty.insert ⟨Document.defaultUrl, chainSchema⟩
  { Compiler.new { registry, base := Document.defaultUrl } .draft07 "Chain" with maxRefDepth := 2 }

theorem compile_refusing_chain :
    let bounded : Compiler := { chainCompiler with refusesRepeats := false }
    let cycle (depth : Nat) : Except Failure Shape := .error (.refCycle "#/definitions/link"
      "file:///schema.json#/definitions/link/properties/next" depth)
    chainCompiler.resolver.scope.Formed ∧ (chainCompiler.compile chainSchema true).1 = cycle 1 ∧
      (bounded.compile chainSchema true).1 = cycle 2 ∧
      (FailsByCycle (chainCompiler.compile chainSchema true).1 ↔
        FailsByCycle (bounded.compile chainSchema true).1) := by
  intro bounded cycle
  have hformed : chainCompiler.resolver.scope.Formed := Url.formed_ofFilePath "/schema.json"
  have hrefused : (chainCompiler.compile chainSchema true).1 = cycle 1 := rfl
  have hbounded : (({ chainCompiler with refusesRepeats := false } : Compiler).compile
      chainSchema true).1 = cycle 2 := rfl
  exact ⟨hformed, hrefused, hbounded,
    (Compiler.compile_refusing chainCompiler.resolver .draft07 "Chain" 2 chainSchema true hformed).1⟩

end SchemaShape
