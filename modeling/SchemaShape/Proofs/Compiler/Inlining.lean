import Mathlib.Logic.Relation
import SchemaShape.Proofs.Compiler.Replacing
import SchemaShape.Proofs.Resolver

/-! # Inlining references

A reference into its own document can be replaced by what it resolves to: a compile that succeeded
succeeds with the same shape, and reports the same up to locations.

Following a reference changes where the compiler is: its location, the references being followed, and the
fragment of the scope. None of these has a say in a shape. They only decide about failures, and of those
there are fewer at the place of the reference, where one reference less is being followed. Only the root
position is lost behind a reference, which matters to a list of types.
-/

namespace SchemaShape
set_option autoImplicit false

open Correspondence Compile

/-! ## One reference replaced -/

/-- `schema'` is `schema` with one reference replaced by its target. The reference stands in the schema
itself, without a type and without an identifier of its own, and it refers to its own document, though
not to the root of that. At the root position a list of types may not take its place. -/
inductive Inlined (draft : Draft) : (root : Bool) → Resolver → Json → Json → Prop where
  | reference {root : Bool} {resolver : Resolver} {schema : Members} {reference : String} {url : Url}
      {target : Json} (htype : schema.get? "type" = none) (hid : draft.idOf? schema = none)
      (hget : schema.get? "$ref" = some (.string reference))
      (hlocal : Url.isLocal reference = true) (hother : reference ≠ "#")
      (hresolve : resolver.resolve reference = .ok (url, target))
      (hroot : root = true → ∀ types, target.get? "type" ≠ some (.array types)) :
      Inlined draft root resolver (.object schema) target
  | branch {root : Bool} {resolver inside : Resolver} {schema : Members} {keyword : String}
      {before after : List Json} {part part' : Json} (hkeyword : keyword ∈ Node.branchKeywords)
      (hget : schema.get? keyword = some (.array (before ++ part :: after)))
      (hinside : resolver.inside draft schema = .ok inside)
      (h : Inlined draft false inside part part') :
      Inlined draft root resolver (.object schema)
        (.object (schema.set keyword (.array (before ++ part' :: after))))
  | property {root : Bool} {resolver inside : Resolver} {schema properties : Members} {key : String}
      {part part' : Json} (hkey : key ∉ Node.reservedNames)
      (hget : schema.get? "properties" = some (.object properties))
      (hpart : Members.get? properties key = some part)
      (hinside : resolver.inside draft schema = .ok inside)
      (h : Inlined draft false inside part part') :
      Inlined draft root resolver (.object schema)
        (.object (schema.set "properties" (.object (Members.set key part' properties))))
  | position {root : Bool} {resolver inside : Resolver} {schema : Members}
      {before after : List Json} {part part' : Json}
      (hget : schema.get? "items" = some (.array (before ++ part :: after)))
      (hinside : resolver.inside draft schema = .ok inside)
      (h : Inlined draft false inside part part') :
      Inlined draft root resolver (.object schema)
        (.object (schema.set "items" (.array (before ++ part' :: after))))
  | items {root : Bool} {resolver inside : Resolver} {schema : Members} {part part' : Json}
      (hget : schema.get? "items" = some part)
      (hinside : resolver.inside draft schema = .ok inside)
      (h : Inlined draft false inside part part') :
      Inlined draft root resolver (.object schema) (.object (schema.set "items" part'))

/-- What a diagnostic says, wherever it was reported. -/
def Diagnostic.said (d : Diagnostic) : Severity × Diagnostic.Kind × String :=
  (d.severity, d.kind, d.message)

theorem Diagnostic.said_eq {added added' : List Diagnostic}
    (h : List.Forall₂ (fun d d' => d.said = d'.said) added added') :
    added.map Diagnostic.said = added'.map Diagnostic.said := by
  rw [← List.forall₂_eq_eq_eq, List.forall₂_map_left_iff, List.forall₂_map_right_iff]
  exact h

/-! ## Places that differ in what has no say -/

/-- The places are alike but for locations, fragments of scopes, and the references being followed, of
which there are no others at the second one. -/
structure Beside (c c' : Compiler) : Prop where
  draft_eq : c.draft = c'.draft
  outerName_eq : c.outerName = c'.outerName
  names_eq : c.names = c'.names
  repeats_eq : c.refusesRepeats = c'.refusesRepeats
  registry_eq : c.resolver.registry = c'.resolver.registry
  aliases_eq : c.resolver.aliases = c'.resolver.aliases
  scope_eq : ∃ fragment, c'.resolver.scope = { c.resolver.scope with fragment }
  active_sub : c'.active ⊆ c.active

namespace Beside

variable {c c' : Compiler}

theorem refl (c : Compiler) : Beside c c :=
  ⟨rfl, rfl, rfl, rfl, rfl, rfl, ⟨c.resolver.scope.fragment, rfl⟩, List.Subset.refl _⟩

theorem join_eq (h : Beside c c') (reference : String) :
    c'.resolver.scope.join reference = c.resolver.scope.join reference := by
  obtain ⟨fragment, hscope⟩ := h.scope_eq
  rw [hscope, Url.join_fragment]

theorem target_eq (h : Beside c c') (url : Url) :
    c'.resolver.target url = c.resolver.target url :=
  (Resolver.target_of_lookups h.registry_eq h.aliases_eq url).symm

theorem resolve_eq (h : Beside c c') {reference : String} {url : Url} {target : Json} :
    c.resolver.resolve reference = .ok (url, target) →
      c'.resolver.resolve reference = .ok (url, target) := by
  intro hresolve
  obtain ⟨hjoin, htarget⟩ := Resolver.resolve_ok hresolve
  simp only [Resolver.resolve, h.join_eq, hjoin, h.target_eq, htarget]
  rfl

theorem entered (h : Beside c c') {place place' : Compiler} (url : Url)
    (hplace : place.draft = c.draft ∧ place.outerName = c.outerName ∧ place.names = c.names ∧
      place.refusesRepeats = c.refusesRepeats ∧ place.resolver = c.resolver.enter url)
    (hplace' : place'.draft = c'.draft ∧ place'.outerName = c'.outerName ∧ place'.names = c'.names ∧
      place'.refusesRepeats = c'.refusesRepeats ∧ place'.resolver = c'.resolver.enter url)
    (hactive : place'.active ⊆ place.active) : Beside place place' := by
  obtain ⟨hdraft, houter, hnames, hrepeats, hresolver⟩ := hplace
  obtain ⟨hdraft', houter', hnames', hrepeats', hresolver'⟩ := hplace'
  refine ⟨?_, ?_, ?_, ?_, ?_, ?_, ⟨url.fragment, ?_⟩, hactive⟩
  · rw [hdraft, hdraft', h.draft_eq]
  · rw [houter, houter', h.outerName_eq]
  · rw [hnames, hnames', h.names_eq]
  · rw [hrepeats, hrepeats', h.repeats_eq]
  · rw [hresolver, hresolver']
    exact h.registry_eq
  · rw [hresolver, hresolver']
    exact h.aliases_eq
  · rw [hresolver, hresolver']
    rfl

end Beside

/-- If the first side succeeds, the second one succeeds with the same shape and says the same. -/
def transparent : Correspondence where
  admits := fun _ => True
  states := Beside
  shapes := Eq
  flags := Eq
  entries := fun d d' => d.said = d'.said
  failures := fun _ _ => True
  cut := fun _ => True

theorem transparent_lawful : transparent.Lawful where
  toRules := by
    refine rules_of_equal rfl rfl (fun h => ⟨h.draft_eq, h.outerName_eq, h.names_eq⟩) ?_ ?_
      (fun _ _ _ => rfl) (fun _ _ => trivial) (fun _ _ => trivial) fun _ _ => trivial
    · exact fun _ h => ⟨h.draft_eq, h.outerName_eq, h.names_eq, h.repeats_eq, h.registry_eq,
        h.aliases_eq, h.scope_eq, h.active_sub⟩
    · intro c c' key h
      have hnames : (c.atProperty key).names = (c'.atProperty key).names :=
        congrArg (· ++ [key]) h.names_eq
      exact ⟨h.draft_eq, h.outerName_eq, hnames, h.repeats_eq, h.registry_eq, h.aliases_eq,
        h.scope_eq, h.active_sub⟩
  part := fun h _ => h
  ids := fun {schema} _ _ _ h => congrArg (·.idOf? schema) h.draft_eq
  enters := by
    intro schema c c' id _ h _
    exact enters_of_join (h.join_eq id) fun url _ =>
      h.entered url ⟨rfl, rfl, rfl, rfl, rfl⟩ ⟨rfl, rfl, rfl, rfl, rfl⟩ h.active_sub
  resolves := by
    intro schema c c' reference _ h _ _
    rw [Resolves, ResolvesTo]
    cases hresolve : c.resolver.resolve reference with
    | error e =>
      cases c'.resolver.resolve reference with
      | error e' => trivial
      | ok found => exact ⟨id, trivial⟩
    | ok found =>
      obtain ⟨url, target⟩ := found
      rw [h.resolve_eq hresolve]
      refine ⟨fun _ _ => rfl, trivial, ?_, fun _ => h.entered url ⟨rfl, rfl, rfl, rfl, rfl⟩
        ⟨rfl, rfl, rfl, rfl, rfl⟩ (List.cons_subset_cons _ h.active_sub)⟩
      cases hrefused : c.refuses url with
      | true => exact .inr ⟨rfl, id, fun _ _ _ => trivial⟩
      | false =>
        refine .inl ?_
        rw [Compiler.refuses] at hrefused ⊢
        rw [← h.repeats_eq]
        cases hrefuses : c.refusesRepeats with
        | false => rfl
        | true =>
          rw [hrefuses, Bool.true_and, Bool.eq_false_iff, ne_eq, List.contains_iff_mem] at hrefused
          symm
          rw [Bool.true_and, Bool.eq_false_iff, ne_eq, List.contains_iff_mem]
          exact fun mem => hrefused (h.active_sub mem)
  refCycle := fun _ _ => trivial

/-! ## Schemas with a reference replaced -/

theorem Correspondence.matches_of_fails {K : Correspondence} (hresumes : ¬ K.resumes)
    (hcut : ∀ failure, K.cut failure) {α α' : Type} {values : α → α' → Prop} {action : Compile α}
    {action' other : Compile α'} {c c' : Compiler} {failure : Failure} {added : List Diagnostic}
    (h : K.Matches values action action' c c') (hfails : action'.Gives c' (.error failure) added) :
    K.Matches values action other c c' := by
  rcases h with ⟨_, _, _, _, hgives, hgives', houtcomes, -⟩ | ⟨_, _, hgives, -⟩
  · obtain ⟨rfl, -⟩ := hfails.unique hgives'
    cases houtcomes with
    | failure => exact matches_cut hgives (hcut _) fun hgoes => absurd hgoes hresumes
  · exact matches_cut hgives (hcut _) fun hgoes => absurd hgoes hresumes

section

variable {draft : Draft} {resolver inside : Resolver} {schema : Members} {c c' : Compiler}

/-- The places where references are resolved by this resolver. -/
def Compiler.isAt (draft : Draft) (resolver : Resolver) (c : Compiler) : Prop :=
  c.draft = draft ∧ c.resolver = resolver

theorem transparent_rules (draft : Draft) (resolver : Resolver) :
    (transparent.restrict (Compiler.isAt draft resolver)).Rules :=
  transparent_lawful.toRules.restrict (fun _ _ h => h) fun _ _ h => h

theorem array_items {follow : Node.Follow} {inner : Node.Inner} {height : Nat} {node : Members}
    {part : Json} (hget : schema.get? "items" = some (.object node))
    (hpart : (transparent.restrict (Compiler.isAt draft resolver)).Parts inner
      (fun part => nested follow height part false) (.object node) part)
    (hheight : part.height ≤ height)
    (h : (transparent.restrict (Compiler.isAt draft resolver)).states c c') :
    transparent.Matches Eq (Node.array inner schema)
      (Node.array (fun part => nested follow height part false) (schema.set "items" part)) c c' := by
  obtain ⟨height, rfl⟩ : ∃ rest, height = rest + 1 :=
    Nat.exists_eq_succ_of_ne_zero (by have := part.height_pos; omega)
  have hlist := (transparent_rules draft resolver).listOf hpart h
  have hget' := Members.get?_set_self schema "items" part
  simp only [Node.array, hget, hget']
  cases part with
  | bool admitted =>
    cases admitted with
    | true =>
      refine matches_of_gives (fun _ _ => id) (fun result added hgives => ?_) hlist
      obtain ⟨rfl, rfl⟩ := hgives.unique
        (gives_bind (gives_descend (gives_pure _ _)) (gives_pure _ _))
      exact gives_pure _ _
    | false =>
      exact matches_of_fails id (fun _ => trivial) hlist
        (gives_bind_error (gives_descend (gives_unsupported _ _)))
  | array items =>
    exact matches_of_fails id (fun _ => trivial) hlist
      (gives_bind_error (gives_descend (gives_malformed _ _)))
  | _ => exact hlist

theorem shape_alike {schema' : Members} {inner inner' : Node.Inner} {depth : Nat} {outer : Bool}
    (hid : draft.idOf? schema' = draft.idOf? schema)
    (hinside : resolver.inside draft schema = .ok inside)
    (halike : (transparent.restrict (Compiler.isAt draft inside)).Alike schema schema' inner inner')
    (hroot : SameRoot c c' outer outer) (hat : c.isAt draft resolver) (h : Beside c c') :
    transparent.Matches Eq (Node.shape (followUpTo depth) inner (.object schema) outer)
      (Node.shape (followUpTo depth) inner' (.object schema') outer) c c' := by
  have hmembers : ∀ place place' : Compiler, place.isAt draft inside → Beside place place' →
      SameRoot place place' outer outer →
      transparent.Matches Eq (Node.members (followUpTo depth) inner schema outer)
        (Node.members (followUpTo depth) inner' schema' outer) place place' :=
    fun _ _ hat hbeside hroot => (transparent_rules draft inside).members halike trivial
      (fun _ _ => hroot) rfl (fun schema reference hadmits hget hne place place' outer outer' h =>
        transparent_lawful.references (.inl rfl) schema reference hadmits hget hne place place' outer
          outer' h.1) ⟨hbeside, hat⟩
  simp only [Node.shape]
  refine matches_inspect (fun _ => rfl) (fun _ => rfl) ?_
  rw [← h.draft_eq, hat.1, hid]
  rw [Resolver.inside] at hinside
  obtain hnone | ⟨id, hsome⟩ := Option.eq_none_or_eq_some (draft.idOf? schema)
  · rw [hnone] at hinside ⊢
    cases hinside
    exact hmembers c c' hat h hroot
  · rw [hsome] at hinside ⊢
    have hown : c.draft.idOf? schema = some id := by rw [hat.1, hsome]
    have henters : transparent.Enters id c c' := transparent_lawful.enters trivial h hown
    refine transparent_lawful.matches_inScope h henters fun _ _ henter hbeside => ?_
    have henter' : c.resolver.enterId id = .ok inside := by
      rw [hat.2]
      exact hinside
    rw [henter'] at henter
    cases henter
    exact hmembers _ _ ⟨hat.1, rfl⟩ hbeside hroot

theorem Inlined.object {root : Bool} {part part' : Json} (h : Inlined draft root resolver part part') :
    ∃ members, part = .object members := by
  cases h <;> exact ⟨_, rfl⟩

theorem gives_reference {follow : Node.Follow} {inner : Node.Inner} {reference : String}
    {outer : Bool} {result : Except Failure Shape} {added : List Diagnostic}
    (htype : schema.get? "type" = none) (hid : c.draft.idOf? schema = none)
    (hget : schema.get? "$ref" = some (.string reference)) (hother : reference ≠ "#")
    (h : (follow reference outer).Gives c result added) :
    (Node.shape follow inner (.object schema) outer).Gives c result added := by
  have hinside : Node.Inside schema c c := by rw [Node.Inside, hid]
  refine Node.gives_shape hinside ?_
  simp only [Node.members, htype, Node.untyped, hget, Node.reference, if_neg hother]
  exact h

theorem Beside.atTarget (h : Beside c c') {reference : String} {url : Url}
    (hlocal : Url.isLocal reference = true) (hjoin : c.resolver.scope.join reference = .ok url) :
    Beside (c.atTarget url (targetLocation c.resolver url)) c' := by
  obtain ⟨fragment, hscope⟩ := h.scope_eq
  rw [Url.join_local hlocal] at hjoin
  cases hjoin
  exact ⟨h.draft_eq, h.outerName_eq, h.names_eq, h.repeats_eq, h.registry_eq, h.aliases_eq,
    ⟨fragment, hscope⟩, List.subset_cons_of_subset _ h.active_sub⟩

theorem inlined_reference {depth height : Nat} {reference : String} {url : Url} {target : Json}
    {root : Bool} (hlocal : Url.isLocal reference = true)
    (hresolve : c.resolver.resolve reference = .ok (url, target)) (h : Beside c c')
    (hlist : root = true → ∀ types, target.get? "type" ≠ some (.array types))
    (hheight : target.height ≤ height) :
    transparent.Matches Eq (followUpTo depth reference root)
      (nested (followUpTo depth) height target root) c c' := by
  cases depth with
  | zero => exact matches_cut (gives_refuse reference c) trivial False.elim
  | succ depth =>
    cases hrefused : c.refusesRepeats && c.active.contains url.text with
    | true => exact matches_cut (gives_followTo_refused hresolve hrefused) trivial False.elim
    | false =>
      have hbeside := h.atTarget hlocal (Resolver.resolve_ok hresolve).1
      refine matches_of_gives (fun _ _ => gives_followTo hresolve hrefused) (fun _ _ => id) ?_
      rw [upTo_eq]
      -- Where the reference stands, one more reference may be followed.
      refine transparent_lawful.nested _ _ (Nat.le_refl _) hheight trivial (fun types htypes => ?_) rfl
        (transparent_lawful.references (.inr ⟨Nat.le_succ _, id, fun _ _ _ => trivial⟩)) hbeside
      cases root with
      | false => rfl
      | true => exact absurd htypes (hlist rfl types)

theorem inners_at {depth height height' : Nat} (hheight : (Json.object schema).height ≤ height + 1)
    (hheight' : (Json.object schema).height ≤ height' + 1) :
    (transparent.restrict (Compiler.isAt draft inside)).Inners schema
      (fun part => nested (followUpTo depth) height part false)
      (fun part => nested (followUpTo depth) height' part false) := by
  intro part hpart place place' h
  have hlt := hpart.height_lt
  exact transparent_lawful.nested height height' (by omega) (by omega) trivial (fun _ _ => rfl) rfl
    (transparent_lawful.references (.inl rfl)) h.1

/-- Two schemas in which one inside schema differs are compiled alike if that one is. -/
theorem nested_alike {depth height height' : Nat} {root : Bool} {keyword : String}
    {value part part' : Json} (hkeyword : keyword ≠ "$id" ∧ keyword ≠ "id")
    (hinside : resolver.inside draft schema = .ok inside) (hsub : Node.Subschema schema part)
    (hsub' : Node.Subschema (schema.set keyword value) part')
    (hpart : ∀ height height' place place', place.isAt draft inside → Beside place place' →
      part.height ≤ height → part.height ≤ height' → part'.height ≤ height' →
      transparent.Matches Eq (nested (followUpTo depth) height part false)
        (nested (followUpTo depth) height' part' false) place place')
    (halike : ∀ height height', part'.height ≤ height' →
      let inner := fun part => nested (followUpTo depth) height part false
      let inner' := fun part => nested (followUpTo depth) height' part false
      (transparent.restrict (Compiler.isAt draft inside)).Inners schema inner inner' →
      (transparent.restrict (Compiler.isAt draft inside)).Parts inner inner' part part' →
      (transparent.restrict (Compiler.isAt draft inside)).Alike schema (schema.set keyword value)
        inner inner')
    (hat : c.isAt draft resolver) (hbeside : Beside c c') (hroot : SameRoot c c' root root)
    (hheight : (Json.object schema).height ≤ height)
    (hheight' : (Json.object schema).height ≤ height')
    (hreplaced : (Json.object (schema.set keyword value)).height ≤ height') :
    transparent.Matches Eq (nested (followUpTo depth) height (.object schema) root)
      (nested (followUpTo depth) height' (.object (schema.set keyword value)) root) c c' := by
  have hpos := (Json.object schema).height_pos
  have hlt := hsub.height_lt
  have hlt' := hsub'.height_lt
  obtain ⟨height, rfl⟩ : ∃ rest, height = rest + 1 := Nat.exists_eq_succ_of_ne_zero (by omega)
  obtain ⟨height', rfl⟩ : ∃ rest, height' = rest + 1 := Nat.exists_eq_succ_of_ne_zero (by omega)
  refine shape_alike (Draft.idOf?_set value hkeyword.1 hkeyword.2) hinside
    (halike height height' (by omega) (inners_at hheight hheight') fun place place' h => ?_) hroot hat
    hbeside
  exact hpart height height' place place' h.2 h.1 (by omega) (by omega) (by omega)

/-- A schema with a reference replaced is compiled as the schema itself is, if that succeeds. -/
theorem inlined_nested {depth height height' : Nat} {root : Bool} {part part' : Json}
    (h : Inlined draft root resolver part part') (hat : c.isAt draft resolver) (hbeside : Beside c c')
    (hroot : SameRoot c c' root root) (hheight : part.height ≤ height)
    (hheight' : part.height ≤ height') (hreplaced : part'.height ≤ height') :
    transparent.Matches Eq (nested (followUpTo depth) height part root)
      (nested (followUpTo depth) height' part' root) c c' := by
  induction h generalizing height height' c c' with
  | @reference root resolver schema reference url target htype hid hget hlocal hother hresolve hlist =>
    obtain ⟨height, rfl⟩ : ∃ rest, height = rest + 1 :=
      Nat.exists_eq_succ_of_ne_zero (by have := (Json.object schema).height_pos; omega)
    obtain ⟨rfl, rfl⟩ := hat
    exact matches_of_gives (fun _ _ => gives_reference htype hid hget hother) (fun _ _ => id)
      (inlined_reference hlocal hresolve hbeside hlist hreplaced)
  | @branch root resolver inside schema keyword before after part part' hkeyword hget hinside _ ih =>
    have hapart : ∀ keyword ∈ Node.branchKeywords, keyword ≠ "$id" ∧ keyword ≠ "id" := by decide
    have hmem : ∀ part, part ∈ before ++ part :: after := fun part =>
      List.mem_append_right _ (List.mem_cons_self ..)
    exact nested_alike (hapart keyword hkeyword) hinside (.branch hkeyword hget (hmem part))
      (.branch hkeyword (Members.get?_set_self ..) (hmem part'))
      (fun _ _ _ _ hat hbeside => ih hat hbeside rfl)
      (fun _ _ _ hinner => (transparent_rules _ _).alike_branch hinner hkeyword hget) hat hbeside hroot
      hheight hheight' hreplaced
  | @property root resolver inside schema properties key part part' hkey hget hfind hinside _ ih =>
    have hmem : (key, part') ∈ Members.set key part' properties :=
      Members.mem_of_get? (Members.get?_set_self ..)
    exact nested_alike (by decide) hinside (.property hget (Members.mem_of_get? hfind))
      (.property (Members.get?_set_self ..) hmem)
      (fun _ _ _ _ hat hbeside => ih hat hbeside rfl)
      (fun _ _ _ hinner => (transparent_rules _ _).alike_property hinner hkey hget hfind) hat hbeside
      hroot hheight hheight' hreplaced
  | @position root resolver inside schema before after part part' hget hinside _ ih =>
    have hmem : ∀ part, part ∈ before ++ part :: after := fun part =>
      List.mem_append_right _ (List.mem_cons_self ..)
    exact nested_alike (by decide) hinside (.position hget (hmem part))
      (.position (Members.get?_set_self ..) (hmem part'))
      (fun _ _ _ _ hat hbeside => ih hat hbeside rfl)
      (fun _ _ _ hinner => (transparent_rules _ _).alike_position hinner hget) hat hbeside hroot
      hheight hheight' hreplaced
  | @items root resolver inside schema part part' hget hinside h ih =>
    obtain ⟨node, rfl⟩ := h.object
    refine nested_alike (by decide) hinside (.items hget) (.items (Members.get?_set_self ..))
      (fun _ _ _ _ hat hbeside => ih hat hbeside rfl) (fun height height' hle hinner hpart => ?_) hat
      hbeside hroot hheight hheight' hreplaced
    refine (transparent_rules _ _).alike_typed hinner (by decide) fun type _ _ _ _ hflags h => ?_
    exact (transparent_rules _ _).typed_items hinner type hflags h (array_items hget hpart hle h)

/-- A reference nests less deep than what takes its place, so heights have to be adjusted. -/
theorem inlined_upTo (depth : Nat) {root : Bool} {part part' : Json}
    (h : Inlined c.draft root c.resolver part part') :
    transparent.Matches Eq (upTo depth part root) (upTo depth part' root) c c := by
  let height := max part.height part'.height
  have hwide : transparent.Matches Eq (nested (followUpTo depth) part.height part root)
      (nested (followUpTo depth) height part' root) c c :=
    inlined_nested h ⟨rfl, rfl⟩ (Beside.refl c) rfl (Nat.le_refl _) (Nat.le_max_left ..)
      (Nat.le_max_right ..)
  have hheights : same.Matches Eq (nested (followUpTo depth) height part' root)
      (nested (followUpTo depth) part'.height part' root) c c :=
    same_lawful.nested _ _ (Nat.le_max_right ..) (Nat.le_refl _) trivial (fun _ _ => rfl) rfl
      (same_lawful.references (.inl rfl)) rfl
  obtain ⟨_, _, hheight, hnarrow⟩ := identical_ends hheights
  rw [upTo_eq]
  refine matches_of_gives (fun _ _ => id) (fun result added hgives => ?_) hwide
  obtain ⟨rfl, rfl⟩ := hgives.unique hheight
  exact hnarrow

end

/-! ## Whole compiles -/

section

variable {c after : Compiler} {outer : Bool} {schema schema' : Json} {shape : Shape}

theorem compile_replaced (h : Inlined c.draft outer c.resolver schema schema')
    (hrun : c.compile schema outer = (.ok shape, after)) :
    ∃ after', c.compile schema' outer = (.ok shape, after') ∧
      after'.diagnostics.map Diagnostic.said = after.diagnostics.map Diagnostic.said := by
  rcases inlined_upTo c.remaining h with
    ⟨_, added, _, added', hgives, hgives', houtcomes, hentries⟩ | ⟨_, _, hgives, -⟩
  · cases hrun.symm.trans hgives.run
    cases houtcomes with
    | value heq =>
      subst heq
      refine ⟨_, hgives'.run, ?_⟩
      simp only [List.map_append, Diagnostic.said_eq hentries]
  · cases hrun.symm.trans hgives.run

/-- A compile that succeeds gives the same shape, and says the same, with any references replaced by
what they resolve to, one after another and at any depth. -/
theorem Compiler.compile_inlined
    (h : Relation.ReflTransGen (Inlined c.draft outer c.resolver) schema schema')
    (hrun : c.compile schema outer = (.ok shape, after)) :
    ∃ after', c.compile schema' outer = (.ok shape, after') ∧
      after'.diagnostics.map Diagnostic.said = after.diagnostics.map Diagnostic.said := by
  induction h with
  | refl => exact ⟨after, hrun, rfl⟩
  | tail _ hstep ih =>
    obtain ⟨before, hbefore, hsaid⟩ := ih
    rw [← hsaid]
    exact compile_replaced hstep hbefore

/-- A link that a next one may follow. -/
def linkTo (next : Json) (definitions : Members) : Json :=
  .object [("type", .string "object"), ("properties", .object [("next", next)]),
    ("definitions", .object definitions)]

theorem inlined_linkTo {resolver : Resolver} {root : Bool} {definitions : Members} {next next' : Json}
    (h : Inlined .draft07 false resolver next next') :
    Inlined .draft07 root resolver (linkTo next definitions) (linkTo next' definitions) := by
  have hkey : "next" ∉ Node.reservedNames := by decide
  have hget : Members.get? [("type", .string "object"), ("properties", .object [("next", next)]),
      ("definitions", .object definitions)] "properties" = some (.object [("next", next)]) := rfl
  exact @Inlined.property .draft07 root resolver resolver _ _ _ next next' hkey hget rfl rfl h

def referTo (reference : String) : Json := .object [("$ref", .string reference)]

/-- Links of which the first one refers to the second one, and that to one of any type. -/
def linksDefinitions : Members :=
  [("link", linkTo (referTo "#/definitions/last") []), ("last", .object [])]

def linksCompiler : Compiler :=
  let document : Document :=
    ⟨Document.defaultUrl, linkTo (referTo "#/definitions/link") linksDefinitions⟩
  Compiler.new { registry := Registry.empty.insert document, base := document.url } .draft07 "Links"

theorem compile_inlined_links :
    let schema := linkTo (referTo "#/definitions/link") linksDefinitions
    let schema' := linkTo (linkTo (.object []) []) linksDefinitions
    let shape : Shape := .record "Links" true [⟨"next", false, .record "LinksNext" false
      [⟨"next", false, .any⟩]⟩]
    let message := "schema has no `type` or structural keyword, using `any`"
    let after : Compiler := { linksCompiler with
      diagnostics := [⟨.warning, .untypedSchema, message, "file:///schema.json#/definitions/last"⟩] }
    Relation.ReflTransGen (Inlined .draft07 true linksCompiler.resolver) schema schema' ∧
      linksCompiler.compile schema true = (.ok shape, after) ∧
      ∃ after', linksCompiler.compile schema' true = (.ok shape, after') ∧
        after'.diagnostics.map Diagnostic.said = [(.warning, .untypedSchema, message)] := by
  intro schema schema' shape message after
  have hlink : "#/definitions/link" ≠ "#" := by decide
  have hlast : "#/definitions/last" ≠ "#" := by decide
  have hfirst : Inlined .draft07 true linksCompiler.resolver schema
      (linkTo (linkTo (referTo "#/definitions/last") []) linksDefinitions) :=
    inlined_linkTo (.reference rfl rfl rfl rfl hlink rfl fun h => by cases h)
  have hsecond : Inlined .draft07 true linksCompiler.resolver
      (linkTo (linkTo (referTo "#/definitions/last") []) linksDefinitions) schema' :=
    inlined_linkTo (inlined_linkTo (.reference rfl rfl rfl rfl hlast rfl fun h => by cases h))
  have hboth : Relation.ReflTransGen (Inlined .draft07 true linksCompiler.resolver) schema schema' :=
    .tail (.single hfirst) hsecond
  have hrun : linksCompiler.compile schema true = (.ok shape, after) := rfl
  exact ⟨hboth, hrun, Compiler.compile_inlined hboth hrun⟩

end

end SchemaShape
