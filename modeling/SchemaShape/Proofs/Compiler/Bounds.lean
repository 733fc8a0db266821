import Mathlib.Data.Finset.NAry
import SchemaShape.Proofs.Compiler.Limits

/-! # How far references go

References go on inside one another only as far as the documents let them: the text of a URL that is
being followed is that of a document which the resolver knows, with the fragment that some `$ref` names.
There are no more such texts than known documents times `$ref` strings, and none is followed twice. So
from some limit on it makes no difference what the limit is.

There is one exception. A URL with an opaque path may lose blanks at the end of its path together with its
fragment. Such URLs have different texts, but the document that they point into has the same.
-/

namespace SchemaShape
set_option autoImplicit false

open Correspondence Compile

/-! ## The references in a value -/

namespace Json

mutual

def references : Json → List String
  | array items => referencesItems items
  | object members => referencesMembers members
  | _ => []

def referencesItems : List Json → List String
  | [] => []
  | item :: rest => item.references ++ referencesItems rest

def referencesMembers : List (String × Json) → List String
  | [] => []
  | (key, value) :: rest =>
    (if key = "$ref" then value.asString?.toList else []) ++ value.references ++
      referencesMembers rest

end

theorem mem_references_item {reference : String} {item : Json} {items : List Json}
    (h : reference ∈ item.references) (mem : item ∈ items) :
    reference ∈ referencesItems items := by
  induction items with
  | nil => simp at mem
  | cons first rest ih =>
    rw [referencesItems, List.mem_append]
    rcases List.mem_cons.mp mem with rfl | hrest
    · exact .inl h
    · exact .inr (ih hrest)

theorem mem_references_member {reference key : String} {value : Json} {members : Members}
    (h : reference ∈ value.references) (mem : (key, value) ∈ members) :
    reference ∈ referencesMembers members := by
  induction members with
  | nil => simp at mem
  | cons first rest ih =>
    obtain ⟨other, other'⟩ := first
    rw [referencesMembers, List.mem_append, List.mem_append]
    rcases List.mem_cons.mp mem with heq | hrest
    · cases heq
      exact .inl (.inr h)
    · exact .inr (ih hrest)

theorem mem_references_self {reference : String} {members : Members}
    (mem : ("$ref", Json.string reference) ∈ members) :
    reference ∈ referencesMembers members := by
  induction members with
  | nil => simp at mem
  | cons first rest ih =>
    obtain ⟨other, other'⟩ := first
    rw [referencesMembers, List.mem_append, List.mem_append]
    rcases List.mem_cons.mp mem with heq | hrest
    · cases heq
      exact .inl (.inl (by simp [asString?]))
    · exact .inr (ih hrest)

theorem Within.references {part whole : Json} {reference : String} (h : part.Within whole)
    (mem : reference ∈ part.references) : reference ∈ whole.references := by
  induction h with
  | refl => exact mem
  | item hitem _ ih =>
    rw [Json.references]
    exact mem_references_item ih hitem
  | member hmember _ ih =>
    rw [Json.references]
    exact mem_references_member ih hmember

end Json

/-! ## What a compile can get to -/

namespace Url

/-- The URL loses nothing but its fragment when it loses that. -/
def KeepsPath (url : Url) : Prop :=
  url.withoutFragment = { url with fragment := none }

theorem KeepsPath.documentText_eq {url : Url} (h : url.KeepsPath) :
    url.withoutFragment.text = url.documentText := by
  have heq : url.withoutFragment = { url with fragment := none } := h
  rw [heq]
  exact String.append_empty

end Url

namespace Resolver

variable (resolver : Resolver) (start : Json)

def wholes : List Json :=
  start :: resolver.registry.documents.map (·.schema)

def Holds (part : Json) : Prop :=
  ∃ whole ∈ resolver.wholes start, part.Within whole

/-- The URLs that references may be relative to: the scope at the start, and what identifiers and
references join to. -/
inductive Scope (draft : Draft) : Url → Prop where
  | start : Scope draft resolver.scope
  | identifier {scope url : Url} {schema : Members} {id : String} (h : Scope draft scope)
      (holds : resolver.Holds start (.object schema)) (hid : draft.idOf? schema = some id)
      (hjoin : scope.join id = .ok url) : Scope draft url
  | reference {scope url : Url} {schema : Members} {reference : String} (h : Scope draft scope)
      (holds : resolver.Holds start (.object schema))
      (hget : schema.get? "$ref" = some (.string reference))
      (hjoin : scope.join reference = .ok url) : Scope draft url

/-- No reference joins to a URL that loses more than its fragment. -/
def KeepsPaths (draft : Draft) : Prop :=
  ∀ scope url (schema : Members) reference, resolver.Scope start draft scope →
    resolver.Holds start (.object schema) → schema.get? "$ref" = some (.string reference) →
    scope.join reference = .ok url → url.KeepsPath

def indexed : Finset String :=
  (resolver.registry.index.map Prod.fst).toFinset

def aliased : Finset String :=
  (resolver.aliases.map Prod.fst).toFinset

def references : Finset String :=
  ((resolver.wholes start).flatMap Json.references).toFinset

/-- As many references can be followed inside one another. -/
def bound : Nat :=
  (resolver.indexed.card + resolver.aliased.card) * (resolver.references start).card

variable {resolver start}

theorem mem_references {schema : Members} {reference : String}
    (holds : resolver.Holds start (.object schema))
    (hget : schema.get? "$ref" = some (.string reference)) :
    reference ∈ resolver.references start := by
  obtain ⟨whole, mem, hwithin⟩ := holds
  rw [references, List.mem_toFinset, List.mem_flatMap]
  refine ⟨whole, mem, hwithin.references ?_⟩
  rw [Json.references]
  exact Json.mem_references_self (Members.mem_of_get? hget)

theorem Holds.part {schema : Members} {part : Json} (h : resolver.Holds start (.object schema))
    (hpart : Node.Subschema schema part) : resolver.Holds start part := by
  obtain ⟨whole, mem, hwithin⟩ := h
  exact ⟨whole, mem, hpart.within.trans hwithin⟩

theorem mem_keys_of_lookup {α : Type} {entries : List (String × α)} {key : String} {value : α}
    (h : entries.lookup key = some value) : key ∈ (entries.map Prod.fst).toFinset := by
  induction entries with
  | nil => cases h
  | cons entry rest ih =>
    obtain ⟨other, first⟩ := entry
    rw [List.lookup_cons] at h
    rw [List.map_cons, List.mem_toFinset, List.mem_cons]
    split at h
    · next heq => exact .inl (beq_iff_eq.mp heq)
    · exact .inr (List.mem_toFinset.mp (ih h))

theorem holds_of_target {url : Url} {node : Json} (h : resolver.target url = .ok node) :
    resolver.Holds start node ∧
      url.withoutFragment.text ∈ resolver.indexed ∪ resolver.aliased := by
  constructor
  · obtain ⟨place, document, -, hdocument, hnode⟩ := place?_of_target h
    have mem : document ∈ resolver.registry.documents := List.mem_of_getElem? hdocument
    exact ⟨document.schema, List.mem_cons_of_mem _ (List.mem_map.mpr ⟨document, mem, rfl⟩),
      Json.within_at? hnode⟩
  · obtain ⟨_, root, -, hroot, -⟩ := target_ok h
    obtain ⟨place, -, hplace, -⟩ := place?_of_get? hroot
    rw [Finset.mem_union]
    rw [documentOf] at hplace
    cases halias : resolver.aliases.lookup url.withoutFragment.text with
    | some target => exact .inr (mem_keys_of_lookup halias)
    | none =>
      simp only [halias, Option.getD_none] at hplace
      exact .inl (mem_keys_of_lookup hplace)

end Resolver

/-! ## The references being followed -/

/-- The text of the URL that a reference joins to in a document. -/
def followedText (document reference : String) : String :=
  document ++ (Url.fragmentOf reference).elim "" ("#" ++ ·)

/-- The compile has got to where its documents lead. -/
structure Led (resolver : Resolver) (draft : Draft) (start : Json) (limit depth : Nat) (c : Compiler) :
    Prop where
  counted : Counted limit depth c
  draft_eq : c.draft = draft
  registry_eq : c.resolver.registry = resolver.registry
  aliases_eq : c.resolver.aliases = resolver.aliases
  scope : resolver.Scope start draft c.resolver.scope
  texts : ∀ text ∈ c.active, ∃ document ∈ resolver.indexed ∪ resolver.aliased,
    ∃ reference ∈ resolver.references start, followedText document reference = text

section

variable {resolver : Resolver} {draft : Draft} {start : Json} {limit depth : Nat} {c : Compiler}

theorem Led.length_le (h : Led resolver draft start limit depth c) :
    c.active.length ≤ resolver.bound start := by
  have hsubset : c.active.toFinset ⊆ Finset.image₂ followedText (resolver.indexed ∪ resolver.aliased)
      (resolver.references start) := by
    intro text mem
    exact Finset.mem_image₂.mpr (h.texts text (List.mem_toFinset.mp mem))
  calc c.active.length
      = c.active.toFinset.card := (List.toFinset_card_of_nodup h.counted.nodup).symm
    _ ≤ _ := Finset.card_le_card hsubset
    _ ≤ (resolver.indexed ∪ resolver.aliased).card * (resolver.references start).card :=
      Finset.card_image₂_le ..
    _ ≤ resolver.bound start := Nat.mul_le_mul_right _ (Finset.card_union_le ..)

theorem Led.target_ok {url : Url} {node : Json} (h : Led resolver draft start limit depth c)
    (hfound : c.resolver.target url = .ok node) : resolver.target url = .ok node := by
  rw [Resolver.target_of_lookups h.registry_eq.symm h.aliases_eq.symm]
  exact hfound

theorem led_invariant (hkeeps : resolver.KeepsPaths start draft) (limit : Nat) :
    Compiler.Invariant (resolver.Holds start) (Led resolver draft start limit) where
  part := fun h hpart => h.part hpart
  below := fun tokens h => ⟨(counted_invariant limit).below tokens h.counted, h.draft_eq, h.registry_eq,
    h.aliases_eq, h.scope, h.texts⟩
  atProperty := fun key h => ⟨(counted_invariant limit).atProperty key h.counted, h.draft_eq,
    h.registry_eq, h.aliases_eq, h.scope, h.texts⟩
  within := by
    intro depth c id url schema holds h hid hjoin
    rw [h.draft_eq] at hid
    exact ⟨⟨h.counted.count, h.counted.nodup, h.counted.refuses⟩, h.draft_eq, h.registry_eq,
      h.aliases_eq, .identifier h.scope holds hid hjoin, h.texts⟩
  target := by
    intro depth c reference url target schema _ h _ hresolve
    exact (Resolver.holds_of_target (h.target_ok (Resolver.resolve_ok hresolve).2)).1
  atTarget := by
    intro depth c reference url target location schema holds h hget hresolve hrefuses
    obtain ⟨hjoin, hfound⟩ := Resolver.resolve_ok hresolve
    refine ⟨h.counted.atTarget hrefuses location, h.draft_eq, h.registry_eq, h.aliases_eq,
      .reference h.scope holds hget hjoin, fun text mem => ?_⟩
    rcases List.mem_cons.mp mem with rfl | hrest
    · have hkeeps' := hkeeps _ _ _ _ h.scope holds hget hjoin
      obtain ⟨-, hdocument⟩ : resolver.Holds start target ∧ _ :=
        Resolver.holds_of_target (h.target_ok hfound)
      refine ⟨_, hdocument, reference, Resolver.mem_references holds hget, ?_⟩
      rw [followedText, hkeeps'.documentText_eq, ← Url.fragment_of_join hjoin]
      rfl
    · exact h.texts text hrest

theorem Led.atStart (resolver : Resolver) (draft : Draft) (outerName : String) (start : Json)
    (limit : Nat) :
    let c : Compiler := { Compiler.new resolver draft outerName with maxRefDepth := limit }
    Led resolver draft start limit c.remaining c :=
  ⟨Counted.start resolver draft outerName limit, rfl, rfl, rfl, .start, by simp [Compiler.new]⟩

/-- Above the bound it makes no difference how many more references may be followed, and a failure reports
no greater depth. -/
theorem Led.settled {schema : Json} (outer : Bool) (hkeeps : resolver.KeepsPaths start draft)
    (hlimit : resolver.bound start < limit) (more : Nat) (holds : resolver.Holds start schema)
    (h : Led resolver draft start limit depth c) :
    ∃ result added, (upTo depth schema outer).Gives c result added ∧
      (upTo (more + depth) schema outer).Gives c result added ∧
      ∀ reference location reported, result = .error (.refCycle reference location reported) →
        reported ≤ resolver.bound start := by
  -- The references being followed are as many as the limit only where none are left to follow.
  have hlast : ((alone (resolver.Holds start) (fun _ => False) False
      (· ≤ resolver.bound start)).withStates fun c c' => c = c' ∧ Led resolver draft start limit 0
        c).References (fun reference _ => refuse reference) (followUpTo more) := by
    rintro members reference - - - c _ outer outer' ⟨rfl, hplace⟩ -
    have hcount := hplace.counted.count
    have hlength := hplace.length_le
    omega
  rcases (led_invariant hkeeps limit).upTo_more (fun _ _ h => h.length_le) hlast holds h with
    hends | ⟨_, _, _, hcut, -⟩
  · exact hends
  · exact hcut.elim

end

/-- The references being followed are never more than the known documents times the `$ref` strings,
whatever the limit is. Under a limit above that a compile never fails by a cycle at the limit, and it gives
and reports the same as under any other such limit. -/
theorem Compiler.compile_bounded (resolver : Resolver) (draft : Draft) (outerName : String)
    (schema : Json) (outer : Bool) (hkeeps : resolver.KeepsPaths schema draft) :
    let bound := resolver.bound schema
    let compiler (limit : Nat) : Compiler :=
      { Compiler.new resolver draft outerName with maxRefDepth := limit }
    let run (limit : Nat) := (compiler limit).compile schema outer
    (∀ limit, (compiler limit).MeetsOnly (fun _ c => decide (c.active.length ≤ bound)) schema outer) ∧
    (∀ limit > bound, ∀ reference location,
      (run limit).1 ≠ .error (.refCycle reference location limit)) ∧
    ∀ limit > bound, ∀ limit' > bound, (run limit).1 = (run limit').1 ∧
      (run limit).2.diagnostics = (run limit').2.diagnostics := by
  intro bound compiler run
  have holds : resolver.Holds schema schema := ⟨schema, List.mem_cons_self .., .refl schema⟩
  obtain ⟨result, added, hleast, hreported⟩ : ∃ result added,
      (∀ limit > bound, run limit = (result, { compiler limit with diagnostics := added })) ∧
      ∀ reference location reported, result = .error (.refCycle reference location reported) →
        reported ≤ bound := by
    have hsettled := fun more => (Led.atStart resolver draft outerName schema (bound + 1)).settled outer
      hkeeps (Nat.lt_succ_self bound) more holds
    obtain ⟨result, added, hgives, -, hreported⟩ := hsettled 0
    refine ⟨result, added, fun limit hlimit => ?_, hreported⟩
    obtain ⟨more, rfl⟩ : ∃ more, limit = more + (bound + 1) := ⟨limit - (bound + 1), by omega⟩
    obtain ⟨_, _, hgives', hmore, -⟩ := hsettled more
    obtain ⟨rfl, rfl⟩ := hgives.unique hgives'
    exact hmore.run_new
  refine ⟨fun limit => ?_, fun limit hlimit reference location hcycle => ?_,
    fun limit hlimit limit' hlimit' => ?_⟩
  · refine (led_invariant hkeeps limit).meetsOnly ?_ ?_ holds
      (Led.atStart resolver draft outerName schema limit)
    · exact fun _ _ _ _ _ h => decide_eq_true h.length_le
    · exact fun _ _ _ h => decide_eq_true h.length_le
  · rw [hleast limit hlimit] at hcycle
    have hle := hreported reference location limit hcycle
    omega
  · rw [hleast limit hlimit, hleast limit' hlimit']
    exact ⟨rfl, rfl⟩

/-! ## Local references -/

theorem Resolver.keepsPaths_of_local {resolver : Resolver} {start : Json} {draft : Draft}
    (hscope : resolver.scope.KeepsPath)
    (hlocal : ∀ whole ∈ resolver.wholes start, whole.everyObject refersLocally = true)
    (hplain : ∀ whole ∈ resolver.wholes start,
      whole.everyObject (fun members => (draft.idOf? members).isNone) = true) :
    resolver.KeepsPaths start draft := by
  have hreference : ∀ {scope url : Url} {schema : Members} {reference : String}, scope.KeepsPath →
      resolver.Holds start (.object schema) → schema.get? "$ref" = some (.string reference) →
      scope.join reference = .ok url → url.KeepsPath := by
    rintro scope url schema reference hkeeps ⟨whole, mem, hwithin⟩ hget hjoin
    have hrefers := Json.everyObject_self (hwithin.everyObject (hlocal whole mem))
    rw [refersLocally, hget] at hrefers
    rw [Url.join_local hrefers] at hjoin
    cases hjoin
    exact hkeeps
  have hscopes : ∀ url, resolver.Scope start draft url → url.KeepsPath := by
    intro url h
    induction h with
    | start => exact hscope
    | identifier _ holds hid _ _ =>
      obtain ⟨whole, mem, hwithin⟩ := holds
      have hnone := Json.everyObject_self (hwithin.everyObject (hplain whole mem))
      rw [hid] at hnone
      cases hnone
    | reference _ holds hget hjoin ih => exact hreference ih holds hget hjoin
  intro scope url schema reference h holds hget hjoin
  exact hreference (hscopes scope h) holds hget hjoin

def ringSchema : Json :=
  .object [("$ref", .string "#/definitions/link"), ("definitions", .object [("link", .object
    [("type", .string "array"), ("items", .object [("$ref", .string "#/definitions/link")])])])]

def ringResolver : Resolver :=
  { registry := Registry.empty.insert ⟨Document.defaultUrl, ringSchema⟩, base := Document.defaultUrl }

def ringCompiler (limit : Nat) : Compiler :=
  { Compiler.new ringResolver .draft07 "Ring" with maxRefDepth := limit }

/-- One document and one `$ref` string allow for one reference. -/
theorem compile_bounded_ring :
    ringResolver.KeepsPaths ringSchema .draft07 ∧ ringResolver.bound ringSchema = 1 ∧
      (∃ location, ((ringCompiler 2).compile ringSchema true).1 =
        .error (.refCycle "#/definitions/link" location 1)) ∧
      ∀ limit, (ringCompiler limit).MeetsOnly
        (fun _ c => decide (c.active.length ≤ ringResolver.bound ringSchema)) ringSchema true := by
  have hkeeps : ringResolver.KeepsPaths ringSchema .draft07 := by
    refine Resolver.keepsPaths_of_local rfl ?_ ?_
    · decide +kernel
    · decide +kernel
  have hbound : ringResolver.bound ringSchema = 1 := by decide +kernel
  have hcycle : ∃ location, ((ringCompiler 2).compile ringSchema true).1 =
      .error (.refCycle "#/definitions/link" location 1) := ⟨_, rfl⟩
  exact ⟨hkeeps, hbound, hcycle,
    (Compiler.compile_bounded ringResolver .draft07 "Ring" ringSchema true hkeeps).1⟩

/-! ## Blanks at the end of an opaque path -/

/-- The identifier inside is a URL with a blank at the end of its path, and a fragment. -/
def blankSchema : Json :=
  .object [("$ref", .string "#/t"),
    ("t", .object [("$id", .string "foo:bar #"), ("$ref", .string "#/t")])]

def blankResolver : Resolver :=
  let url : Url := { scheme := "foo", authority := none, path := "bar", query := none, fragment := none }
  { registry := Registry.empty.insert ⟨url, blankSchema⟩, base := url }

def blankCompiler (limit : Nat) : Compiler :=
  { Compiler.new blankResolver .draft07 "Blank" with maxRefDepth := limit }

def cycleDepth? : Except Failure Shape → Option Nat
  | .error (.refCycle _ _ depth) => some depth
  | _ => none

/-- Two references are followed inside one another with one document and one `$ref` string. -/
theorem compile_unbounded_blank :
    blankResolver.bound blankSchema = 1 ∧
      cycleDepth? ((blankCompiler 2).compile blankSchema true).1 = some 2 ∧
      ¬ (blankCompiler 2).MeetsOnly
        (fun _ c => decide (c.active.length ≤ blankResolver.bound blankSchema)) blankSchema true := by
  have hbound : blankResolver.bound blankSchema = 1 := by decide +kernel
  have hcycle : cycleDepth? ((blankCompiler 2).compile blankSchema true).1 = some 2 := by
    decide +kernel
  have halarm : cycleDepth? (Watch.upTo
      ⟨fun _ c => decide (c.active.length ≤ blankResolver.bound blankSchema), .invalidPath "" ""⟩
      (blankCompiler 2).remaining blankSchema true (blankCompiler 2)).1 = none := by decide +kernel
  refine ⟨hbound, hcycle, fun hmeets => ?_⟩
  rw [hmeets (.invalidPath "" ""), hcycle] at halarm
  cases halarm

end SchemaShape
