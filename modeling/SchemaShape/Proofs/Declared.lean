import SchemaShape.Proofs.Compiler.Root
import SchemaShape.Proofs.Isolation

/-! # Drafts that are asked for and drafts that are declared

A draft may be asked for in the options of a compile, or declared by the document in its `$schema`. For
a document alone the outcomes are the same, provided that two things do not depend on which of them is
done.

A registry knows nothing of options: it takes the identifiers of a document by the draft that is
declared. And a reference may lead to the `$schema` itself, which a declaration puts there.
-/

namespace SchemaShape
set_option autoImplicit false

open Correspondence Compile

/-! ## Declarations -/

/-- What `$schema` says to declare a draft. -/
def Draft.uri (draft : Draft) : String :=
  "http://json-schema.org/" ++ draft.name ++ "/schema#"

def Members.declaring (members : Members) (draft : Draft) : Members :=
  members.set "$schema" (.string draft.uri)

/-- Whether a pointer into an object leads to the same once a draft is declared, as far as a schema can
tell: one text is as good as another as its `$schema`. -/
def Members.keeps (members : Members) (pointer : Pointer) : Bool :=
  pointer.head? != some "$schema" || ((members.get? "$schema").bind Json.asString?).isSome

/-- The pointer that a fragment is. -/
def Url.pointer? (fragment : Option String) : Option Pointer :=
  (Percent.decode (fragment.getD "").toList).toOption.bind fun text =>
    Pointer.ofText? (String.ofList text)

/-- Whether the reference of a node is kept, if it has one with a pointer. -/
def Members.keepsReference (members : Members) (schema : Members) : Bool :=
  match schema.get? "$ref" with
  | some (.string reference) => (Url.pointer? (Url.fragmentOf reference)).all members.keeps
  | _ => true

/-- It makes no difference to what a document looks up whether a draft is asked for or declared. -/
structure Document.Overridable (draft : Draft) (url : Url) (members : Members) : Prop where
  /-- The identifiers are those under the draft that the document declares by itself. -/
  claims : Document.claims ⟨url, .object members⟩ =
    Claim.collect draft url.withoutFragment [] (.object members)
  /-- None of them stands where the declaration is put. -/
  kept : ∀ claim ∈ Document.claims ⟨url, .object members⟩, members.keeps claim.pointer = true
  /-- No reference leads there. -/
  references : (Json.object members).everyObject members.keepsReference = true

section

variable {draft : Draft} {members : Members}

theorem Draft.detectIn_declaring : Draft.detectIn (.object (members.declaring draft)) = draft := by
  have hdetect : ∀ draft : Draft, Draft.detect (some draft.uri) = draft := by
    intro draft
    cases draft <;> decide +kernel
  have hget : (Json.object (members.declaring draft)).get? "$schema" = some (.string draft.uri) :=
    Members.get?_set_self ..
  rw [Draft.detectIn, hget]
  exact hdetect draft

theorem Members.get?_declaring {key : String} (h : key ≠ "$schema") :
    (members.declaring draft).get? key = members.get? key :=
  Members.get?_set_ne _ _ h

theorem Draft.idOf?_declaring (draft' : Draft) :
    draft'.idOf? (members.declaring draft) = draft'.idOf? members :=
  Draft.idOf?_set _ (by decide) (by decide)

theorem Members.text_of_keeps {rest : Pointer} (h : members.keeps ("$schema" :: rest) = true) :
    ∃ text, members.get? "$schema" = some (.string text) := by
  simp only [keeps, List.head?_cons, bne_self_eq_false, Bool.false_or] at h
  cases hget : members.get? "$schema" with
  | none => simp [hget] at h
  | some prior =>
    cases prior with
    | string text => exact ⟨text, rfl⟩
    | _ => simp [hget, Json.asString?] at h

/-! ## Identifiers -/

namespace Claim

theorem pointer_ofNode {base : Url} {pointer : Pointer} {claim : Claim}
    (h : claim ∈ (ofNode draft base pointer members).2) : claim.pointer = pointer := by
  rw [ofNode] at h
  split at h
  · simp at h
  · split at h
    · simp at h
    · split at h <;>
      · simp only [List.mem_singleton] at h
        rw [h]

mutual

theorem pointer_collect {base : Url} {pointer : Pointer} {claim : Claim} :
    ∀ {value : Json}, claim ∈ collect draft base pointer value → pointer <+: claim.pointer
  | .object members, h => by
    rw [collect, List.mem_append] at h
    rcases h with hown | hinside
    · exact (pointer_ofNode hown) ▸ List.prefix_rfl
    · exact pointer_collectMembers hinside
  | .array items, h => by
    rw [collect] at h
    exact pointer_collectItems h

theorem pointer_collectItems {base : Url} {pointer : Pointer} {position : Nat} {claim : Claim} :
    ∀ {items : List Json}, claim ∈ collectItems draft base pointer position items →
      pointer <+: claim.pointer
  | item :: rest, h => by
    rw [collectItems, List.mem_append] at h
    rcases h with hitem | hrest
    · exact (List.prefix_append ..).trans (pointer_collect hitem)
    · exact pointer_collectItems hrest

theorem pointer_collectMembers {base : Url} {pointer : Pointer} {claim : Claim} :
    ∀ {members : List (String × Json)}, claim ∈ collectMembers draft base pointer members →
      pointer <+: claim.pointer
  | (key, value) :: rest, h => by
    rw [collectMembers, List.mem_append] at h
    rcases h with hvalue | hrest
    · split at hvalue
      · simp at hvalue
      · exact (List.prefix_append ..).trans (pointer_collect hvalue)
    · exact pointer_collectMembers hrest

end

theorem collectMembers_set {base : Url} {pointer : Pointer} {key : String} {value : Json}
    (hvalue : collect draft base (pointer ++ [key]) value = [])
    (hprior : ∀ prior, members.get? key = some prior →
      collect draft base (pointer ++ [key]) prior = []) :
    collectMembers draft base pointer (members.set key value) =
      collectMembers draft base pointer members := by
  induction members with
  | nil => simp [Members.set, collectMembers, hvalue]
  | cons member rest ih =>
    obtain ⟨other, first⟩ := member
    rw [Members.set]
    split
    · next heq =>
      subst heq
      have hfirst := hprior first (by rw [Members.get?_cons, if_pos rfl])
      rw [collectMembers, collectMembers, hvalue, hfirst]
    · next hne =>
      have hrest := ih fun prior hget => hprior prior (by rwa [Members.get?_cons, if_neg (Ne.symm hne)])
      rw [collectMembers, collectMembers, hrest]

theorem mem_collectMembers {base : Url} {pointer : Pointer} {key : String} {value : Json}
    {claim : Claim} (hget : members.get? key = some value) (hkey : key ∉ dataKeywords)
    (h : claim ∈ collect draft base (pointer ++ [key]) value) :
    claim ∈ collectMembers draft base pointer members := by
  induction members with
  | nil => simp [Members.get?] at hget
  | cons member rest ih =>
    obtain ⟨other, first⟩ := member
    rw [Members.get?_cons] at hget
    rw [collectMembers, List.mem_append]
    split at hget
    · next heq =>
      cases hget
      subst heq
      rw [if_neg hkey]
      exact .inl h
    · exact .inr (ih hget)

end Claim

theorem Claim.collect_declaring {base : Url} {draft' : Draft}
    (kept : ∀ claim ∈ collect draft base [] (.object members), members.keeps claim.pointer = true) :
    collect draft base [] (.object (members.declaring draft')) =
      collect draft base [] (.object members) := by
  have hnode : ofNode draft base [] (members.declaring draft') = ofNode draft base [] members := by
    simp only [ofNode, Draft.idOf?_declaring]
  rw [collect, collect, hnode]
  refine congrArg _ (collectMembers_set rfl fun prior hget => ?_)
  rw [List.eq_nil_iff_forall_not_mem]
  intro claim mem
  have hmem : claim ∈ collect draft base [] (.object members) := by
    rw [collect, List.mem_append]
    exact .inr (mem_collectMembers hget (by decide) mem)
  -- What is claimed there is claimed in a text, and in a text nothing is.
  obtain ⟨rest, hrest⟩ := pointer_collect mem
  have hkeeps := kept claim hmem
  rw [← hrest] at hkeeps
  obtain ⟨text, htext⟩ := Members.text_of_keeps hkeeps
  rw [htext, Option.some.injEq] at hget
  subst hget
  simp [collect] at mem

/-! ## Documents side by side -/

/-- What stands at one place in an object, before and after a draft is declared there. -/
inductive Twin (members : Members) (draft : Draft) : Json → Json → Prop where
  | same (node : Json) : Twin members draft node node
  | root : Twin members draft (.object members) (.object (members.declaring draft))
  | text (first second : String) : Twin members draft (.string first) (.string second)

namespace Twin

variable {node node' : Json}

theorem interchangeable (h : Twin members draft node node') : Interchangeable node node' := by
  cases h with
  | same node => exact fun _ _ => rfl
  | root =>
    have hother : ∀ key ∈ Node.ruleKeywords, key ≠ "$schema" := by decide
    exact interchangeable_of_keywords (fun draft' => (Draft.idOf?_declaring draft').symm)
      fun key mem => (Members.get?_declaring (hother key mem)).symm
  | text first second =>
    intro depth outer
    rw [upTo_eq]
    rfl

theorem rel_refl (found : Option Json) : Option.Rel (Twin members draft) found found := by
  cases found with
  | none => exact .none
  | some node => exact .some (.same node)

theorem at? {pointer : Pointer} (h : Twin members draft node node')
    (hkeeps : members.keeps pointer = true) :
    Option.Rel (Twin members draft) (node.at? pointer) (node'.at? pointer) := by
  cases pointer with
  | nil => exact .some h
  | cons token rest =>
    cases h with
    | same node => exact rel_refl _
    | text first second => exact .none
    | root =>
      show Option.Rel _ ((members.get? token).bind (·.at? rest))
        (((members.declaring draft).get? token).bind (·.at? rest))
      by_cases htoken : token = "$schema"
      · subst htoken
        -- There is a text at `$schema` before and after, and nothing in a text.
        obtain ⟨text, htext⟩ := Members.text_of_keeps hkeeps
        rw [htext, Members.declaring, Members.get?_set_self]
        cases rest with
        | nil => exact .some (.text _ _)
        | cons => exact .none
      · rw [Members.get?_declaring htoken]
        exact rel_refl _

end Twin

/-! ## Lookups -/

section

variable {url : Url} (overridable : Document.Overridable draft url members)

include overridable

theorem claims_declaring : Document.claims ⟨url, .object (members.declaring draft)⟩ =
    Document.claims ⟨url, .object members⟩ := by
  have hkept := overridable.kept
  rw [overridable.claims] at hkept ⊢
  rw [Document.claims, Draft.detectIn_declaring]
  exact Claim.collect_declaring hkept

theorem denoted?_declaring (key : String) :
    Document.denoted? ⟨url, .object (members.declaring draft)⟩ key =
      Document.denoted? ⟨url, .object members⟩ key := by
  rw [Document.denoted?, Document.claimed?, claims_declaring overridable]
  rfl

theorem keeps_denoted {key : String} {pointer : Pointer}
    (h : Document.denoted? ⟨url, .object members⟩ key = some pointer) :
    members.keeps pointer = true := by
  rw [Document.denoted?] at h
  split at h
  · cases h
    rfl
  · rw [Document.claimed?, Option.map_eq_some_iff] at h
    obtain ⟨claim, hfind, rfl⟩ := h
    exact overridable.kept claim (List.mem_of_find?_eq_some hfind)

/-- The same keys denote something, and what they denote is at the same place. -/
theorem get?_declaring (key : String) :
    Option.Rel (Twin members draft) ((Registry.empty.insert ⟨url, .object members⟩).get? key)
      ((Registry.empty.insert ⟨url, .object (members.declaring draft)⟩).get? key) := by
  rw [Registry.get?, Registry.get?, Registry.locate?_alone, Registry.locate?_alone,
    denoted?_declaring overridable]
  cases hdenoted : Document.denoted? ⟨url, .object members⟩ key with
  | none => exact .none
  | some pointer => exact Twin.root.at? (keeps_denoted overridable hdenoted)

variable {r r' : Resolver} (hregistry : r.registry = Registry.empty.insert ⟨url, .object members⟩)
variable (hdeclared : r' = { r with
  registry := Registry.empty.insert ⟨url, .object (members.declaring draft)⟩ })

include hregistry hdeclared

theorem fragmentTarget?_declaring {fragment : String} {root root' : Json}
    (hroot : Twin members draft root root')
    (hkeeps : (Pointer.ofText? fragment).all members.keeps = true) (document : String) :
    Option.Rel (Twin members draft) (r.fragmentTarget? document root fragment)
      (r'.fragmentTarget? document root' fragment) := by
  rw [Resolver.fragmentTarget?, Resolver.fragmentTarget?]
  split
  · exact .some hroot
  · rw [Json.pointer?, Json.pointer?]
    cases hpointer : Pointer.ofText? fragment with
    | none => exact .none
    | some pointer =>
      rw [hpointer] at hkeeps
      exact hroot.at? hkeeps
  · subst hdeclared
    rw [hregistry]
    exact get?_declaring overridable _

/-- A reference that is kept leads to twins, or fails on both sides for one reason. -/
theorem target_declaring {target : Url}
    (hkeeps : (Url.pointer? target.fragment).all members.keeps = true) :
    (∃ node node', r.target target = .ok node ∧ r'.target target = .ok node' ∧
        Twin members draft node node') ∨
      ∃ reason, r.target target = .error reason ∧ r'.target target = .error reason := by
  have hdocument : r.documentOf target = r'.documentOf target := by
    rw [hdeclared]
    rfl
  have hroot : Option.Rel (Twin members draft) (r.registry.get? (r.documentOf target))
      (r'.registry.get? (r.documentOf target)) := by
    rw [hregistry, hdeclared]
    exact get?_declaring overridable _
  refine Resolver.target_rel hdocument hroot fun fragment root root' hdecode htwin => ?_
  rw [Url.pointer?, hdecode] at hkeeps
  exact fragmentTarget?_declaring overridable hregistry hdeclared htwin hkeeps _

end

/-! ## Two compiles side by side -/

/-- The draft is asked for on one side, and declared on the other. -/
structure Declares (draft : Draft) (url : Url) (members : Members) (c c' : Compiler) : Prop where
  registry : c.resolver.registry = Registry.empty.insert ⟨url, .object members⟩
  declared : c' = { c with resolver := { c.resolver with
    registry := Registry.empty.insert ⟨url, .object (members.declaring draft)⟩ } }

def declaration (draft : Draft) (url : Url) (members : Members) : Correspondence :=
  identical (fun part => part.Within (.object members)) (Declares draft url members)

theorem Declares.scope_eq {url : Url} {c c' : Compiler} (h : Declares draft url members c c') :
    c'.resolver.scope = c.resolver.scope := by
  rw [h.declared]
  rfl

theorem Declares.resolves {url : Url} {c c' : Compiler} {schema : Members} {reference : String}
    (overridable : Document.Overridable draft url members) (h : Declares draft url members c c')
    (hwithin : (Json.object schema).Within (.object members))
    (hget : schema.get? "$ref" = some (.string reference)) :
    (declaration draft url members).Resolves reference c c' := by
  have hresolver : c'.resolver = { c.resolver with
      registry := Registry.empty.insert ⟨url, .object (members.declaring draft)⟩ } := by
    rw [h.declared]
  rw [Resolves, ResolvesTo]
  cases hjoin : c.resolver.scope.join reference with
  | error e =>
    have hjoin' : c'.resolver.scope.join reference = .error e := h.scope_eq ▸ hjoin
    rw [Resolver.resolve_of_no_join hjoin, Resolver.resolve_of_no_join hjoin', h.scope_eq]
    rfl
  | ok target =>
    have hjoin' : c'.resolver.scope.join reference = .ok target := h.scope_eq ▸ hjoin
    have hkeeps : (Url.pointer? target.fragment).all members.keeps = true := by
      have hnode := Json.everyObject_self (hwithin.everyObject overridable.references)
      rw [Members.keepsReference, hget] at hnode
      rwa [Url.fragment_of_join hjoin]
    rcases target_declaring overridable h.registry hresolver hkeeps with
      ⟨node, node', hfound, hfound', htwin⟩ | ⟨reason, hfound, hfound'⟩
    · obtain ⟨key, root, -, hroot, hpart⟩ := Resolver.within_of_target hfound
      rw [h.registry] at hroot
      have hanchor := Resolver.locateAnchor?_of_denoted h.registry hresolver
        (denoted?_declaring overridable) target
      rw [Resolver.resolve_of_target hjoin hfound, Resolver.resolve_of_target hjoin' hfound']
      refine ⟨htwin.interchangeable, hpart.trans (within_of_alone hroot), .inl ?_, fun _ => ?_⟩
      · rw [h.declared]
        rfl
      · rw [targetLocation, targetLocation, ← hanchor, h.declared]
        exact ⟨h.registry, rfl⟩
    · rw [Resolver.resolve_of_no_target hjoin hfound, Resolver.resolve_of_no_target hjoin' hfound',
        h.scope_eq]
      rfl

theorem declaration_lawful {url : Url} (overridable : Document.Overridable draft url members) :
    (declaration draft url members).Lawful := by
  refine identical_lawful (fun hwhole hpart => hpart.within.trans hwhole) ?_ ?_ ?_ ?_ ?_
  · rintro c c' tokens ⟨hregistry, rfl⟩
    exact ⟨hregistry, rfl⟩
  · rintro c c' key ⟨hregistry, rfl⟩
    exact ⟨hregistry, rfl⟩
  · rintro c c' ⟨-, rfl⟩
    exact ⟨_, _, _, rfl⟩
  · rintro schema c _ id _ ⟨hregistry, rfl⟩ _
    exact enters_of_join rfl fun _ _ => ⟨hregistry, rfl⟩
  · exact fun hwithin h hget _ => h.resolves overridable hwithin hget

end

/-! ## Outcomes -/

theorem Name.ofSchema_declaring (draft : Draft) (members : Members) :
    Name.ofSchema (.object (members.declaring draft)) = Name.ofSchema (.object members) := by
  have htitle : (Json.object (members.declaring draft)).get? "title" =
      (Json.object members).get? "title" := Members.get?_declaring (by decide)
  rw [Name.ofSchema, Name.ofSchema, htitle]

/-- It makes no difference whether a draft is asked for or declared, if it makes none to what the
document looks up. -/
theorem Session.compile_declared {draft : Draft} {url : Url} {members : Members} (options : Options)
    (overridable : Document.Overridable draft url members) :
    (Session.ofDocuments [⟨url, .object members⟩]).compile url []
        { options with draft := some draft } =
      (Session.ofDocuments [⟨url, .object (members.declaring draft)⟩]).compile url []
        { options with draft := none } := by
  generalize hc : (Session.ofDocuments [⟨url, .object members⟩]).compilerFor url.withoutFragment
    (.object members) (.object members) false { options with draft := some draft } = c
  generalize hc' : (Session.ofDocuments [⟨url, .object (members.declaring draft)⟩]).compilerFor
    url.withoutFragment (.object (members.declaring draft)) (.object (members.declaring draft)) false
    { options with draft := none } = c'
  have hdeclares : Declares draft url members c c' := by
    subst hc
    subst hc'
    refine ⟨rfl, ?_⟩
    simp only [compilerFor, Draft.detectIn_declaring, Name.ofSchema_declaring, Option.getD_none,
      Option.getD_some]
    rfl
  have hroot : SameRoot c c' true true := by
    rw [hdeclares.declared]
    rfl
  obtain ⟨result, added, hgives, hgives'⟩ := identical_ends
    ((declaration_lawful overridable).upTo c.remaining (.refl (.object members)) hroot rfl hdeclares)
  have hremaining : c'.remaining = c.remaining := by
    rw [hdeclares.declared]
    rfl
  rw [Twin.root.interchangeable, ← hremaining] at hgives'
  have hget := get?_alone ⟨url, .object members⟩
  have hget' := get?_alone ⟨url, .object (members.declaring draft)⟩
  rw [compile_of_gives hget rfl hc hgives, compile_of_gives hget' rfl hc' hgives', hdeclares.declared]
  rfl

/-- A number that is as wide as the draft makes it, and an anchor. -/
def countedMembers : Members :=
  [("$schema", .string "http://json-schema.org/draft-06/schema#"), ("type", .string "object"),
    ("properties", .object [("n", .object [("type", .string "integer")]),
      ("p", .object [("$ref", .string "#t")])]),
    ("definitions", .object [("t", .object [("$id", .string "#t"), ("type", .string "string")])])]

theorem compile_declared_counted :
    let compile (members : Members) (draft : Option Draft) :=
      (Session.ofDocuments [⟨Document.defaultUrl, .object members⟩]).compile Document.defaultUrl []
        { draft }
    Document.Overridable .draft04 Document.defaultUrl countedMembers ∧
      ((compile countedMembers (some .draft04)).toOption.map (·.draft)) = some .draft04 ∧
      compile countedMembers (some .draft04) = compile (countedMembers.declaring .draft04) none := by
  intro compile
  have overridable : Document.Overridable .draft04 Document.defaultUrl countedMembers :=
    ⟨by decide +kernel, by decide +kernel, by decide +kernel⟩
  have hdraft : ((compile countedMembers (some .draft04)).toOption.map (·.draft)) = some .draft04 := by
    decide +kernel
  exact ⟨overridable, hdraft, Session.compile_declared {} overridable⟩

/-- An identifier that only draft-04 knows, and a reference that needs it. -/
def legacyMembers : Members :=
  [("id", .string "http://example.com/d.json"), ("$ref", .string "#/t"),
    ("t", .object [("type", .string "string")])]

/-- The kind of the failure that a compile ends with. -/
def failureKind? (outcome : Except Failure Compilation) : Option String :=
  match outcome with
  | .ok _ => none
  | .error failure => some failure.kind

/-- A registry knows nothing of the draft that is asked for, and a declaration can be referred to. -/
theorem compile_declared_differs :
    let compile (members : Members) (draft : Option Draft) :=
      (Session.ofDocuments [⟨Document.defaultUrl, .object members⟩]).compile Document.defaultUrl []
        { draft }
    let selfish : Members := [("$ref", .string "#/$schema")]
    failureKind? (compile legacyMembers (some .draft04)) = some "RefResolution" ∧
      failureKind? (compile (legacyMembers.declaring .draft04) none) = none ∧
      failureKind? (compile selfish (some .draft07)) = some "RefResolution" ∧
      failureKind? (compile (selfish.declaring .draft07) none) = some "MalformedSchema" := by
  decide +kernel

end SchemaShape
