import SchemaShape.Proofs.Compiler.Root
import SchemaShape.Proofs.Narrowing.Scope

/-! # Nodes that a compile gets to

A compile gets from the root of a document to its nodes in place, through the properties of object
schemas. Narrowing goes the same way. The compile enters the identifiers on the way, one inside the other,
and stays in the document if none of them below the root leaves it. Narrowing hands the last `$id` down.
-/

namespace SchemaShape
set_option autoImplicit false

open Compile Narrowing

/-! ## The way to a node -/

/-- A compile at `c` gets to a node in place, through the properties of object schemas, and compiles
it at `place`, unless it fails before (`Visits.gives`). -/
inductive Visits : Compiler → Members → List String → Compiler → Members → Prop where
  | here {c place : Compiler} {schema : Members} (hinside : Node.Inside schema c place) :
      Visits c schema [] place schema
  | step {c inside place : Compiler} {schema properties child node : Members} {segment : String}
      {rest : List String} (hinside : Node.Inside schema c inside)
      (htype : typeIs schema "object" = true) (henum : schema.get? "enum" = none)
      (hproperties : schema.get? "properties" = some (.object properties))
      (hself : segment ≠ selfSegment) (hfree : segment ∉ Node.reservedNames)
      (hchild : Members.get? properties segment = some (.object child))
      (h : Visits (inside.atProperty segment) child rest place node) :
      Visits c schema (segment :: rest) place node

section

variable {follow : Node.Follow} {inner : Node.Inner} {schema node : Members} {outer : Bool}
variable {c place : Compiler} {shape : Shape} {added : List Diagnostic}

theorem Node.object_each {properties : Members} (htype : typeIs schema "object" = true)
    (henum : schema.get? "enum" = none)
    (hproperties : schema.get? "properties" = some (.object properties))
    (tidy : TidyInners schema inner)
    (h : (members follow inner schema outer).Gives c (.ok shape) added) :
    ∀ key value, (key, value) ∈ properties → key ∉ reservedNames →
      ∃ shape reported, (inner value).Gives (c.atProperty key) (.ok shape) reported := by
  have hobject : (object inner schema outer).Gives c (.ok shape) added := by
    simp only [members, get?_of_typeIs htype, named, henum] at h
    exact h
  obtain ⟨result, -, hfields⟩ := object_fields_ok tidy hproperties hobject
  exact fields_each (fun key value mem => tidy value (.property hproperties mem)) hfields

theorem Visits.gives {depth height : Nat} {path : List String} (h : Visits c schema path place node)
    (hheight : (Json.object schema).height ≤ height)
    (hgives : (nested (followUpTo depth) height (.object schema) outer).Gives c (.ok shape) added) :
    ∃ height outer shape added, (Node.members (followUpTo depth)
      (fun part => nested (followUpTo depth) height part false) node outer).Gives place (.ok shape)
        added := by
  induction h generalizing height outer shape added with
  | here hinside =>
    cases height with
    | zero => exact absurd hheight (Nat.not_le.mpr (Json.height_pos _))
    | succ height =>
      obtain ⟨place', hinside', hmembers⟩ := hgives.members_ok hheight
      rw [hinside.unique hinside']
      exact ⟨height, outer, shape, added, hmembers⟩
  | @step c inside place schema properties child node segment rest hinside htype henum hproperties
      hself hfree hchild h ih =>
    cases height with
    | zero => exact absurd hheight (Nat.not_le.mpr (Json.height_pos _))
    | succ height =>
      obtain ⟨inside', hinside', hmembers⟩ := hgives.members_ok hheight
      rw [← hinside.unique hinside'] at hmembers
      have hmem := Members.mem_of_get? hchild
      have hlt := (Node.Subschema.property hproperties hmem).height_lt
      obtain ⟨shape', reported, hproperty⟩ := Node.object_each htype henum hproperties
        (tidyInners_nested hheight) hmembers segment (.object child) hmem hfree
      exact ih (by omega) hproperty

end

/-! ## Identifiers on the way -/

/-- The schemas that a path leads to below a schema, in the order of the path. -/
def schemasBelow (schema : Members) : List String → List Members
  | [] => []
  | segment :: rest =>
    match schema.get? "properties" with
    | some (.object properties) =>
      match Members.get? properties segment with
      | some (.object child) => child :: schemasBelow child rest
      | _ => []
    | _ => []

/-- The identifier of a schema, whatever the draft, if it is written as `$id`. -/
def ownId? (schema : Members) : Option String := (schema.get? "$id").bind Json.asString?

/-- Under a draft the schema identifies a place in the document that it is in, or nothing. -/
def identifiesLocally (draft : Draft) (schema : Members) : Bool :=
  (draft.idOf? schema).all Url.isLocal

/-- The `$id` is a string, if there is one. Any other would hide the one that narrowing hands down. -/
def hasPlainId (schema : Members) : Bool :=
  (schema.get? "$id").all fun id => id.asString?.isSome

/-- Under the draft of the whole document no schema that the path leads to below the root leaves the
document. The root has a `$id`, which nothing below hides, or no identifier under either draft. -/
def keepsDocument (draft narrowedDraft : Draft) (root : Members) (path : List String) : Bool :=
  (schemasBelow root path).all (identifiesLocally draft) &&
    match ownId? root with
    | some _ => (schemasBelow root path).all hasPlainId
    | none => (draft.idOf? root).isNone && (narrowedDraft.idOf? root).isNone

theorem idOf?_of_own {schema : Members} {id : String} (draft : Draft) (h : ownId? schema = some id) :
    draft.idOf? schema = some id := by
  rw [ownId?] at h
  simp only [Draft.idOf?, h]

/-- The second resolver is at a place in the document that the first one is in. -/
structure Resolver.Stays (r r' : Resolver) : Prop where
  registry_eq : r'.registry = r.registry
  aliases_eq : r'.aliases = r.aliases
  scope_eq : ∃ fragment, r'.scope = { r.scope with fragment }

theorem Resolver.Stays.refl (r : Resolver) : r.Stays r :=
  ⟨rfl, rfl, r.scope.fragment, rfl⟩

theorem Resolver.Stays.trans {r r' r'' : Resolver} (h : r.Stays r') (h' : r'.Stays r'') :
    r.Stays r'' := by
  obtain ⟨fragment, hscope⟩ := h.scope_eq
  obtain ⟨fragment', hscope'⟩ := h'.scope_eq
  refine ⟨h'.registry_eq.trans h.registry_eq, h'.aliases_eq.trans h.aliases_eq, fragment', ?_⟩
  rw [hscope', hscope]

section

variable {schema node : Members} {c place : Compiler} {path : List String}

theorem Node.Inside.keeps (h : Inside schema c place) :
    place.resolver.registry = c.resolver.registry ∧
      place.resolver.aliases = c.resolver.aliases := by
  rw [Inside] at h
  split at h
  · rw [h]
    exact ⟨rfl, rfl⟩
  · obtain ⟨resolver, henter, rfl⟩ := h
    obtain ⟨url, -, rfl⟩ := Resolver.enterId_ok henter
    exact ⟨rfl, rfl⟩

theorem Node.Inside.stays (h : Inside schema c place)
    (hlocal : ∀ id, c.draft.idOf? schema = some id → Url.isLocal id = true) :
    c.resolver.Stays place.resolver := by
  obtain ⟨hregistry, haliases⟩ := h.keeps
  refine ⟨hregistry, haliases, ?_⟩
  rw [Inside] at h
  split at h
  · rw [h]
    exact ⟨_, rfl⟩
  · next id hid =>
    obtain ⟨resolver, henter, rfl⟩ := h
    obtain ⟨url, hjoin, rfl⟩ := Resolver.enterId_ok henter
    rw [Url.join_local (hlocal id hid)] at hjoin
    cases hjoin
    exact ⟨_, rfl⟩

theorem Visits.keeps (h : Visits c schema path place node) :
    place.resolver.registry = c.resolver.registry ∧
      place.resolver.aliases = c.resolver.aliases := by
  induction h with
  | here hinside => exact hinside.keeps
  | step hinside _ _ _ _ _ _ _ ih =>
    obtain ⟨hregistry, haliases⟩ := hinside.keeps
    exact ⟨ih.1.trans hregistry, ih.2.trans haliases⟩

/-- Below a schema the compile stays in the document that its identifier leads to. -/
theorem Visits.stays (h : Visits c schema path place node)
    (hlocal : ∀ child ∈ schemasBelow schema path, identifiesLocally c.draft child = true) :
    ∃ inside, Node.Inside schema c inside ∧ inside.resolver.Stays place.resolver := by
  induction h with
  | here hinside => exact ⟨_, hinside, .refl _⟩
  | @step c inside place schema properties child node segment rest hinside _ _ hproperties _ _ hchild
      _ ih =>
    simp only [schemasBelow, hproperties, hchild, ← hinside.draft_eq] at hlocal
    obtain ⟨inside', hinside', hstays⟩ := ih fun other mem =>
      hlocal other (List.mem_cons_of_mem _ mem)
    have hown : ∀ id, (inside.atProperty segment).draft.idOf? child = some id →
        Url.isLocal id = true := by
      intro id hid
      have hchild := hlocal child (List.mem_cons_self ..)
      rwa [identifiesLocally, show inside.draft.idOf? child = some id from hid] at hchild
    exact ⟨inside, hinside, (hinside'.stays hown).trans hstays⟩

end

/-! ## The identifier of a narrowed schema -/

namespace Narrowing

section

variable {schema narrowed parent child properties : Members} {segment : String}

theorem ownId?_enterProperty (hplain : hasPlainId child = true) (h : (ownId? parent).isSome = true) :
    (ownId? (enterProperty parent child segment)).isSome = true := by
  have hid : (enterProperty parent child segment).get? "$id" =
      ((child.get? "$id").or (parent.get? "$id")).map (along "/" [segment]) := by
    simp [enterProperty, inheritedKeywords, get?_appendTo, get?_inherit]
  have hstring : ∀ value : Json, value.asString?.isSome = true →
      (along "/" [segment] value).asString?.isSome = true := by
    intro value h
    cases value with
    | string text => rfl
    | _ => cases h
  rw [ownId?, Option.isSome_bind] at h ⊢
  rw [hid]
  rw [hasPlainId] at hplain
  cases hchild : child.get? "$id" with
  | some value =>
    rw [hchild] at hplain
    exact hstring value hplain
  | none =>
    cases hparent : parent.get? "$id" with
    | some value =>
      rw [hparent] at h
      exact hstring value h
    | none =>
      rw [hparent] at h
      cases h

theorem get?_finish {key : String} (distinct : (schema.map Prod.fst).Nodup)
    (hne : key ≠ "properties") : (finish schema).get? key = schema.get? key := by
  rw [finish]
  split
  · exact Members.get?_remove_ne distinct hne
  · rfl

end

end Narrowing

section

variable {root schema node narrowed : Members} {c place : Compiler} {path : List String}

/-- Narrowing gets to every node that a compile gets to, and hands down a `$id` that nothing hides. -/
theorem Visits.descends (h : Visits c schema path place node)
    (formed : (Json.object schema).wellFormed = true) (distinct : (narrowed.map Prod.fst).Nodup)
    (structural : ∀ key ∈ structuralKeywords, narrowed.get? key = schema.get? key) :
    ∃ result, Narrowing.descend narrowed path = .ok result ∧
      ((schemasBelow schema path).all hasPlainId = true → (ownId? narrowed).isSome = true →
        (ownId? result).isSome = true) := by
  induction h generalizing narrowed with
  | here =>
    refine ⟨_, rfl, fun _ hown => ?_⟩
    rwa [ownId?, get?_finish distinct (by decide)]
  | @step c inside place schema properties child node segment rest _ htype _ hproperties hself _ hchild
      _ ih =>
    have hformed : (Json.object child).wellFormed = true :=
      (Node.Subschema.property hproperties (Members.mem_of_get? hchild)).within.wellFormed formed
    obtain ⟨harray, hproperty⟩ := property_of_structural structural htype hproperties hself hchild
    obtain ⟨result, hresult, hown⟩ := ih hformed
      (distinct_enterProperty (Json.wellFormed_distinct hformed)) structural_enterProperty
    refine ⟨result, ?_, fun hplain h => ?_⟩
    · rw [Narrowing.descend, harray, if_neg Bool.false_ne_true, hproperty]
      exact hresult
    · simp only [schemasBelow, hproperties, hchild, List.all_cons, Bool.and_eq_true] at hplain
      exact hown hplain.2 (ownId?_enterProperty hplain.1 h)

theorem Visits.narrows (h : Visits c root path place node)
    (formed : (Json.object root).wellFormed = true) :
    ∃ narrowed, narrow (.object root) path = .ok (.object narrowed) ∧
      ((schemasBelow root path).all hasPlainId = true → (ownId? root).isSome = true →
        (ownId? narrowed).isSome = true) := by
  have hkeys : ∀ key ∈ structuralKeywords, key ∈ keptKeywords := by decide
  have hown : ownId? (kept root) = ownId? root := by rw [ownId?, get?_kept (by decide), ownId?]
  have distinct : ((kept root).map Prod.fst).Nodup :=
    (Json.wellFormed_distinct formed).sublist (List.Sublist.map _ List.filter_sublist)
  obtain ⟨narrowed, hnarrowed, hhanded⟩ :=
    h.descends formed distinct fun key mem => get?_kept (hkeys key mem)
  have hnarrow : narrow (.object root) path =
      (Narrowing.descend (kept root) path).map Json.object := rfl
  refine ⟨narrowed, ?_, hown ▸ hhanded⟩
  rw [hnarrow, hnarrowed]
  rfl

theorem ownId?_of_bare {draft narrowedDraft : Draft}
    (hkeeps : keepsDocument draft narrowedDraft root path = true)
    (hhanded : (schemasBelow root path).all hasPlainId = true → (ownId? root).isSome = true →
      (ownId? narrowed).isSome = true)
    (hbare : narrowedDraft.idOf? narrowed = none) : ownId? root = none := by
  cases hown : ownId? root with
  | none => rfl
  | some id =>
    rw [keepsDocument, hown, Bool.and_eq_true] at hkeeps
    obtain ⟨id', hown'⟩ := Option.isSome_iff_exists.mp (hhanded hkeeps.2 (by rw [hown]; rfl))
    rw [idOf?_of_own _ hown'] at hbare
    cases hbare

end

end SchemaShape
