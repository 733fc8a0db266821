import SchemaShape.Proofs.Claims

/-! # What a registry finds under a key

A key that documents were registered under denotes the last of them. Any other key denotes the node that
claims it first: in the first document that has such a node, and there in the order of the text.

The registry finds what the key denotes, and the text of the pointer that it reports leads there.
-/

namespace SchemaShape
set_option autoImplicit false

namespace Registry

/-- What a key denotes once documents are registered one after the other. -/
inductive Denotes (documents : List Document) (key : String) : Document → Pointer → Json → Prop where
  | registered {before after : List Document} {document : Document}
      (hdocuments : documents = before ++ document :: after) (hkey : document.key = key)
      (hlast : ∀ later ∈ after, later.key ≠ key) :
      Denotes documents key document [] document.schema
  | claimed {before after : List Document} {document : Document} {pointer : Pointer} {node : Members}
      (hdocuments : documents = before ++ document :: after)
      (hunregistered : ∀ other ∈ documents, other.key ≠ key)
      (hunclaimed : ∀ earlier ∈ before, ∀ pointer node, ¬ earlier.Claims key pointer node)
      (hfirst : document.FirstClaims key pointer node) :
      Denotes documents key document pointer (.object node)

variable {documents : List Document} {key : String} {document : Document} {pointer : Pointer}
variable {node : Json}

theorem Denotes.at?_eq (h : Denotes documents key document pointer node) :
    document.schema.at? pointer = some node := by
  cases h with
  | registered => rfl
  | claimed _ _ _ hfirst => exact hfirst.1.at?_eq

theorem Denotes.locate?_eq
    (hkeys : ∀ document ∈ documents, document.schema.everyObject Members.distinct = true)
    (h : Denotes documents key document pointer node) :
    (documents.foldl insert empty).locate? key = some (document.stored, pointer) := by
  cases h with
  | @registered before after document hdocuments hkey hlast =>
    subst hdocuments hkey
    rw [locate?_undisturbed (fun _ => hlast) fun hne => absurd rfl hne, Document.denoted?, if_pos rfl]
    rfl
  | @claimed before after document pointer node hdocuments hunregistered hunclaimed hfirst =>
    subst hdocuments
    have hdocument : document ∈ before ++ document :: after :=
      List.mem_append_right _ (List.mem_cons_self ..)
    have hclaimed : document.claimed? key = some pointer :=
      (Document.claimed?_eq_some (hkeys document hdocument)).mpr ⟨node, hfirst⟩
    have hother {other : Document} (hmem : other ∈ before ++ after) :
        other ∈ before ++ document :: after :=
      (List.sublist_cons_self ..).append_left .. |>.subset hmem
    have hundisturbed : Undisturbed before after document key :=
      { registered := fun other hmem => hunregistered other (hother hmem)
        earlier := fun other hmem => (Document.claimed?_eq_none
          (hkeys other (hother (List.mem_append_left _ hmem)))).mpr (hunclaimed other hmem)
        later := fun _ _ _ => hclaimed ▸ rfl }
    have hne : key ≠ document.key := (hunregistered document hdocument).symm
    rw [locate?_undisturbed (absurd · hne) fun _ => hundisturbed, Document.denoted?, if_neg hne, hclaimed]
    rfl

theorem Denotes.get?_eq
    (hkeys : ∀ document ∈ documents, document.schema.everyObject Members.distinct = true)
    (h : Denotes documents key document pointer node) :
    (documents.foldl insert empty).get? key = some node := by
  rw [get?, h.locate?_eq hkeys]
  exact h.at?_eq

theorem locate?_eq_none {registry : Registry} (h : registry.contains key = false) :
    registry.locate? key = none := by
  cases hplace : registry.place? key with
  | none =>
    rw [locate?, hplace]
    rfl
  | some =>
    rw [contains, hplace] at h
    cases h

theorem exists_last (h : ∃ document ∈ documents, document.key = key) :
    ∃ before document after, documents = before ++ document :: after ∧ document.key = key ∧
      ∀ later ∈ after, later.key ≠ key := by
  obtain ⟨document, hmem, hkey⟩ := h
  have hsome : (documents.reverse.find? (·.key == key)).isSome :=
    List.find?_isSome.mpr ⟨document, List.mem_reverse.mpr hmem, beq_iff_eq.mpr hkey⟩
  obtain ⟨last, hlast⟩ := Option.isSome_iff_exists.mp hsome
  obtain ⟨hkey, after, before, hreverse, hnone⟩ := List.find?_eq_some_iff_append.mp hlast
  refine ⟨before.reverse, last, after.reverse, ?_, eq_of_beq hkey, fun later hmem heq => ?_⟩
  · rw [← List.reverse_inj, hreverse]
    simp
  · simpa [heq] using hnone later (List.mem_reverse.mp hmem)

/-- A key denotes something, or no document has it. -/
theorem exists_denotes
    (hkeys : ∀ document ∈ documents, document.schema.everyObject Members.distinct = true)
    (key : String) :
    (∃ document pointer node, Denotes documents key document pointer node) ∨
      ∀ document ∈ documents, document.key ≠ key ∧ document.claimed? key = none := by
  by_cases hregistered : ∃ document ∈ documents, document.key = key
  · obtain ⟨before, document, after, hdocuments, hkey, hlast⟩ := exists_last hregistered
    exact .inl ⟨document, [], document.schema, .registered hdocuments hkey hlast⟩
  · have hunregistered : ∀ document ∈ documents, document.key ≠ key :=
      fun document hmem hkey => hregistered ⟨document, hmem, hkey⟩
    cases hfind : documents.find? fun document => (document.claimed? key).isSome with
    | none =>
      have hnone := List.find?_eq_none.mp hfind
      exact .inr fun document hmem => ⟨hunregistered document hmem,
        Option.not_isSome_iff_eq_none.mp (hnone document hmem)⟩
    | some document =>
      obtain ⟨hsome, before, after, hdocuments, hnone⟩ := List.find?_eq_some_iff_append.mp hfind
      obtain ⟨pointer, hclaimed⟩ := Option.isSome_iff_exists.mp hsome
      have hkeysOf {other : Document} (hmem : other ∈ before ++ document :: after) :=
        hkeys other (hdocuments ▸ hmem)
      have hdocument := hkeysOf (List.mem_append_right _ (List.mem_cons_self ..))
      obtain ⟨node, hfirst⟩ := Document.firstClaims_of_claimed? hdocument hclaimed
      have hunclaimed : ∀ earlier ∈ before, ∀ pointer node, ¬ earlier.Claims key pointer node := by
        intro earlier hmem
        refine (Document.claimed?_eq_none (hkeysOf (List.mem_append_left _ hmem))).mp ?_
        simpa using hnone earlier hmem
      exact .inl ⟨document, pointer, _, .claimed hdocuments hunregistered hunclaimed hfirst⟩

theorem contains_iff_denotes
    (hkeys : ∀ document ∈ documents, document.schema.everyObject Members.distinct = true)
    (key : String) :
    (documents.foldl insert empty).contains key = true ↔
      ∃ document pointer node, Denotes documents key document pointer node := by
  constructor
  · intro hcontains
    rcases exists_denotes hkeys key with hdenoted | hnone
    · exact hdenoted
    · rw [contains, place?_unclaimed hnone rfl] at hcontains
      cases hcontains
  · rintro ⟨document, pointer, node, h⟩
    by_contra hcontains
    have hlocate := h.locate?_eq hkeys
    rw [locate?_eq_none (eq_false_of_ne_true hcontains)] at hlocate
    cases hlocate

theorem contains_of_claims
    (hkeys : ∀ document ∈ documents, document.schema.everyObject Members.distinct = true)
    (hmem : document ∈ documents)
    (h : document.key = key ∨ ∃ pointer node, document.Claims key pointer node) :
    (documents.foldl insert empty).contains key = true := by
  refine (contains_iff_denotes hkeys key).mpr ((exists_denotes hkeys key).resolve_right fun hnone => ?_)
  obtain ⟨hne, hclaimed⟩ := hnone document hmem
  rcases h with hkey | ⟨pointer, node, hclaims⟩
  · exact hne hkey
  · exact (Document.claimed?_eq_none (hkeys document hmem)).mp hclaimed pointer node hclaims

theorem exists_get?_of_contains
    (hkeys : ∀ document ∈ documents, document.schema.everyObject Members.distinct = true)
    (h : (documents.foldl insert empty).contains key = true) :
    ∃ node, (documents.foldl insert empty).get? key = some node := by
  obtain ⟨document, pointer, node, hdenotes⟩ := (contains_iff_denotes hkeys key).mp h
  exact ⟨node, hdenotes.get?_eq hkeys⟩

/-- After any registrations a registry finds the keys that denote something, and nothing else. It reports
the document and the pointer that the key denotes, and the text of the pointer leads to the node. -/
theorem finds_denoted (documents : List Document)
    (hkeys : ∀ document ∈ documents, document.schema.everyObject Members.distinct = true)
    (key : String) :
    let registry := documents.foldl insert empty
    registry.contains key = (registry.get? key).isSome ∧
      registry.contains key = (registry.locate? key).isSome ∧
      (registry.contains key = true ↔
        ∃ document pointer node, Denotes documents key document pointer node) ∧
      ∀ document pointer node, Denotes documents key document pointer node →
        registry.locate? key = some (document.stored, pointer) ∧ registry.get? key = some node ∧
          document.schema.pointer? (Pointer.text pointer) = some node := by
  intro registry
  have hfound : registry.contains key = (registry.get? key).isSome ∧
      registry.contains key = (registry.locate? key).isSome := by
    cases hcontains : registry.contains key with
    | true =>
      obtain ⟨document, pointer, node, h⟩ := (contains_iff_denotes hkeys key).mp hcontains
      rw [h.get?_eq hkeys, h.locate?_eq hkeys]
      exact ⟨rfl, rfl⟩
    | false =>
      rw [get?, locate?_eq_none hcontains]
      exact ⟨rfl, rfl⟩
  refine ⟨hfound.1, hfound.2, contains_iff_denotes hkeys key, fun document pointer node h => ?_⟩
  refine ⟨h.locate?_eq hkeys, h.get?_eq hkeys, ?_⟩
  rw [Json.pointer?_text, h.at?_eq]

/-- Identifiers behind a slash, a tilde, an empty key and a digit. -/
def nestedSchema : Json :=
  .object [("a/b~1", .array [.bool true,
    .object [("", .object [("0", .object [("$id", .string "#x")])])]])]

theorem finds_denoted_nested :
    let documents : List Document :=
      [⟨Document.defaultUrl, nestedSchema⟩, ⟨Url.ofFilePath "/t.json", nestedSchema⟩]
    let registry := documents.foldl insert empty
    ∃ document node, Denotes documents "file:///schema.json#x" document ["a/b~1", "1", "", "0"] node ∧
      registry.get? "file:///schema.json#x" = some node ∧
      document.schema.pointer? "/a~1b~01/1//0" = some node := by
  intro documents registry
  have hkeys : ∀ document ∈ documents, document.schema.everyObject Members.distinct = true := by
    decide +kernel
  obtain ⟨-, -, hcontains, hdenoted⟩ := finds_denoted documents hkeys "file:///schema.json#x"
  obtain ⟨document, pointer, node, h⟩ := hcontains.mp (by decide +kernel)
  obtain ⟨hlocate, hget, htext⟩ := hdenoted document pointer node h
  have hpointer : (registry.locate? "file:///schema.json#x").map Prod.snd =
      some ["a/b~1", "1", "", "0"] := by
    decide +kernel
  rw [hlocate] at hpointer
  obtain rfl := Option.some.inj hpointer
  exact ⟨document, node, h, hget, htext⟩

end Registry

end SchemaShape
