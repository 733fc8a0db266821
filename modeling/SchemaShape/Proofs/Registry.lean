import SchemaShape.Session

/-! # What a registry knows of a document

A key denotes the document that was registered under it last. A key under which no document was
registered denotes the node that claimed it first.
-/

namespace SchemaShape
set_option autoImplicit false

namespace Document

def key (document : Document) : String :=
  document.url.withoutFragment.text

def claims (document : Document) : List Claim :=
  Claim.collect (Draft.detectIn document.schema) document.url.withoutFragment [] document.schema

def stored (document : Document) : Document :=
  { document with url := document.url.withoutFragment }

/-- The first node of a document that claims a key. -/
def claimed? (document : Document) (key : String) : Option Pointer :=
  (document.claims.find? (·.key == key)).map (·.pointer)

/-- What a key denotes in a document alone. -/
def denoted? (document : Document) (key : String) : Option Pointer :=
  if key = document.key then some [] else document.claimed? key

end Document

/-! ## The index -/

namespace Index

theorem lookup_assign (index : Index) (key key' : String) (place : Place) :
    (index.assign key place).lookup key' = if key' = key then some place else index.lookup key' := by
  induction index with
  | nil =>
    rw [assign, List.lookup_cons]
    by_cases h : key' = key
    · simp [h]
    · rw [beq_eq_false_iff_ne.mpr h, if_neg h]
  | cons entry rest ih =>
    obtain ⟨k, p⟩ := entry
    rw [assign]
    by_cases hk : k = key
    · rw [if_pos hk, List.lookup_cons, List.lookup_cons, hk]
      by_cases h : key' = key
      · simp [h]
      · rw [beq_eq_false_iff_ne.mpr h, if_neg h]
    · rw [if_neg hk, List.lookup_cons, List.lookup_cons, ih]
      by_cases h : key' = k
      · subst h
        simp [hk]
      · rw [beq_eq_false_iff_ne.mpr h]

theorem lookup_claim (index : Index) (key key' : String) (place : Place) :
    (index.claim key place).lookup key' =
      (index.lookup key').or (if key' = key then some place else none) := by
  rw [claim]
  by_cases hkey : (index.lookup key).isSome
  · rw [if_pos hkey]
    by_cases h : key' = key
    · rw [h, if_pos rfl, Option.or_of_isSome hkey]
    · rw [if_neg h, Option.or_none]
  · rw [if_neg hkey, List.lookup_append, List.lookup_cons, List.lookup_nil]
    by_cases h : key' = key
    · simp [h]
    · rw [beq_eq_false_iff_ne.mpr h, if_neg h]

theorem lookup_claims (claims : List Claim) (index : Index) (position : Nat) (key : String) :
    (claims.foldl (fun index claim => index.claim claim.key ⟨position, claim.pointer⟩)
        index).lookup key =
      (index.lookup key).or
        ((claims.find? (·.key == key)).map fun claim => ⟨position, claim.pointer⟩) := by
  induction claims generalizing index with
  | nil => rw [List.foldl_nil, List.find?_nil, Option.map_none, Option.or_none]
  | cons claim rest ih =>
    rw [List.foldl_cons, ih, lookup_claim, List.find?_cons, Option.or_assoc]
    congr 1
    by_cases h : key = claim.key
    · subst h
      simp
    · have h' : (claim.key == key) = false := beq_eq_false_iff_ne.mpr fun heq => h heq.symm
      rw [if_neg h, h', Option.none_or]

end Index

/-! ## The registry -/

namespace Registry

theorem place?_insert (registry : Registry) (document : Document) (key : String) :
    (registry.insert document).place? key =
      if key = document.key then some ⟨registry.documents.length, []⟩
      else (registry.place? key).or
        ((document.claimed? key).map fun pointer => ⟨registry.documents.length, pointer⟩) := by
  have h := Index.lookup_claims document.claims
    (registry.index.assign document.key ⟨registry.documents.length, []⟩) registry.documents.length key
  rw [Index.lookup_assign] at h
  rw [place?, place?, Document.claimed?, Option.map_map]
  refine h.trans ?_
  by_cases hkey : key = document.key
  · rw [if_pos hkey, if_pos hkey, Option.some_or]
  · rw [if_neg hkey, if_neg hkey]
    rfl

theorem documents_insert (registry : Registry) (document : Document) :
    (registry.insert document).documents = registry.documents ++ [document.stored] := rfl

/-- Documents registered later, and under other keys, leave a key as it is. -/
theorem place?_later {documents : List Document} {registry : Registry} {key : String} {place : Place}
    (hkey : ∀ other ∈ documents, other.key ≠ key) (h : registry.place? key = some place) :
    (documents.foldl insert registry).place? key = some place := by
  induction documents generalizing registry with
  | nil => exact h
  | cons first rest ih =>
    refine ih (fun other mem => hkey other (List.mem_cons_of_mem _ mem)) ?_
    rw [place?_insert, if_neg fun heq => hkey first (List.mem_cons_self ..) heq.symm, h,
      Option.some_or]

theorem place?_unclaimed {documents : List Document} {registry : Registry} {key : String}
    (hkey : ∀ other ∈ documents, other.key ≠ key ∧ other.claimed? key = none)
    (h : registry.place? key = none) : (documents.foldl insert registry).place? key = none := by
  induction documents generalizing registry with
  | nil => exact h
  | cons first rest ih =>
    obtain ⟨hne, hclaimed⟩ := hkey first (List.mem_cons_self ..)
    refine ih (fun other mem => hkey other (List.mem_cons_of_mem _ mem)) ?_
    rw [place?_insert, if_neg fun heq => hne heq.symm, h, hclaimed]
    rfl

theorem documents_foldl (documents : List Document) (registry : Registry) :
    (documents.foldl insert registry).documents =
      registry.documents ++ documents.map Document.stored := by
  induction documents generalizing registry with
  | nil => rw [List.foldl_nil, List.map_nil, List.append_nil]
  | cons first rest ih =>
    rw [List.foldl_cons, ih, documents_insert, List.append_assoc, List.map_cons]
    rfl

/-- The other documents do not take a key away from a document: none is registered under it, none
claimed it before, and whoever claims it later comes too late. -/
structure Undisturbed (before after : List Document) (document : Document) (key : String) :
    Prop where
  registered : ∀ other ∈ before ++ after, other.key ≠ key
  earlier : ∀ other ∈ before, other.claimed? key = none
  later : ∀ other ∈ after, (other.claimed? key).isSome → (document.claimed? key).isSome

/-- Of all keys that the others do not take away a document knows what it knows alone. -/
theorem locate?_undisturbed {before after : List Document} {document : Document} {key : String}
    (hlast : key = document.key → ∀ other ∈ after, other.key ≠ key)
    (h : key ≠ document.key → Undisturbed before after document key) :
    ((before ++ document :: after).foldl insert empty).locate? key =
      (document.denoted? key).map fun pointer => (document.stored, pointer) := by
  rw [List.foldl_append, List.foldl_cons]
  generalize hbefore : before.foldl insert empty = registry
  have hplace : (after.foldl insert (registry.insert document)).place? key =
      (document.denoted? key).map fun pointer => ⟨registry.documents.length, pointer⟩ := by
    rw [Document.denoted?]
    by_cases hkey : key = document.key
    · rw [if_pos hkey]
      refine place?_later (hlast hkey) ?_
      rw [place?_insert, if_pos hkey]
    · obtain ⟨hregistered, hearlier, hlater⟩ := h hkey
      rw [if_neg hkey]
      have hnone : registry.place? key = none := by
        rw [← hbefore]
        refine place?_unclaimed (fun other mem => ⟨?_, hearlier other mem⟩) rfl
        exact hregistered other (List.mem_append_left _ mem)
      have hothers : ∀ other ∈ after, other.key ≠ key :=
        fun other mem => hregistered other (List.mem_append_right _ mem)
      cases hclaimed : document.claimed? key with
      | some pointer =>
        refine place?_later hothers ?_
        rw [place?_insert, if_neg hkey, hnone, hclaimed]
        rfl
      | none =>
        refine place?_unclaimed (fun other mem => ⟨hothers other mem, ?_⟩) ?_
        · cases hother : other.claimed? key with
          | none => rfl
          | some pointer =>
            have hsome := hlater other mem (hother ▸ rfl)
            rw [hclaimed] at hsome
            cases hsome
        · rw [place?_insert, if_neg hkey, hnone, hclaimed]
          rfl
  have hdocument : (after.foldl insert (registry.insert document)).documents[
      registry.documents.length]? = some document.stored := by
    rw [documents_foldl, documents_insert, List.append_assoc, List.getElem?_append_right (Nat.le_refl _),
      Nat.sub_self]
    rfl
  rw [locate?, hplace]
  cases document.denoted? key with
  | none => rfl
  | some pointer =>
    show (do return (← (after.foldl insert (registry.insert document)).documents[
      registry.documents.length]?, pointer)) = _
    rw [hdocument]
    rfl

theorem locate?_alone (document : Document) (key : String) :
    (empty.insert document).locate? key =
      (document.denoted? key).map fun pointer => (document.stored, pointer) :=
  @locate?_undisturbed [] [] document key (by simp) fun _ => ⟨by simp, by simp, by simp⟩

theorem get?_denoted (document : Document) (key : String) :
    (empty.insert document).get? key = (document.denoted? key).bind document.schema.at? := by
  rw [get?, locate?_alone]
  cases document.denoted? key <;> rfl

end Registry

end SchemaShape
