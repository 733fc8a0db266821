import SchemaShape.Proofs.Anchors
import SchemaShape.Proofs.Declared

/-! # Roots that say in another way that they are objects

The type of a root names objects alone, or in a list with other names. Documents that differ in no more
than that claim the same, and references lead to the same nodes in both, except to the root itself and
into its type, where no schema is.
-/

namespace SchemaShape
set_option autoImplicit false

open Compile
open Registry (IsKeyIn)

/-! ## Types that name objects -/

/-- What the type of a root may be that names objects. -/
inductive ObjectType where
  | plain
  | listed (names : List String) (mem : "object" ∈ names)

namespace ObjectType

def json : ObjectType → Json
  | plain => .string "object"
  | listed names _ => .array (names.map .string)

/-- What is reported of the type at the root of a document. -/
def fallback (c : Compiler) : ObjectType → List Diagnostic
  | plain => []
  | listed names _ => [c.warning .rootTypeFallback
      ("root type " ++ Text.quotedList names ++ " is out of scope, falling back to `object`")]

end ObjectType

/-- A text or a list of texts, and no schema. -/
def Json.IsText (node : Json) : Prop :=
  (∃ text, node = .string text) ∨ ∃ texts : List String, node = .array (texts.map .string)

namespace Json.IsText

variable {node part : Json} {pointer : Pointer}

theorem of_type (type : ObjectType) : type.json.IsText := by
  cases type with
  | plain => exact .inl ⟨_, rfl⟩
  | listed names _ => exact .inr ⟨names, rfl⟩

theorem at? (h : node.IsText) (hat : node.at? pointer = some part) : part.IsText := by
  cases pointer with
  | nil =>
    cases hat
    exact h
  | cons token rest =>
    rw [Json.at?, Option.bind_eq_some_iff] at hat
    obtain ⟨child, hchild, hrest⟩ := hat
    rcases h with ⟨text, rfl⟩ | ⟨texts, rfl⟩
    · cases hchild
    · obtain ⟨position, -, hitem⟩ := Option.bind_eq_some_iff.mp hchild
      obtain ⟨text, -, rfl⟩ := List.mem_map.mp (List.mem_of_getElem? hitem)
      cases rest with
      | nil =>
        cases hrest
        exact .inl ⟨text, rfl⟩
      | cons => cases hrest

theorem fails (h : node.IsText) (depth : Nat) (outer : Bool) (c : Compiler) :
    ∃ failure, (upTo depth node outer).Gives c (.error failure) [] := by
  rw [upTo_eq]
  rcases h with ⟨text, rfl⟩ | ⟨texts, rfl⟩
  · exact ⟨_, gives_malformed _ c⟩
  · exact ⟨_, gives_malformed _ c⟩

theorem collect_nil (h : node.IsText) (draft : Draft) (base : Url) (pointer : Pointer) :
    Claim.collect draft base pointer node = [] := by
  rcases h with ⟨text, rfl⟩ | ⟨texts, rfl⟩
  · rfl
  · rw [List.eq_nil_iff_forall_not_mem]
    intro claim mem
    obtain ⟨position, part, hpart, hclaim⟩ := Claim.mem_collect_array.mp mem
    obtain ⟨text, -, rfl⟩ := List.mem_map.mp (List.mem_of_getElem? hpart)
    cases hclaim

end Json.IsText

/-! ## The other document -/

theorem Members.set_set_same {members : Members} {key : String} {value : Json} (other : Json)
    (h : members.get? key = some value) : (members.set key other).set key value = members := by
  induction members with
  | nil => cases h
  | cons member rest ih =>
    obtain ⟨first, part⟩ := member
    rw [Members.get?_cons] at h
    rw [Members.set]
    split
    · next heq =>
      rw [if_pos heq.symm] at h
      cases h
      rw [Members.set, if_pos rfl, heq]
    · next hne =>
      rw [if_neg (Ne.symm hne)] at h
      rw [Members.set, if_neg hne, ih h]

/-- The same root with another type that names objects. -/
def Members.retyped (root : Members) (type : ObjectType) : Members :=
  root.set "type" type.json

namespace Members

variable {root : Members} {type other : ObjectType}

theorem get?_retyped {key : String} (h : key ≠ "type") :
    (root.retyped other).get? key = root.get? key :=
  get?_set_ne _ _ h

theorem get?_retyped_type : (root.retyped other).get? "type" = some other.json :=
  get?_set_self ..

theorem idOf?_retyped (draft : Draft) : draft.idOf? (root.retyped other) = draft.idOf? root :=
  Draft.idOf?_set _ (by decide) (by decide)

theorem detectIn_retyped : Draft.detectIn (.object (root.retyped other)) =
    Draft.detectIn (.object root) := by
  have hget : (Json.object (root.retyped other)).get? "$schema" = (Json.object root).get? "$schema" :=
    get?_retyped (by decide)
  rw [Draft.detectIn, Draft.detectIn, hget]

theorem ofSchema_retyped : Name.ofSchema (.object (root.retyped other)) =
    Name.ofSchema (.object root) := by
  have hget : (Json.object (root.retyped other)).get? "title" = (Json.object root).get? "title" :=
    get?_retyped (by decide)
  rw [Name.ofSchema, Name.ofSchema, hget]

theorem retyped_retyped (htype : root.get? "type" = some type.json) :
    (root.retyped other).retyped type = root :=
  set_set_same _ htype

theorem at?_retyped {pointer : Pointer} (hne : pointer ≠ []) (hhead : pointer.head? ≠ some "type") :
    (Json.object (root.retyped other)).at? pointer = (Json.object root).at? pointer := by
  cases pointer with
  | nil => exact absurd rfl hne
  | cons token rest =>
    have htoken : token ≠ "type" := fun heq => hhead (by rw [heq]; rfl)
    rw [Json.at?, Json.at?, Json.child?, Json.child?, get?_retyped htoken]

end Members

namespace Document

/-- No key of the document denotes something in the type of its root. -/
def Untyped (document : Document) : Prop :=
  ∀ key pointer, document.denoted? key = some pointer → pointer.head? ≠ some "type"

variable {url : Url} {root : Members} {type other : ObjectType}

theorem claims_retyped (htype : root.get? "type" = some type.json) :
    claims ⟨url, .object (root.retyped other)⟩ = claims ⟨url, .object root⟩ := by
  have hnode : ∀ draft base, Claim.ofNode draft base [] (root.retyped other) =
      Claim.ofNode draft base [] root := by
    intro draft base
    simp only [Claim.ofNode, Members.idOf?_retyped]
  have hinside : ∀ draft base, Claim.collectMembers draft base [] (root.retyped other) =
      Claim.collectMembers draft base [] root := by
    intro draft base
    refine Claim.collectMembers_set ((Json.IsText.of_type other).collect_nil _ _ _) fun prior hget => ?_
    rw [htype] at hget
    cases hget
    exact (Json.IsText.of_type type).collect_nil _ _ _
  rw [claims, claims, Members.detectIn_retyped, Claim.collect, Claim.collect, hnode]
  exact congrArg _ (hinside _ _)

theorem denoted?_retyped (htype : root.get? "type" = some type.json) (key : String) :
    denoted? ⟨url, .object (root.retyped other)⟩ key = denoted? ⟨url, .object root⟩ key := by
  rw [denoted?, denoted?, claimed?, claimed?, claims_retyped htype]
  rfl

theorem untyped_of_distinct (htype : root.get? "type" = some type.json)
    (hkeys : (Json.object root).everyObject Members.distinct = true) :
    Untyped ⟨url, .object root⟩ := by
  intro key pointer hdenoted hhead
  rw [denoted?] at hdenoted
  split at hdenoted
  · cases hdenoted
    cases hhead
  · obtain ⟨node, hclaims, -⟩ := firstClaims_of_claimed? hkeys hdenoted
    have hat : (Json.object root).at? pointer = some (.object node) := hclaims.at?_eq
    cases pointer with
    | nil => cases hhead
    | cons token rest =>
      cases hhead
      rw [Json.at?, Json.child?, htype, Option.bind_some] at hat
      rcases (Json.IsText.of_type type).at? hat with ⟨text, heq⟩ | ⟨texts, heq⟩ <;> cases heq

theorem Untyped.retyped (h : Untyped ⟨url, .object root⟩) (htype : root.get? "type" = some type.json) :
    Untyped ⟨url, .object (root.retyped other)⟩ := by
  intro key pointer hdenoted
  rw [denoted?_retyped htype] at hdenoted
  exact h key pointer hdenoted

end Document

theorem Url.Formed.document_of_key {url document : Url} {part : Option String} (h : url.Formed)
    (hdocument : document.Formed) (hkey : IsKeyIn url.withoutFragment.text
      (document.withoutFragment.text ++ part.elim "" ("#" ++ ·))) :
    url.withoutFragment = document.withoutFragment := by
  obtain ⟨part', hpart⟩ : ∃ part' : Option String,
      document.withoutFragment.text ++ part.elim "" ("#" ++ ·) =
        url.withoutFragment.text ++ part'.elim "" ("#" ++ ·) := by
    rcases hkey with heq | ⟨anchor, heq⟩
    · exact ⟨none, heq.trans String.append_empty.symm⟩
    · exact ⟨some anchor, heq.trans String.append_assoc⟩
  have hchars := congrArg String.toList hpart
  rw [String.toList_append, String.toList_append, toList_elim, toList_elim] at hchars
  obtain ⟨hfront, -⟩ := append_mark_inj hdocument.free_document h.free_document hchars
  exact h.withoutFragment.text_inj hdocument.withoutFragment (String.toList_inj.mp hfront.symm)

namespace Document

variable {url : Url} {root : Members} {type other : ObjectType}

/-- The root of a document is found under the URL of the document and that of its identifier. -/
theorem document_of_root {target : Url} {key : String} (hurl : url.Formed) (htarget : target.Formed)
    (hkey : IsKeyIn target.withoutFragment.text key)
    (hdenoted : denoted? ⟨url, .object root⟩ key = some []) :
    target.withoutFragment = url.withoutFragment ∨
      ∃ id joined, (Draft.detectIn (.object root)).idOf? root = some id ∧
        url.withoutFragment.join id = .ok joined ∧
        target.withoutFragment = joined.withoutFragment := by
  have hown : ∀ {part : Option String},
      key = url.withoutFragment.text ++ part.elim "" ("#" ++ ·) →
        target.withoutFragment = url.withoutFragment := by
    rintro part rfl
    exact htarget.document_of_key hurl hkey
  rw [denoted?] at hdenoted
  split at hdenoted
  · next heq => exact .inl (@hown none (heq.trans String.append_empty.symm))
  · obtain ⟨claim, hfind, hpointer⟩ := Option.map_eq_some_iff.mp hdenoted
    have hclaimed : some claim.key = some key := by simpa using List.find?_some hfind
    obtain ⟨inner, claimed, hreads⟩ :=
      Claim.exists_reads (Draft.detectIn (.object root)) url.withoutFragment root
    rcases (Claim.mem_collect_object hreads).mp (List.mem_of_find?_eq_some hfind) with
      ⟨heq, -⟩ | ⟨token, part, -, -, hclaim⟩
    · rw [hclaimed] at heq
      cases hreads with
      | anonymous | unjoined => cases heq
      | @anchor id fragment joined hid hjoin hlocal hfragment _ =>
        rw [Url.join_local hlocal, Except.ok.injEq] at hjoin
        subst hjoin
        have hlocated : Url.fragmentOf id = some fragment := hfragment
        rw [hlocated, Url.text_within] at heq
        exact .inl (@hown (some fragment) ((Option.some.inj heq).symm.trans String.append_assoc))
      | @url id joined hid hjoin _ =>
        have hjoined := hurl.withoutFragment.join hjoin
        refine .inr ⟨id, joined, hid, hjoin, @Url.Formed.document_of_key _ _ none htarget hjoined ?_⟩
        rwa [Option.elim_none, String.append_empty, Option.some.inj heq]
    · have hinside := Claim.pointer_collect hclaim
      rw [hpointer] at hinside
      cases List.prefix_nil.mp hinside

/-! ## References -/

/-- What stands at one place in the two documents differs only if it is the root, or a text. -/
theorem at?_cases {pointer : Pointer} {node : Json} (htype : root.get? "type" = some type.json)
    (h : (Json.object root).at? pointer = some node) :
    (pointer = [] ∧ node = .object root) ∨ node.IsText ∨
      (Json.object (root.retyped other)).at? pointer = some node := by
  cases pointer with
  | nil =>
    cases h
    exact .inl ⟨rfl, rfl⟩
  | cons token rest =>
    by_cases htoken : token = "type"
    · subst htoken
      rw [Json.at?, Json.child?, htype, Option.bind_some] at h
      exact .inr (.inl ((Json.IsText.of_type type).at? h))
    · refine .inr (.inr ?_)
      rw [Members.at?_retyped (List.cons_ne_nil _ _) fun heq => htoken (Option.some.inj heq), h]

section

variable {r r' : Resolver} (hregistry : r.registry = Registry.empty.insert ⟨url, .object root⟩)
variable (hretyped : r' = { r with
  registry := Registry.empty.insert ⟨url, .object (root.retyped other)⟩ })
variable (htype : root.get? "type" = some type.json)

include hregistry hretyped htype

omit hregistry in
theorem get?_retyped (key : String) : r'.registry.get? key =
    (denoted? ⟨url, .object root⟩ key).bind (Json.object (root.retyped other)).at? := by
  rw [hretyped, Registry.get?_denoted, denoted?_retyped htype]

theorem fragmentTarget?_retyped {document fragment : String} {front : Pointer} {top top' node : Json}
    (hfront : denoted? ⟨url, .object root⟩ document = some front)
    (htop : (Json.object root).at? front = some top)
    (htop' : (Json.object (root.retyped other)).at? front = some top')
    (h : r.fragmentTarget? document top fragment = some node) :
    (node = .object root ∧ ∃ key, IsKeyIn document key ∧ denoted? ⟨url, .object root⟩ key = some []) ∨
      node.IsText ∨ r'.fragmentTarget? document top' fragment = some node := by
  revert h
  rw [Resolver.fragmentTarget?, Resolver.fragmentTarget?]
  split
  · intro h
    cases h
    rcases at?_cases htype htop with ⟨rfl, rfl⟩ | htext | hsame
    · exact .inl ⟨rfl, _, .inl rfl, hfront⟩
    · exact .inr (.inl htext)
    · exact .inr (.inr (htop'.symm.trans hsame))
  · intro h
    obtain ⟨pointer, hpointer, hnode⟩ := Option.bind_eq_some_iff.mp h
    have hwhole : (Json.object root).at? (front ++ pointer) = some node := by
      rw [Json.at?_append, htop]
      exact hnode
    rcases at?_cases htype hwhole with ⟨hnil, rfl⟩ | htext | hsame
    · rw [(List.append_eq_nil_iff.mp hnil).1] at hfront
      exact .inl ⟨rfl, _, .inl rfl, hfront⟩
    · exact .inr (.inl htext)
    · rw [Json.at?_append, htop'] at hsame
      rw [Json.pointer?, hpointer]
      exact .inr (.inr hsame)
  · intro h
    rw [hregistry, Registry.get?_denoted, Option.bind_eq_some_iff] at h
    obtain ⟨pointer, hpointer, hnode⟩ := h
    rcases at?_cases htype hnode with ⟨rfl, rfl⟩ | htext | hsame
    · exact .inl ⟨rfl, _, .inr ⟨_, rfl⟩, hpointer⟩
    · exact .inr (.inl htext)
    · rw [get?_retyped hretyped htype, hpointer]
      exact .inr (.inr hsame)

/-- A reference leads to the same node of the other document, except to the root itself, and to what is no
schema. -/
theorem target_retyped {target : Url} {node : Json} (untyped : Untyped ⟨url, .object root⟩)
    (h : r.target target = .ok node) :
    (node = .object root ∧ ∃ key, IsKeyIn (r.documentOf target) key ∧
        denoted? ⟨url, .object root⟩ key = some []) ∨
      node.IsText ∨ r'.target target = .ok node := by
  obtain ⟨fragment, top, hdecode, htop, htarget⟩ := Resolver.target_ok h
  have hdocument : r'.documentOf target = r.documentOf target := by
    rw [hretyped]
    rfl
  rw [hregistry, Registry.get?_denoted, Option.bind_eq_some_iff] at htop
  obtain ⟨front, hfront, htop⟩ := htop
  -- The document is found on the other side, too.
  obtain ⟨top', htop'⟩ : ∃ top', (Json.object (root.retyped other)).at? front = some top' := by
    cases front with
    | nil => exact ⟨_, rfl⟩
    | cons token rest =>
      rw [Members.at?_retyped (List.cons_ne_nil _ _) (untyped _ _ hfront)]
      exact ⟨top, htop⟩
  have hfound : r'.registry.get? (r'.documentOf target) = some top' := by
    rw [hdocument, get?_retyped hretyped htype, hfront]
    exact htop'
  rcases fragmentTarget?_retyped hregistry hretyped htype hfront htop htop' htarget with
    hroot | htext | hsame
  · exact .inl hroot
  · exact .inr (.inl htext)
  · exact .inr (.inr (Resolver.target_of_fragment hdecode hfound (hdocument ▸ hsame)))

end
end Document
end SchemaShape
