import Mathlib.Data.List.Forall2
import Mathlib.Logic.Relation
import SchemaShape.Proofs.Claims
import SchemaShape.Proofs.Json.Members

/-! # The order of keys

The keys of objects can be put in another order, one object at a time, at any depth. The values of
`properties` are left alone, for there the order of keys is the order of fields, but not what is inside
of them.

What a key looks up is then the same up to the order of keys, and so is what a pointer leads to. An
object that is no value of `properties` may have its members in another order, and another one has them
in the same.
-/

namespace SchemaShape
set_option autoImplicit false

namespace Json

/-- One object in a value, or none, has its keys in another order, and it is no value of `properties`.
A value that is `kept` is not itself that object. -/
inductive Reordering : (kept : Bool) → Json → Json → Prop where
  | same (kept : Bool) (value : Json) : Reordering kept value value
  | here {members members' : Members} (h : members.Perm members') :
      Reordering false (.object members) (.object members')
  | item {kept : Bool} {before after : List Json} {part part' : Json}
      (h : Reordering false part part') :
      Reordering kept (.array (before ++ part :: after)) (.array (before ++ part' :: after))
  | member {kept : Bool} {before after : Members} {key : String} {part part' : Json}
      (h : Reordering (key == "properties") part part') :
      Reordering kept (.object (before ++ (key, part) :: after))
        (.object (before ++ (key, part') :: after))

/-- Any objects but the values of `properties` have their keys in another order. -/
def Reordered : Json → Json → Prop :=
  Relation.ReflTransGen (Reordering false)

namespace Reordering

variable {kept : Bool} {value value' : Json} {members members' : Members}

theorem relax (h : Reordering kept value value') : Reordering false value value' := by
  cases h with
  | same => exact .same _ _
  | here h => exact .here h
  | item h => exact .item h
  | member h => exact .member h

/-! ## Parts -/

theorem array_inv {items : List Json} (h : Reordering kept (.array items) value') :
    ∃ items', value' = .array items' ∧ List.Forall₂ (Reordering false) items items' := by
  have hsame (items : List Json) : List.Forall₂ (Reordering false) items items :=
    List.forall₂_same.mpr fun _ _ => .same _ _
  cases h with
  | same => exact ⟨items, rfl, hsame items⟩
  | item h => exact ⟨_, rfl, List.rel_append (hsame _) (.cons h (hsame _))⟩

/-- The members that have the same keys are the same up to the order of keys further in. -/
def Aligned : Members → Members → Prop :=
  List.Forall₂ fun member member' =>
    member.1 = member'.1 ∧ Reordering (member.1 == "properties") member.2 member'.2

theorem aligned_same (members : Members) : Aligned members members :=
  List.forall₂_same.mpr fun _ _ => ⟨rfl, .same _ _⟩

theorem object_inv (h : Reordering kept (.object members) value') :
    ∃ aligned members', value' = .object members' ∧ Aligned members aligned ∧
      aligned.Perm members' ∧ (kept = true → aligned = members') := by
  cases h with
  | same => exact ⟨members, members, rfl, aligned_same members, .refl members, fun _ => rfl⟩
  | here h => exact ⟨members, _, rfl, aligned_same members, h, fun hkept => nomatch hkept⟩
  | @member _ before after key part part' h =>
    exact ⟨before ++ (key, part') :: after, _, rfl,
      List.rel_append (aligned_same _) (.cons ⟨rfl, h⟩ (aligned_same _)), .refl _, fun _ => rfl⟩

theorem inv (h : Reordering kept value value') : value = value' ∨
    (∃ items items', value = .array items ∧ value' = .array items' ∧
      List.Forall₂ (Reordering false) items items') ∨
    ∃ members members', value = .object members ∧ value' = .object members' := by
  cases value with
  | array items =>
    obtain ⟨items', rfl, hitems⟩ := h.array_inv
    exact .inr (.inl ⟨items, items', rfl, rfl, hitems⟩)
  | object members =>
    obtain ⟨_, members', rfl, -⟩ := h.object_inv
    exact .inr (.inr ⟨members, members', rfl, rfl⟩)
  | null | bool | number | string =>
    cases h
    exact .inl rfl

theorem asString?_eq (h : Reordering kept value value') : value.asString? = value'.asString? := by
  cases h <;> rfl

/-! ## Lookups -/

theorem Aligned.keys_eq (h : Aligned members members') :
    members.map Prod.fst = members'.map Prod.fst := by
  induction h with
  | nil => rfl
  | cons hmember _ ih => rw [List.map_cons, List.map_cons, hmember.1, ih]

theorem Aligned.get? (h : Aligned members members') (key : String) :
    Option.Rel (Reordering (key == "properties")) (members.get? key) (members'.get? key) := by
  induction h with
  | nil => exact .none
  | @cons member member' _ _ hmember _ ih =>
    obtain ⟨first, part⟩ := member
    obtain ⟨first', part'⟩ := member'
    obtain ⟨hkey, hpart⟩ := hmember
    simp only at hkey hpart
    rw [Members.get?_cons, Members.get?_cons, ← hkey]
    split
    · next heq => exact .some (heq ▸ hpart)
    · exact ih

end Reordering

end Json

theorem Members.get?_of_perm {members members' : Members} (h : members.Perm members')
    (distinct : (members.map Prod.fst).Nodup) (key : String) :
    members.get? key = members'.get? key := by
  have distinct' := (h.map Prod.fst).nodup_iff.mp distinct
  cases hget : members.get? key with
  | some value => exact (get?_of_mem distinct' (h.mem_iff.mp (mem_of_get? hget))).symm
  | none =>
    refine (get?_eq_none fun mem => ?_).symm
    obtain ⟨⟨other, value⟩, hmem, rfl⟩ := List.mem_map.mp mem
    have hsome := get?_isSome_of_mem (h.mem_iff.mpr hmem)
    rw [hget] at hsome
    cases hsome

namespace Json.Reordering

variable {kept : Bool} {value value' : Json} {members members' : Members}

theorem get? (h : Reordering kept (.object members) (.object members'))
    (distinct : (members.map Prod.fst).Nodup) (key : String) :
    Option.Rel (Reordering (key == "properties")) (members.get? key) (members'.get? key) := by
  obtain ⟨aligned, others, heq, haligned, hperm, -⟩ := h.object_inv
  cases heq
  rw [← Members.get?_of_perm hperm (haligned.keys_eq ▸ distinct)]
  exact haligned.get? key

theorem get?_relax (h : Reordering kept (.object members) (.object members'))
    (distinct : (members.map Prod.fst).Nodup) (key : String) :
    Option.Rel (Reordering false) (members.get? key) (members'.get? key) := by
  have hget := h.get? distinct key
  generalize members.get? key = found, members'.get? key = found' at hget ⊢
  cases hget with
  | none => exact .none
  | some hpart => exact .some hpart.relax

theorem get?_or (h : Reordering kept (.object members) (.object members'))
    (distinct : (members.map Prod.fst).Nodup) (keys : List String) :
    (∀ key ∈ keys, members.get? key = members'.get? key) ∨
      ∀ key ∉ keys, members.get? key = members'.get? key := by
  cases h with
  | same => exact .inl fun _ _ => rfl
  | here h => exact .inl fun key _ => Members.get?_of_perm h distinct key
  | @member _ before after changed part part' h =>
    have hother : ∀ key, key ≠ changed → Members.get? (before ++ (changed, part) :: after) key =
        Members.get? (before ++ (changed, part') :: after) key := by
      intro key hne
      induction before with
      | nil => simp only [List.nil_append, Members.get?_cons, if_neg hne]
      | cons member rest ih =>
        obtain ⟨other, first⟩ := member
        rw [List.cons_append, List.map_cons, List.nodup_cons] at distinct
        rw [List.cons_append, List.cons_append, Members.get?_cons, Members.get?_cons, ih distinct.2]
    by_cases hchanged : changed ∈ keys
    · exact .inr fun key hkey => hother key fun heq => hkey (heq ▸ hchanged)
    · exact .inl fun key hkey => hother key fun heq => hchanged (heq ▸ hkey)

end Json.Reordering

/-! ## Values without identifiers -/

namespace Json

variable {test : Members → Bool} {members : Members} {items : List Json}

theorem everyObject_array_iff : (array items).everyObject test = true ↔
    ∀ item ∈ items, item.everyObject test = true := by
  rw [everyObject]
  induction items with
  | nil => simp [everyObjectItems]
  | cons item rest ih => rw [everyObjectItems, Bool.and_eq_true, ih, List.forall_mem_cons]

theorem everyObject_object_iff : (object members).everyObject test = true ↔
    test members = true ∧ ∀ member ∈ members, member.2.everyObject test = true := by
  have hmembers : everyObjectMembers test members = true ↔
      ∀ member ∈ members, member.2.everyObject test = true := by
    induction members with
    | nil => simp [everyObjectMembers]
    | cons member rest ih =>
      obtain ⟨key, value⟩ := member
      rw [everyObjectMembers, Bool.and_eq_true, ih, List.forall_mem_cons]
  rw [everyObject, Bool.and_eq_true, hmembers]

end Json

/-- Whether there is no text as an identifier. -/
def Members.anonymous (members : Members) : Bool :=
  ((members.get? "$id").bind Json.asString?).isNone && ((members.get? "id").bind Json.asString?).isNone

/-- A value as it is read, and without identifiers. -/
structure Json.Anonymous (value : Json) : Prop where
  keys : value.everyObject Members.distinct = true
  anonymous : value.everyObject Members.anonymous = true

namespace Json

variable {kept : Bool} {value value' part : Json} {members members' : Members} {items : List Json}

namespace Anonymous

theorem within (h : value.Anonymous) (hpart : part.Within value) : part.Anonymous :=
  ⟨hpart.everyObject h.keys, hpart.everyObject h.anonymous⟩

theorem array_iff : (array items).Anonymous ↔ ∀ item ∈ items, item.Anonymous := by
  constructor
  · exact fun h item mem => h.within (.item mem (.refl item))
  · exact fun h => ⟨everyObject_array_iff.mpr fun item mem => (h item mem).keys,
      everyObject_array_iff.mpr fun item mem => (h item mem).anonymous⟩

theorem object_iff : (object members).Anonymous ↔ (members.map Prod.fst).Nodup ∧
    members.anonymous = true ∧ ∀ member ∈ members, member.2.Anonymous := by
  constructor
  · exact fun h => ⟨of_decide_eq_true (everyObject_self h.keys), everyObject_self h.anonymous,
      fun member mem => h.within (.member mem (.refl member.2))⟩
  · rintro ⟨distinct, anonymous, hmembers⟩
    refine ⟨everyObject_object_iff.mpr ⟨decide_eq_true distinct, ?_⟩,
      everyObject_object_iff.mpr ⟨anonymous, ?_⟩⟩
    · exact fun member mem => (hmembers member mem).keys
    · exact fun member mem => (hmembers member mem).anonymous

theorem idOf?_eq (h : (object members).Anonymous) (draft : Draft) : draft.idOf? members = none := by
  have hnone := (object_iff.mp h).2.1
  rw [Members.anonymous, Bool.and_eq_true, Option.isNone_iff_eq_none, Option.isNone_iff_eq_none] at hnone
  cases draft <;> simp only [Draft.idOf?, hnone.1, hnone.2]

end Anonymous

namespace Reordering

theorem member_text_eq (h : Reordering kept (.object members) (.object members'))
    (distinct : (members.map Prod.fst).Nodup) (key : String) :
    (members.get? key).bind asString? = (members'.get? key).bind asString? := by
  have hget := h.get?_relax distinct key
  generalize members.get? key = found, members'.get? key = found' at hget ⊢
  cases hget with
  | none => rfl
  | some hpart => exact hpart.asString?_eq

theorem anonymous_eq (h : Reordering kept (.object members) (.object members'))
    (distinct : (members.map Prod.fst).Nodup) : members.anonymous = members'.anonymous := by
  rw [Members.anonymous, Members.anonymous, h.member_text_eq distinct, h.member_text_eq distinct]

theorem anonymous (h : Reordering kept value value') (hvalue : value.Anonymous) : value'.Anonymous := by
  induction h with
  | same => exact hvalue
  | here h =>
    obtain ⟨distinct, hnone, hmembers⟩ := Anonymous.object_iff.mp hvalue
    refine Anonymous.object_iff.mpr ⟨(h.map Prod.fst).nodup_iff.mp distinct, ?_, fun member mem =>
      hmembers member (h.mem_iff.mpr mem)⟩
    rwa [← (Reordering.here h).anonymous_eq distinct]
  | @item _ before after part part' h ih =>
    rw [Anonymous.array_iff] at hvalue ⊢
    rw [List.forall_mem_append, List.forall_mem_cons] at hvalue ⊢
    exact ⟨hvalue.1, ih hvalue.2.1, hvalue.2.2⟩
  | @member _ before after key part part' h ih =>
    obtain ⟨distinct, hnone, hmembers⟩ := Anonymous.object_iff.mp hvalue
    rw [List.forall_mem_append, List.forall_mem_cons] at hmembers
    refine Anonymous.object_iff.mpr ⟨?_, ?_, ?_⟩
    · rw [List.map_append, List.map_cons] at distinct ⊢
      exact distinct
    · have hwhole : Reordering false (.object (before ++ (key, part) :: after))
          (.object (before ++ (key, part') :: after)) := .member h
      rwa [← hwhole.anonymous_eq distinct]
    · rw [List.forall_mem_append, List.forall_mem_cons]
      exact ⟨hmembers.1, ih hmembers.2.1, hmembers.2.2⟩

theorem getElem? {items' : List Json} (h : List.Forall₂ (Reordering false) items items')
    (position : Nat) : Option.Rel (Reordering false) items[position]? items'[position]? := by
  induction h generalizing position with
  | nil => exact .none
  | cons hitem _ ih =>
    cases position with
    | zero => exact .some hitem
    | succ position => exact ih position

theorem child? (h : Reordering false value value') (hvalue : value.Anonymous) (token : String) :
    Option.Rel (Reordering false) (value.child? token) (value'.child? token) := by
  cases value with
  | object members =>
    obtain ⟨_, members', rfl, -⟩ := h.object_inv
    exact h.get?_relax (Anonymous.object_iff.mp hvalue).1 token
  | array items =>
    obtain ⟨items', rfl, hitems⟩ := h.array_inv
    rw [Json.child?, Json.child?]
    cases Pointer.index? token with
    | none => exact .none
    | some position => exact getElem? hitems position
  | null | bool | number | string =>
    cases h
    exact .none

/-- A pointer leads to the same up to the order of keys, and to no identifier. -/
theorem at? (h : Reordering false value value') (hvalue : value.Anonymous) (pointer : Pointer) :
    Option.Rel (fun node node' => Reordering false node node' ∧ node.Anonymous) (value.at? pointer)
      (value'.at? pointer) := by
  induction pointer generalizing value value' with
  | nil => exact .some ⟨h, hvalue⟩
  | cons token rest ih =>
    have hchild := h.child? hvalue token
    rw [Json.at?, Json.at?]
    generalize hfound : value.child? token = found, value'.child? token = found' at hchild ⊢
    cases hchild with
    | none => exact .none
    | some hpart => exact ih hpart (hvalue.within (within_child? hfound))

theorem text_eq (h : Reordering false value value') (hvalue : value.Anonymous) (key : String) :
    (value.get? key).bind asString? = (value'.get? key).bind asString? := by
  rcases h.inv with rfl | ⟨items, items', rfl, rfl, -⟩ | ⟨members, members', rfl, rfl⟩
  · rfl
  · rfl
  · exact h.member_text_eq (Anonymous.object_iff.mp hvalue).1 key

theorem height_eq (h : Reordering kept value value') : value.height = value'.height := by
  induction h with
  | same => rfl
  | @here members members' h =>
    have hmembers : heightMembers members = heightMembers members' := by
      induction h with
      | nil => rfl
      | cons member _ ih => simp only [heightMembers, ih]
      | swap first second rest => exact Nat.max_left_comm ..
      | trans _ _ ih ih' => exact ih.trans ih'
    rw [height, height, hmembers]
  | @item _ before after part part' _ ih =>
    have hitems : heightItems (before ++ part :: after) = heightItems (before ++ part' :: after) := by
      induction before with
      | nil => simp only [List.nil_append, heightItems, ih]
      | cons first rest ih => simp only [List.cons_append, heightItems, ih]
    rw [height, height, hitems]
  | @member _ before after key part part' _ ih =>
    have hmembers : heightMembers (before ++ (key, part) :: after) =
        heightMembers (before ++ (key, part') :: after) := by
      induction before with
      | nil => simp only [List.nil_append, heightMembers, ih]
      | cons first rest ih => simp only [List.cons_append, heightMembers, ih]
    rw [height, height, hmembers]

end Reordering

theorem Reordered.anonymous (h : Reordered value value') (hvalue : value.Anonymous) :
    value'.Anonymous := by
  induction h with
  | refl => exact hvalue
  | tail _ hlast ih => exact hlast.anonymous ih

end Json

end SchemaShape
