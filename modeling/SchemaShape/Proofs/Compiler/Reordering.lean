import SchemaShape.Proofs.Compiler.Root
import SchemaShape.Proofs.Json.Reordering

/-! # Nodes with their keys in another order

A rule looks the keywords of a node up, and it goes through the properties one by one. So it does not
matter in which order the keys are, those of `properties` apart.

Where a node and another one differ in the order of keys, at most one member is another one. If it is a
keyword by which a rule is chosen, the rules do the same on both sides. If it is none, the same rule is
chosen, and its keyword leads to corresponding ends if the schemas inside do. A bound that does not fit
a tuple is quoted with its keys in their order, so failures agree in their kinds and no further.
-/

namespace SchemaShape
set_option autoImplicit false

open Correspondence Compile

namespace Node

variable {kept : Bool} {value value' : Json} {values values' : List Json} {schema schema' : Members}

/-! ## Values -/

theorem literal_reordering (h : Json.Reordering kept value value') :
    literal value = literal value' := by
  cases h with
  | same => rfl
  | here | item | member => rfl

theorem eachItem_congr {α : Type} {action : Json → Compile α} (keyword : String) (position : Nat)
    (h : List.Forall₂ (fun value value' => action value = action value') values values') :
    eachItem keyword action position values = eachItem keyword action position values' := by
  induction h generalizing position with
  | nil => rfl
  | cons hfirst _ ih => simp only [eachItem, hfirst, ih]

theorem enumeration_reordering (h : Json.Reordering kept value value') :
    enumeration value = enumeration value' := by
  rcases h.inv with rfl | ⟨values, values', rfl, rfl, hvalues⟩ | ⟨members, members', rfl, rfl⟩
  · rfl
  · have hliterals := hvalues.imp fun _ _ => literal_reordering
    simp only [enumeration, eachItem_congr "enum" 0 hliterals]
  · rfl

theorem requiredNames_reordering (h : Json.Reordering kept (.object schema) (.object schema'))
    (distinct : (schema.map Prod.fst).Nodup) : requiredNames schema = requiredNames schema' := by
  have hnames {names names' : List Json} (h : List.Forall₂ (Json.Reordering false) names names') :
      names.filterMap Json.asString? = names'.filterMap Json.asString? := by
    induction h with
    | nil => rfl
    | cons hname _ ih => rw [List.filterMap_cons, List.filterMap_cons, hname.asString?_eq, ih]
  have hget := h.get?_relax distinct "required"
  rw [requiredNames, requiredNames]
  generalize schema.get? "required" = found, schema'.get? "required" = found' at hget ⊢
  cases hget with
  | none => rfl
  | some hrel =>
    rcases hrel.inv with rfl | ⟨names, names', rfl, rfl, hitems⟩ | ⟨members, members', rfl, rfl⟩
    · rfl
    · exact hnames hitems
    · rfl

theorem boolean_reordering (h : Json.Reordering kept (.object schema) (.object schema'))
    (distinct : (schema.map Prod.fst).Nodup) : boolean schema = boolean schema' := by
  have hget := h.get? distinct "properties"
  rw [beq_self_eq_true] at hget
  rw [boolean, boolean]
  generalize schema.get? "properties" = found, schema'.get? "properties" = found' at hget ⊢
  cases hget with
  | none => rfl
  | some hrel =>
    rcases hrel.inv with rfl | ⟨items, items', rfl, rfl, -⟩ | ⟨properties, properties', rfl, rfl⟩
    · rfl
    · rfl
    · obtain ⟨aligned, _, heq, haligned, -, hkept⟩ := hrel.object_inv
      cases heq
      obtain rfl := hkept rfl
      have hdefault := haligned.get? "default"
      have hconst := haligned.get? "const"
      simp only [Members.contains_eq]
      generalize Members.get? properties "default" = default, aligned.get? "default" = default'
        at hdefault ⊢
      generalize Members.get? properties "const" = const, aligned.get? "const" = const' at hconst ⊢
      cases hdefault <;> cases hconst with
      | none => rfl
      | some hvalue => simp only [literal_reordering hvalue, Option.isSome_some]

/-! ## The choice of a rule -/

/-- The values of the keywords by which a rule is chosen are data: in whatever order their keys are, the
node is compiled alike. -/
theorem members_reordering (hchoosing : ∀ key ∈ choosingKeywords,
      Option.Rel (Json.Reordering false) (schema.get? key) (schema'.get? key))
    (hothers : ∀ key ∉ choosingKeywords, schema.get? key = schema'.get? key)
    (follow : Follow) (inner : Inner) (outer : Bool) :
    members follow inner schema outer = members follow inner schema' outer := by
  have htype := hchoosing "type" (by decide)
  have henum := hchoosing "enum" (by decide)
  have href := hchoosing "$ref" (by decide)
  have hdefault := hchoosing "default" (by decide)
  have hapart : ∀ key ∈ typedKeywords, key ∉ choosingKeywords := by decide
  have htyped := typed_congr (fun key mem => hothers key (hapart key mem)) inner
  have hnamed (type : String) : named inner type schema outer = named inner type schema' outer := by
    simp only [named, htyped]
    generalize schema.get? "enum" = values, schema'.get? "enum" = values' at henum ⊢
    cases henum with
    | none => rfl
    | some hvalues => exact enumeration_reordering hvalues
  have huntyped : untyped follow inner schema outer = untyped follow inner schema' outer := by
    simp only [untyped, hothers "allOf" (by decide), hothers "anyOf" (by decide),
      hothers "oneOf" (by decide), Members.contains_eq]
    generalize schema.get? "$ref" = target, schema'.get? "$ref" = target' at href ⊢
    generalize schema.get? "enum" = values, schema'.get? "enum" = values' at henum ⊢
    generalize schema.get? "default" = default, schema'.get? "default" = default' at hdefault ⊢
    cases href with
    | @some target target' hrel =>
      rcases hrel.inv with rfl | ⟨items, items', rfl, rfl, -⟩ | ⟨members, members', rfl, rfl⟩
      · cases target <;> rfl
      · rfl
      · rfl
    | none =>
      cases schema'.get? "allOf" with
      | some => rfl
      | none =>
        cases schema'.get? "anyOf" with
        | some => rfl
        | none =>
          cases schema'.get? "oneOf" with
          | some => rfl
          | none =>
            cases henum with
            | some hvalues => exact enumeration_reordering hvalues
            | none => cases hdefault <;> rfl
  have hnames {names names' : List Json} (h : List.Forall₂ (Json.Reordering false) names names') :
      names.mapM Json.asString? = names'.mapM Json.asString? := by
    induction h with
    | nil => rfl
    | cons hname _ ih => rw [List.mapM_cons, List.mapM_cons, hname.asString?_eq, ih]
  simp only [members, listed, huntyped, hnamed, eachName_congr hnamed]
  generalize schema.get? "type" = type, schema'.get? "type" = type' at htype ⊢
  cases htype with
  | none => rfl
  | some hrel =>
    rcases hrel.inv with rfl | ⟨names, names', rfl, rfl, hitems⟩ | ⟨members, members', rfl, rfl⟩
    · rfl
    · simp only [hnames hitems]
    · rfl

end Node

/-! ## Corresponding ends -/

namespace Correspondence

/-- Both sides give and report the same, or fail alike but for what they say. -/
def sameKind (states : Compiler → Compiler → Prop) : Correspondence where
  admits := fun _ => True
  states := states
  shapes := Eq
  flags := Eq
  entries := Eq
  failures := fun failure failure' => failure.kind = failure'.kind

section

variable {states : Compiler → Compiler → Prop} (laws : (sameKind states).Rules) {kept : Bool}
variable {schema schema' : Members} {inner inner' : Node.Inner} {follow follow' : Node.Follow}
variable {outer : Bool} {c c' : Compiler}

/-- The schemas inside one come to corresponding ends in whatever order their keys are. -/
def ReorderedInners (states : Compiler → Compiler → Prop) (schema : Members)
    (inner inner' : Node.Inner) : Prop :=
  ∀ part part', Node.Subschema schema part → Json.Reordering false part part' →
    (sameKind states).Parts inner inner' part part'

theorem forall₂_of_mem {α β : Type} {R S : α → β → Prop} {xs : List α} {ys : List β}
    (h : List.Forall₂ R xs ys) (himp : ∀ x ∈ xs, ∀ y, R x y → S x y) : List.Forall₂ S xs ys :=
  ((List.forall₂_and_left xs ys).mpr ⟨himp, h⟩).imp fun _ _ hxy => hxy.1 _ hxy.2

variable (h : Json.Reordering kept (.object schema) (.object schema'))
variable (distinct : (schema.map Prod.fst).Nodup)

include laws h distinct

theorem object_reordering (hinners : ReorderedInners states schema inner inner') (hc : states c c') :
    (sameKind states).Matches Eq (Node.object inner schema outer) (Node.object inner' schema' outer)
      c c' := by
  have hget := h.get? distinct "properties"
  rw [beq_self_eq_true] at hget
  generalize hfound : schema.get? "properties" = found, hfound' : schema'.get? "properties" = found'
    at hget
  cases hget with
  | none =>
    simp only [Node.object, hfound, hfound']
    exact matches_pure rfl
  | @some properties properties' hrel =>
    cases properties with
    | object properties =>
      obtain ⟨aligned, properties', rfl, haligned, -, hkept⟩ := hrel.object_inv
      obtain rfl := hkept rfl
      refine laws.properties hfound hfound' (Node.requiredNames_reordering h distinct) ?_ rfl hc
      exact forall₂_of_mem haligned fun member mem member' hmember =>
        ⟨hmember.1, fun _ => hinners _ _ (.property hfound mem) hmember.2.relax⟩
    | array items =>
      obtain ⟨items', rfl, -⟩ := hrel.array_inv
      simp only [Node.object, hfound, hfound']
      exact laws.matches_malformed hc _
    | null | bool | number | string =>
      cases hrel
      simp only [Node.object, hfound, hfound']
      exact laws.matches_malformed hc _

/-- A bound that does not fit is quoted, and then the failures say different things. -/
theorem fixedLength_reordering (keyword : String) (length : Nat) (hc : states c c') :
    (sameKind states).Matches Eq (Node.fixedLength schema keyword length)
      (Node.fixedLength schema' keyword length) c c' := by
  have hget := h.get?_relax distinct keyword
  generalize hfound : schema.get? keyword = found, hfound' : schema'.get? keyword = found' at hget
  cases hget with
  | none =>
    simp only [Node.fixedLength, hfound, hfound']
    exact matches_pure rfl
  | @some bound bound' hrel =>
    cases hrel with
    | same =>
      have hsame : Node.fixedLength schema' keyword length =
          Node.fixedLength schema keyword length := by
        simp only [Node.fixedLength, hfound, hfound']
      rw [hsame]
      exact laws.fixedLength keyword length hc
    | here | item | member =>
      simp only [Node.fixedLength, hfound, hfound', Bool.false_eq_true, if_false]
      exact matches_ends (gives_unsupported _ c) (gives_unsupported _ c') (.failure rfl) .nil

theorem array_reordering (hinners : ReorderedInners states schema inner inner') (hc : states c c') :
    (sameKind states).Matches Eq (Node.array inner schema) (Node.array inner' schema') c c' := by
  have hget := h.get?_relax distinct "items"
  generalize hfound : schema.get? "items" = found, hfound' : schema'.get? "items" = found' at hget
  cases hget with
  | none =>
    simp only [Node.array, hfound, hfound']
    exact matches_pure rfl
  | @some item item' hrel =>
    have hitem := hinners item item' (.items hfound) hrel
    cases item with
    | array items =>
      obtain ⟨items', rfl, hitems⟩ := hrel.array_inv
      refine laws.positions_of_bounds hfound hfound' (fun keyword _ => ?_) ?_ hc
      · rw [← hitems.length_eq]
        exact fixedLength_reordering laws h distinct keyword _ hc
      · exact forall₂_of_mem hitems fun part mem part' hpart => hinners _ _ (.position hfound mem) hpart
    | object members =>
      obtain ⟨_, members', rfl, -⟩ := hrel.object_inv
      simp only [Node.array, hfound, hfound']
      exact laws.listOf hitem hc
    | bool admitted =>
      cases hrel
      simp only [Node.array, hfound, hfound']
      cases admitted with
      | true => exact matches_pure rfl
      | false => exact laws.matches_unsupported hc _
    | null | number | string =>
      cases hrel
      simp only [Node.array, hfound, hfound']
      exact laws.listOf hitem hc

theorem alike_reordering (hinners : ReorderedInners states schema inner inner')
    (hchoosing : ∀ key ∈ Node.choosingKeywords, schema.get? key = schema'.get? key) :
    (sameKind states).Alike schema schema' inner inner' where
  choosing := hchoosing
  branches := by
    intro keyword hkeyword
    have hget := h.get?_relax distinct keyword
    generalize hfound : schema.get? keyword = found, schema'.get? keyword = found' at hget ⊢
    cases hget with
    | none => exact .none
    | @some branches branches' hrel =>
      refine .some fun c c' hc => ?_
      cases branches with
      | array branches =>
        obtain ⟨branches', rfl, hbranches⟩ := hrel.array_inv
        exact laws.branches keyword (forall₂_of_mem hbranches fun branch mem branch' hbranch =>
          hinners _ _ (.branch hkeyword hfound mem) hbranch) hc
      | object members =>
        obtain ⟨_, members', rfl, -⟩ := hrel.object_inv
        exact laws.matches_malformed hc _
      | null | bool | number | string =>
        cases hrel
        exact laws.matches_malformed hc _
  typed := by
    rintro type outer _ c c' rfl hc
    refine laws.typed_of type (object_reordering laws h distinct hinners hc)
      (array_reordering laws h distinct hinners hc) ?_ hc
    rw [← Node.boolean_reordering h distinct]
    exact laws.boolean hc

theorem members_reordering (hinners : ReorderedInners states schema inner inner')
    (hroot : SameRoot c c' outer outer) (hfollow : (sameKind states).References follow follow')
    (hc : states c c') :
    (sameKind states).Matches Eq (Node.members follow inner schema outer)
      (Node.members follow' inner' schema' outer) c c' := by
  rcases h.get?_or distinct Node.choosingKeywords with hchoosing | hothers
  · exact laws.members (alike_reordering laws h distinct hinners hchoosing) trivial (fun _ _ => hroot)
      rfl hfollow hc
  · have hchoosing := fun key (_ : key ∈ Node.choosingKeywords) => h.get?_relax distinct key
    rw [← Node.members_reordering hchoosing hothers]
    have hsame : (sameKind states).Inners schema inner inner' :=
      fun part hpart => hinners part part hpart (.same _ _)
    exact laws.members (laws.alike hsame) trivial (fun _ _ => hroot) rfl hfollow hc

omit h distinct

theorem nested_reordering {value value' : Json} (height : Nat)
    (h : Json.Reordering false value value') (hvalue : value.Anonymous)
    (hheight : value.height ≤ height) (hroot : SameRoot c c' outer outer)
    (hfollow : (sameKind states).References follow follow')
    (hc : states c c') :
    (sameKind states).Matches Eq (nested follow height value outer)
      (nested follow' height value' outer) c c' := by
  induction height generalizing value value' c c' outer with
  | zero => exact absurd hheight (Nat.not_le.mpr value.height_pos)
  | succ height ih =>
    cases value with
    | object schema =>
      obtain ⟨_, schema', rfl, -⟩ := h.object_inv
      have hnone := hvalue.idOf?_eq
      have hnone' := (h.anonymous hvalue).idOf?_eq
      -- No identifier is entered, and the schemas inside nest less deep.
      have hinners : ReorderedInners states schema (fun part => nested follow height part false)
          (fun part => nested follow' height part false) := by
        intro part part' hpart hrel d d' hd
        have hlt := hpart.height_lt
        exact ih hrel (hvalue.within hpart.within) (by omega) rfl hd
      simp only [nested, Node.shape]
      refine matches_inspect (fun _ => rfl) (fun _ => rfl) ?_
      rw [hnone, hnone']
      exact members_reordering laws h (Json.Anonymous.object_iff.mp hvalue).1 hinners hroot hfollow hc
    | array items =>
      obtain ⟨items', rfl, -⟩ := h.array_inv
      exact laws.matches_malformed hc _
    | bool admitted =>
      cases h
      cases admitted with
      | true => exact matches_pure rfl
      | false => exact laws.matches_unsupported hc _
    | null | number | string =>
      cases h
      exact laws.matches_malformed hc _

theorem upTo_reordering {depth : Nat} {value value' : Json} (h : Json.Reordering false value value')
    (hvalue : value.Anonymous) (hroot : SameRoot c c' outer outer)
    (hfollow : (sameKind states).References (followUpTo depth) (followUpTo depth)) (hc : states c c') :
    (sameKind states).Matches Eq (upTo depth value outer) (upTo depth value' outer) c c' := by
  rw [upTo_eq, schema, schema, ← h.height_eq]
  exact nested_reordering laws _ h hvalue (Nat.le_refl _) hroot hfollow hc

end

end Correspondence

end SchemaShape
