import SchemaShape.Proofs.Compiler.Root

/-! # Replacing one schema inside another

Two nodes of which one has another schema inside it are compiled alike under a correspondence, if that
one is: the keyword that it stands under leads to corresponding ends, and no rule reads that keyword for
anything else.
-/

namespace SchemaShape
set_option autoImplicit false

open Correspondence

/-! ## Members and lists -/

theorem forall₂_replaced {α : Type} {R : α → α → Prop} {before after : List α} {part part' : α}
    (hrefl : ∀ x ∈ before ++ part :: after, R x x) (h : R part part') :
    List.Forall₂ R (before ++ part :: after) (before ++ part' :: after) := by
  refine List.rel_append (List.forall₂_same.mpr fun x mem => ?_)
    (.cons h (List.forall₂_same.mpr fun x mem => ?_))
  · exact hrefl x (List.mem_append_left _ mem)
  · exact hrefl x (List.mem_append_right _ (List.mem_cons_of_mem _ mem))

theorem Members.forall₂_set {R : String × Json → String × Json → Prop} {members : Members}
    {key : String} {part part' : Json} (hget : members.get? key = some part)
    (hrefl : ∀ member ∈ members, R member member) (h : R (key, part) (key, part')) :
    List.Forall₂ R members (members.set key part') := by
  induction members with
  | nil => cases hget
  | cons member rest ih =>
    obtain ⟨other, value⟩ := member
    have hrest : ∀ member ∈ rest, R member member :=
      fun member mem => hrefl member (List.mem_cons_of_mem _ mem)
    rw [get?_cons] at hget
    rw [set]
    by_cases heq : other = key
    · rw [if_pos heq]
      rw [if_pos heq.symm] at hget
      cases hget
      rw [heq]
      exact .cons h (List.forall₂_same.mpr hrest)
    · rw [if_neg heq]
      rw [if_neg fun heq' => heq heq'.symm] at hget
      exact .cons (hrefl _ (List.mem_cons_self ..)) (ih hget hrest)

/-! ## Keywords with one schema replaced -/

namespace Correspondence.Rules

variable {K : Correspondence} (laws : K.Rules) {schema : Members} {inner inner' : Node.Inner}
variable (hinner : K.Inners schema inner inner') {part part' : Json}

include laws hinner

theorem branches_set {keyword other : String} {value : Json} (hother : other ∈ Node.branchKeywords)
    (hne : other ≠ keyword) : Option.Rel
      (fun branches branches' => ∀ c c', K.states c c' → K.Matches K.shapes
        (Node.anyOf inner other branches) (Node.anyOf inner' other branches') c c')
      (schema.get? other) ((schema.set keyword value).get? other) := by
  rw [Members.get?_set_ne _ _ hne]
  exact (laws.alike hinner).branches other hother

theorem alike_branch {keyword : String} {before after : List Json}
    (hkeyword : keyword ∈ Node.branchKeywords)
    (hget : schema.get? keyword = some (.array (before ++ part :: after)))
    (hpart : K.Parts inner inner' part part') :
    K.Alike schema (schema.set keyword (.array (before ++ part' :: after))) inner inner' := by
  have hapart : ∀ keyword ∈ Node.branchKeywords,
      keyword ∉ Node.choosingKeywords ∧ keyword ∉ Node.typedKeywords := by decide
  have hne : ∀ key ∈ Node.choosingKeywords ++ Node.typedKeywords, key ≠ keyword := by
    rintro key hkey rfl
    rcases List.mem_append.mp hkey with hmem | hmem
    · exact (hapart key hkeyword).1 hmem
    · exact (hapart key hkeyword).2 hmem
  refine ⟨fun key hkey => ?_, fun other hother => ?_, fun type outer outer' c c' hflags h => ?_⟩
  · exact (Members.get?_set_ne _ _ (hne key (List.mem_append_left _ hkey))).symm
  · by_cases heq : other = keyword
    · subst heq
      rw [Members.get?_set_self, hget]
      refine .some fun c c' h => laws.branches other (forall₂_replaced (fun branch mem => ?_) hpart) h
      exact hinner branch (.branch hother hget mem)
    · exact laws.branches_set hinner hother heq
  · rw [Node.typed_congr fun key hkey =>
      Members.get?_set_ne schema _ (hne key (List.mem_append_right _ hkey))]
    exact (laws.alike hinner).typed type outer outer' c c' hflags h

/-- What is left to say where the value of a keyword is replaced that only typed nodes read. -/
theorem alike_typed {keyword : String} {value : Json} (hkeyword : keyword ∈ Node.typedKeywords)
    (htyped : ∀ type outer outer' c c', K.flags outer outer' → K.states c c' →
      K.Matches K.shapes (Node.typed inner type schema outer)
        (Node.typed inner' type (schema.set keyword value) outer') c c') :
    K.Alike schema (schema.set keyword value) inner inner' := by
  have hapart : ∀ keyword ∈ Node.typedKeywords,
      keyword ∉ Node.choosingKeywords ∧ keyword ∉ Node.branchKeywords := by decide
  refine ⟨fun key hkey => ?_, fun other hother => ?_, htyped⟩
  · refine (Members.get?_set_ne _ _ ?_).symm
    rintro rfl
    exact (hapart key hkeyword).1 hkey
  · refine laws.branches_set hinner hother ?_
    rintro rfl
    exact (hapart other hkeyword).2 hother

theorem alike_property {properties : Members} {key : String} (hkey : key ∉ Node.reservedNames)
    (hget : schema.get? "properties" = some (.object properties))
    (hfind : Members.get? properties key = some part) (hpart : K.Parts inner inner' part part') :
    K.Alike schema (schema.set "properties" (.object (Members.set key part' properties))) inner
      inner' := by
  refine laws.alike_typed hinner (by decide) fun type outer outer' c c' hflags h => ?_
  have hget' := Members.get?_set_self schema "properties" (.object (Members.set key part' properties))
  have hothers : ∀ other ∈ ["required", "items", "minItems", "maxItems"],
      (schema.set "properties" (.object (Members.set key part' properties))).get? other =
        schema.get? other := by
    intro other hother
    refine Members.get?_set_ne _ _ ?_
    rintro rfl
    exact absurd hother (by decide)
  refine laws.typed_of type ?_ ?_ ?_ h
  · have hrequired : Node.requiredNames schema = Node.requiredNames
        (schema.set "properties" (.object (Members.set key part' properties))) := by
      simp only [Node.requiredNames, hothers "required" (by decide)]
    refine laws.properties hget hget' hrequired ?_ hflags h
    exact Members.forall₂_set hfind
      (fun member mem => ⟨rfl, fun _ => hinner member.2 (.property hget mem)⟩) ⟨rfl, fun _ => hpart⟩
  · rw [Node.array_congr fun other hother => hothers other (List.mem_cons_of_mem _ hother)]
    exact laws.array hinner h
  · -- The markers that a boolean looks for are not replaced.
    have hmarkers : ∀ marker ∈ Node.reservedNames,
        Members.get? (Members.set key part' properties) marker =
          Members.get? properties marker := by
      intro marker hmarker
      refine Members.get?_set_ne _ _ ?_
      rintro rfl
      exact hkey hmarker
    have hsame : Node.boolean (schema.set "properties" (.object (Members.set key part' properties))) =
        Node.boolean schema := by
      simp only [Node.boolean, hget, hget', Members.contains_eq, hmarkers "default" (by decide),
        hmarkers "const" (by decide)]
    rw [hsame]
    exact laws.boolean h

theorem typed_items {value : Json} (type : TypeName) {outer outer' : Bool} {c c' : Compiler}
    (hflags : K.flags outer outer') (h : K.states c c')
    (harray : K.Matches K.shapes (Node.array inner schema)
      (Node.array inner' (schema.set "items" value)) c c') :
    K.Matches K.shapes (Node.typed inner type schema outer)
      (Node.typed inner' type (schema.set "items" value) outer') c c' := by
  have hothers : ∀ other, other ≠ "items" → (schema.set "items" value).get? other =
      schema.get? other := fun other hne => Members.get?_set_ne _ _ hne
  refine laws.typed_of type ?_ harray ?_ h
  · rw [Node.object_congr (hothers "properties" (by decide)) (hothers "required" (by decide))]
    exact laws.object hflags hinner h
  · rw [Node.boolean_congr (hothers "properties" (by decide))]
    exact laws.boolean h

theorem alike_position {before after : List Json}
    (hget : schema.get? "items" = some (.array (before ++ part :: after)))
    (hpart : K.Parts inner inner' part part') :
    K.Alike schema (schema.set "items" (.array (before ++ part' :: after))) inner inner' := by
  refine laws.alike_typed hinner (by decide) fun type outer outer' c c' hflags h => ?_
  refine laws.typed_items hinner type hflags h ?_
  refine laws.positions hget (Members.get?_set_self ..) (fun keyword mem => ?_)
    (forall₂_replaced (fun item mem => hinner item (.position hget mem)) hpart) h
  refine (Members.get?_set_ne _ _ ?_).symm
  rintro rfl
  exact absurd mem (by decide)

end Correspondence.Rules

end SchemaShape
