import SchemaShape.Proofs.Compiler.Success

/-! # The keywords that count

What a node is compiled to depends on the keywords that the rules read, and on its place. Nodes that
agree in these keywords cannot be told apart.
-/

namespace SchemaShape
set_option autoImplicit false

open Correspondence Compile

theorem Draft.idOf?_set {draft : Draft} {schema : Members} {keyword : String} (value : Json)
    (hkeyword : keyword ≠ "$id") (hkeyword' : keyword ≠ "id") :
    draft.idOf? (schema.set keyword value) = draft.idOf? schema := by
  simp only [Draft.idOf?, Members.get?_set_ne _ _ hkeyword.symm, Members.get?_set_ne _ _ hkeyword'.symm]

namespace Node

/-! ## The keywords that count -/

/-- The keywords that the rules of a node read. -/
def ruleKeywords : List String :=
  ["type", "enum", "$ref", "allOf", "anyOf", "oneOf", "default", "properties", "required", "items",
    "minItems", "maxItems"]

/-- Those of them that say more about a type. -/
def typedKeywords : List String := ["properties", "required", "items", "minItems", "maxItems"]

section

variable {schema schema' : Members}

theorem object_congr (hproperties : schema.get? "properties" = schema'.get? "properties")
    (hrequired : schema.get? "required" = schema'.get? "required") (inner : Inner) (outer : Bool) :
    object inner schema outer = object inner schema' outer := by
  simp only [object, requiredNames, hproperties, hrequired]

theorem array_congr (h : ∀ key ∈ ["items", "minItems", "maxItems"], schema.get? key = schema'.get? key)
    (inner : Inner) : array inner schema = array inner schema' := by
  have hitems := h "items" (by decide)
  have hmin := h "minItems" (by decide)
  have hmax := h "maxItems" (by decide)
  have hlength : ∀ length, fixedLength schema "minItems" length = fixedLength schema' "minItems" length ∧
      fixedLength schema "maxItems" length = fixedLength schema' "maxItems" length := by
    intro length
    simp only [fixedLength, hmin, hmax, and_self]
  simp only [array, hitems, hlength]

theorem boolean_congr (hproperties : schema.get? "properties" = schema'.get? "properties") :
    boolean schema = boolean schema' := by
  simp only [boolean, hproperties]

theorem typed_congr (h : ∀ key ∈ typedKeywords, schema.get? key = schema'.get? key) (inner : Inner)
    (type : TypeName) (outer : Bool) :
    typed inner type schema outer = typed inner type schema' outer := by
  have hproperties := h "properties" (by decide)
  cases type with
  | object => exact object_congr hproperties (h "required" (by decide)) inner outer
  | array =>
    have hitems : ∀ key ∈ ["items", "minItems", "maxItems"], schema.get? key = schema'.get? key :=
      fun key mem => h key (List.mem_cons_of_mem _ (List.mem_cons_of_mem _ mem))
    exact array_congr hitems inner
  | boolean => exact boolean_congr hproperties
  | string | number | integer | null | any => rfl

theorem named_congr (h : ∀ key ∈ ruleKeywords, schema.get? key = schema'.get? key) (inner : Inner)
    (type : String) (outer : Bool) :
    named inner type schema outer = named inner type schema' outer := by
  have henum := h "enum" (by decide)
  have hsubset : ∀ key ∈ typedKeywords, key ∈ ruleKeywords := by decide
  have htyped := typed_congr fun key mem => h key (hsubset key mem)
  simp only [named, henum, htyped]

theorem eachName_congr {inner : Inner} {outer : Bool}
    (h : ∀ type, named inner type schema outer = named inner type schema' outer) (types : List String) :
    eachName inner schema outer types = eachName inner schema' outer types := by
  induction types with
  | nil => rfl
  | cons type rest ih => simp only [eachName, ih, h]

/-- Schemas that agree in these keywords are compiled alike. -/
theorem members_congr (h : ∀ key ∈ ruleKeywords, schema.get? key = schema'.get? key)
    (follow : Follow) (inner : Inner) (outer : Bool) :
    members follow inner schema outer = members follow inner schema' outer := by
  have htype := h "type" (by decide)
  have href := h "$ref" (by decide)
  have hall := h "allOf" (by decide)
  have hany := h "anyOf" (by decide)
  have hone := h "oneOf" (by decide)
  have henum := h "enum" (by decide)
  have hdefault := h "default" (by decide)
  have huntyped : untyped follow inner schema outer = untyped follow inner schema' outer := by
    simp only [untyped, href, hall, hany, hone, henum, Members.contains_eq, hdefault]
  have hnamed (type : String) : named inner type schema outer = named inner type schema' outer :=
    named_congr h inner type outer
  simp only [members, listed, htype, huntyped, hnamed, eachName_congr hnamed]

theorem shape_congr (hid : ∀ draft : Draft, draft.idOf? schema = draft.idOf? schema')
    (h : ∀ key ∈ ruleKeywords, schema.get? key = schema'.get? key)
    (follow : Follow) (inner : Inner) (outer : Bool) :
    shape follow inner (.object schema) outer = shape follow inner (.object schema') outer := by
  simp only [shape, hid, members_congr h]

end

end Node

namespace Compile

theorem upTo_of_height {depth height : Nat} {schema : Json} (h : schema.height ≤ height)
    (outer : Bool) : upTo depth schema outer = nested (followUpTo depth) height schema outer := by
  rw [upTo_eq]
  funext c
  have hmatches : same.Matches same.shapes (nested (followUpTo depth) schema.height schema outer)
      (nested (followUpTo depth) height schema outer) c c :=
    same_lawful.nested _ _ (Nat.le_refl _) h trivial (fun _ _ => rfl) rfl
      (same_lawful.references (.inl rfl)) rfl
  obtain ⟨result, added, hgives, hgives'⟩ := identical_ends hmatches
  exact hgives.run.trans hgives'.run.symm

/-- Nodes that agree in their identifiers and in the keywords that count cannot be told apart. -/
theorem interchangeable_of_keywords {schema schema' : Members}
    (hid : ∀ draft : Draft, draft.idOf? schema = draft.idOf? schema')
    (h : ∀ key ∈ Node.ruleKeywords, schema.get? key = schema'.get? key) :
    Interchangeable (.object schema) (.object schema') := by
  intro depth outer
  have hheight : (Json.object schema).height ≤
      max (Json.heightMembers schema) (Json.heightMembers schema') + 1 :=
    Nat.succ_le_succ (Nat.le_max_left ..)
  have hheight' : (Json.object schema').height ≤
      max (Json.heightMembers schema) (Json.heightMembers schema') + 1 :=
    Nat.succ_le_succ (Nat.le_max_right ..)
  rw [upTo_of_height hheight, upTo_of_height hheight']
  exact Node.shape_congr hid h _ _ outer

end Compile

end SchemaShape
