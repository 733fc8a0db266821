import SchemaShape.Draft
import SchemaShape.Proofs.Decimal.Rational
import SchemaShape.Proofs.Json.Parts
import SchemaShape.Shape.Basic

/-! # What schemas and shapes mean

Which values are valid for a schema, and which ones inhabit a shape. Validity goes by a choice of
keywords, the reading; every other keyword constrains nothing, and neither does a keyword whose value
is of the wrong kind.
-/

namespace SchemaShape
set_option autoImplicit false

/-! ## Types and equality -/

/-- A number without a fraction; draft-04 also wants it written as an integer. -/
def Number.IsInteger (draft : Draft) : Number → Prop
  | integer _ => True
  | double value => draft ≠ .draft04 ∧ ∃ whole : Int, value.toRat = whole

def TypeName.Admits (draft : Draft) : TypeName → Json → Prop
  | any, _ => True
  | object, .object _ => True
  | array, .array _ => True
  | string, .string _ => True
  | number, .number _ => True
  | integer, .number value => value.IsInteger draft
  | boolean, .bool _ => True
  | null, .null => True
  | _, _ => False

/-- A name that is not known admits every value. -/
def nameAdmits (draft : Draft) (name : String) (value : Json) : Prop :=
  ∀ type, TypeName.ofString? name = some type → type.Admits draft value

/-- What the value of `type` says: a name, or a list of which one name admits the value. -/
def typeAdmits (draft : Draft) (type value : Json) : Prop :=
  match type with
  | .string name => nameAdmits draft name value
  | .array types =>
    ∀ names, types.mapM Json.asString? = some names → ∃ name ∈ names, nameAdmits draft name value
  | _ => True

/-- Equality of values. The order of members does not count, nor does the sign of a zero. -/
inductive Json.Equal : Json → Json → Prop where
  | null : Equal null null
  | bool (value : Bool) : Equal (bool value) (bool value)
  | integer (value : Int) : Equal (number (.integer value)) (number (.integer value))
  | double {a b : Binary64} (h : a.sameNumber b = true) :
      Equal (number (.double a)) (number (.double b))
  | string (value : String) : Equal (string value) (string value)
  | array {items items' : List Json} (h : List.Forall₂ Equal items items') :
      Equal (array items) (array items')
  | object {members members' : Members}
      (keys : ∀ key, (Members.get? members key).isSome = (Members.get? members' key).isSome)
      (values : ∀ key value value', Members.get? members key = some value →
        Members.get? members' key = some value' → Equal value value') :
      Equal (object members) (object members')

/-! ## Validity -/

/-- What a reading of schemas may take into account. -/
inductive Keyword where
  | type
  | enum
  | properties
  | required
  /-- One schema for all items. -/
  | items
  /-- A list of schemas, for the items in order. -/
  | itemList
  /-- `minItems` and `maxItems`. -/
  | bounds
  | anyOf
  | oneOf
  | allOf
  deriving DecidableEq, Repr

def Keyword.all : List Keyword :=
  [type, enum, properties, required, items, itemList, bounds, anyOf, oneOf, allOf]

namespace Json

def Valid (reading : List Keyword) (draft : Draft) (schema value : Json) : Prop :=
  match schema with
  | bool admitted => admitted = true
  | object members =>
    (.type ∈ reading → ∀ type, ("type", type) ∈ members → typeAdmits draft type value) ∧
    (.enum ∈ reading → ∀ values, ("enum", array values) ∈ members →
      ∃ allowed ∈ values, allowed.Equal value) ∧
    (.properties ∈ reading → ∀ properties, ("properties", object properties) ∈ members →
      ∀ key part, (key, part) ∈ properties → ∀ inner, value.get? key = some inner →
        Valid reading draft part inner) ∧
    (.required ∈ reading → ∀ names, ("required", array names) ∈ members →
      ∀ name, string name ∈ names → ∀ own, value = object own →
        (Members.get? own name).isSome) ∧
    (.items ∈ reading → ∀ item, ("items", item) ∈ members → ∀ values, value = array values →
      ∀ inner ∈ values, (∀ items, item ≠ array items) → Valid reading draft item inner) ∧
    (.itemList ∈ reading → ∀ items, ("items", array items) ∈ members →
      ∀ values, value = array values → ∀ position, ∀ h : position < items.length,
        ∀ inner, values[position]? = some inner → Valid reading draft items[position] inner) ∧
    (.bounds ∈ reading → ∀ values, value = array values →
      (∀ bound, ("minItems", number bound) ∈ members → bound.toRat ≤ values.length) ∧
      (∀ bound, ("maxItems", number bound) ∈ members → values.length ≤ bound.toRat)) ∧
    (.anyOf ∈ reading → ∀ branches, ("anyOf", array branches) ∈ members →
      ∃ branch, ∃ _ : branch ∈ branches, Valid reading draft branch value) ∧
    (.oneOf ∈ reading → ∀ branches, ("oneOf", array branches) ∈ members →
      ∃ position, ∃ h : position < branches.length,
        Valid reading draft branches[position] value ∧
        ∀ other, ∀ h : other < branches.length,
          Valid reading draft branches[other] value → other = position) ∧
    (.allOf ∈ reading → ∀ branches, ("allOf", array branches) ∈ members →
      ∀ branch ∈ branches, Valid reading draft branch value)
  | _ => True
termination_by schema.height
decreasing_by
  · exact height_memberOf ‹_› ‹_›
  · exact height_member ‹_›
  · exact height_itemOf ‹_› (List.getElem_mem _)
  · exact height_itemOf ‹_› ‹_›
  · exact height_itemOf ‹_› (List.getElem_mem _)
  · exact height_itemOf ‹_› (List.getElem_mem _)
  · exact height_itemOf ‹_› ‹_›

variable {reading : List Keyword} {draft : Draft} {members : Members} {value : Json}

theorem Valid.type {type : Json} (h : Valid reading draft (object members) value)
    (hread : .type ∈ reading) (mem : ("type", type) ∈ members) : typeAdmits draft type value := by
  rw [Valid] at h
  exact h.1 hread type mem

theorem Valid.enum {values : List Json} (h : Valid reading draft (object members) value)
    (hread : .enum ∈ reading) (mem : ("enum", array values) ∈ members) :
    ∃ allowed ∈ values, allowed.Equal value := by
  rw [Valid] at h
  exact h.2.1 hread values mem

theorem Valid.property {properties : Members} {key : String} {part inner : Json}
    (h : Valid reading draft (object members) value) (hread : .properties ∈ reading)
    (mem : ("properties", object properties) ∈ members) (hpart : (key, part) ∈ properties)
    (hget : value.get? key = some inner) : Valid reading draft part inner := by
  rw [Valid] at h
  exact h.2.2.1 hread properties mem key part hpart inner hget

theorem Valid.required {names : List Json} {name : String} {own : Members}
    (h : Valid reading draft (object members) (object own)) (hread : .required ∈ reading)
    (mem : ("required", array names) ∈ members) (hname : string name ∈ names) :
    (Members.get? own name).isSome := by
  rw [Valid] at h
  exact h.2.2.2.1 hread names mem name hname own rfl

theorem Valid.item {item inner : Json} {values : List Json}
    (h : Valid reading draft (object members) (array values)) (hread : .items ∈ reading)
    (mem : ("items", item) ∈ members) (hitem : ∀ items, item ≠ array items)
    (hinner : inner ∈ values) : Valid reading draft item inner := by
  rw [Valid] at h
  exact h.2.2.2.2.1 hread item mem values rfl inner hinner hitem

theorem Valid.itemAt {items values : List Json} {inner : Json} {position : Nat}
    (h : Valid reading draft (object members) (array values)) (hread : .itemList ∈ reading)
    (mem : ("items", array items) ∈ members) (hposition : position < items.length)
    (hinner : values[position]? = some inner) : Valid reading draft items[position] inner := by
  rw [Valid] at h
  exact h.2.2.2.2.2.1 hread items mem values rfl position hposition inner hinner

theorem Valid.minItems {values : List Json} {bound : Number}
    (h : Valid reading draft (object members) (array values)) (hread : .bounds ∈ reading)
    (mem : ("minItems", number bound) ∈ members) : bound.toRat ≤ values.length := by
  rw [Valid] at h
  exact (h.2.2.2.2.2.2.1 hread values rfl).1 bound mem

theorem Valid.maxItems {values : List Json} {bound : Number}
    (h : Valid reading draft (object members) (array values)) (hread : .bounds ∈ reading)
    (mem : ("maxItems", number bound) ∈ members) : values.length ≤ bound.toRat := by
  rw [Valid] at h
  exact (h.2.2.2.2.2.2.1 hread values rfl).2 bound mem

theorem Valid.anyOf {branches : List Json} (h : Valid reading draft (object members) value)
    (hread : .anyOf ∈ reading) (mem : ("anyOf", array branches) ∈ members) :
    ∃ branch ∈ branches, Valid reading draft branch value := by
  rw [Valid] at h
  obtain ⟨branch, hbranch, hvalid⟩ := h.2.2.2.2.2.2.2.1 hread branches mem
  exact ⟨branch, hbranch, hvalid⟩

theorem Valid.oneOf {branches : List Json} (h : Valid reading draft (object members) value)
    (hread : .oneOf ∈ reading) (mem : ("oneOf", array branches) ∈ members) :
    ∃ branch ∈ branches, Valid reading draft branch value := by
  rw [Valid] at h
  obtain ⟨position, hposition, hvalid, -⟩ := h.2.2.2.2.2.2.2.2.1 hread branches mem
  exact ⟨branches[position], List.getElem_mem hposition, hvalid⟩

theorem Valid.allOf {branches : List Json} {branch : Json}
    (h : Valid reading draft (object members) value) (hread : .allOf ∈ reading)
    (mem : ("allOf", array branches) ∈ members) (hbranch : branch ∈ branches) :
    Valid reading draft branch value := by
  rw [Valid] at h
  exact h.2.2.2.2.2.2.2.2.2 hread branches mem branch hbranch

end Json

/-! ## Inhabitants -/

def Scalar.Admits : Scalar → Json → Prop
  | any, _ => True
  | string, .string _ => True
  | int, .number (.integer _) => True
  | number, .number _ => True
  | bool, .bool _ => True
  | null, .null => True
  | _, _ => False

/-- Literals are equal as their values are: the sign of a zero does not count. -/
def Literal.same : Literal → Literal → Bool
  | double a, double b => a.sameNumber b
  | a, b => a = b

/-- The value is one that the shape describes. Records and mappings admit members that they do not
name. -/
inductive Json.Inhabits : Json → Shape → Prop where
  | scalar {value : Json} {kind : Scalar} (h : kind.Admits value) : Inhabits value (.scalar kind)
  | literal {value : Json} {l l' : Literal} (h : Literal.ofJson? value = some l')
      (same : l'.same l = true) : Inhabits value (.literal l)
  | union {value : Json} {shape : Shape} {members : List Shape} (mem : shape ∈ members)
      (h : Inhabits value shape) : Inhabits value (.union members)
  | list {items : List Json} {element : Shape} (h : ∀ item ∈ items, Inhabits item element) :
      Inhabits (array items) (.list element)
  | tuple {items : List Json} {elements : List Shape} (h : List.Forall₂ Inhabits items elements) :
      Inhabits (array items) (.tuple elements)
  | mapping {members : Members} {shape : Shape}
      (h : ∀ key value, (key, value) ∈ members → Inhabits value shape) :
      Inhabits (object members) (.mapping shape)
  | record {members : Members} {name : String} {outer : Bool} {fields : List (Field Shape)}
      (required : ∀ field ∈ fields, field.required = true →
        (Members.get? members field.key).isSome)
      (present : ∀ field ∈ fields, ∀ value, Members.get? members field.key = some value →
        Inhabits value field.shape) :
      Inhabits (object members) (.record name outer fields)

theorem Json.inhabits_any (value : Json) : value.Inhabits .any :=
  .scalar trivial

end SchemaShape
