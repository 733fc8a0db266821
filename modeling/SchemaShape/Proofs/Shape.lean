import Mathlib.Data.List.Forall2
import SchemaShape.Shape.Basic

/-! # The same shapes, shapes up to their outer flags, and shapes inside shapes

Which records are outer is a matter of where a shape is printed, and not of what it says. With the
flags erased, a shape stands the same at the root and inside another one.

`shape.At path part` says that the path leads from a shape to a part of it, hop by hop. The keys of the
fields on the way are the only names that a path has.
-/

namespace SchemaShape
set_option autoImplicit false

namespace Shape

/-! ## Equality -/

mutual

/-- Whether two shapes are the same, outer flags included. -/
def same : Shape → Shape → Bool
  | scalar kind, scalar kind' => kind == kind'
  | literal value, literal value' => value == value'
  | union members, union members' => sameList members members'
  | list element, list element' => same element element'
  | tuple elements, tuple elements' => sameList elements elements'
  | mapping value, mapping value' => same value value'
  | record name outer fields, record name' outer' fields' =>
    name == name' && outer == outer' && sameFields fields fields'
  | nothing, nothing => true
  | _, _ => false

def sameList : List Shape → List Shape → Bool
  | [], [] => true
  | shape :: rest, shape' :: rest' => same shape shape' && sameList rest rest'
  | _, _ => false

def sameFields : List (Field Shape) → List (Field Shape) → Bool
  | [], [] => true
  | ⟨key, required, shape⟩ :: rest, ⟨key', required', shape'⟩ :: rest' =>
    key == key' && required == required' && same shape shape' && sameFields rest rest'
  | _, _ => false

end

mutual

theorem same_iff : ∀ shape shape' : Shape, same shape shape' = true ↔ shape = shape'
  | scalar kind, shape' => by cases shape' <;> simp [same]
  | literal value, shape' => by cases shape' <;> simp [same]
  | union members, shape' => by cases shape' <;> simp [same, sameList_iff members]
  | list element, shape' => by cases shape' <;> simp [same, same_iff element]
  | tuple elements, shape' => by cases shape' <;> simp [same, sameList_iff elements]
  | mapping value, shape' => by cases shape' <;> simp [same, same_iff value]
  | record name outer fields, shape' => by
    cases shape' <;> simp [same, sameFields_iff fields, and_assoc]
  | nothing, shape' => by cases shape' <;> simp [same]

theorem sameList_iff : ∀ shapes shapes' : List Shape,
    sameList shapes shapes' = true ↔ shapes = shapes'
  | [], shapes' => by cases shapes' <;> simp [sameList]
  | shape :: rest, shapes' => by
    cases shapes' <;> simp [sameList, same_iff shape, sameList_iff rest]

theorem sameFields_iff : ∀ fields fields' : List (Field Shape),
    sameFields fields fields' = true ↔ fields = fields'
  | [], fields' => by cases fields' <;> simp [sameFields]
  | ⟨key, required, shape⟩ :: rest, fields' => by
    rcases fields' with _ | ⟨⟨key', required', shape'⟩, rest'⟩ <;>
      simp [sameFields, same_iff shape, sameFields_iff rest, and_assoc]

end

instance : DecidableEq Shape := fun shape shape' => decidable_of_iff _ (same_iff shape shape')

/-! ## Outer flags -/

mutual

/-- No record is outer. -/
def erased : Shape → Shape
  | scalar kind => scalar kind
  | literal value => literal value
  | union members => union (erasedList members)
  | list element => list (erased element)
  | tuple elements => tuple (erasedList elements)
  | mapping value => mapping (erased value)
  | record name _ fields => record name false (erasedFields fields)
  | nothing => nothing

def erasedList : List Shape → List Shape
  | [] => []
  | shape :: rest => erased shape :: erasedList rest

def erasedFields : List (Field Shape) → List (Field Shape)
  | [] => []
  | ⟨key, required, shape⟩ :: rest => ⟨key, required, erased shape⟩ :: erasedFields rest

end

/-- The two shapes say the same. -/
def SameErased (shape shape' : Shape) : Prop :=
  shape.erased = shape'.erased

theorem SameErased.isNothing_eq {shape shape' : Shape} (h : SameErased shape shape') :
    shape.isNothing = shape'.isNothing := by
  have heq : shape.erased = shape'.erased := h
  cases shape <;> cases shape' <;> simp only [erased] at heq <;>
    first
    | rfl
    | cases heq

theorem erasedList_eq {shapes shapes' : List Shape} (h : List.Forall₂ SameErased shapes shapes') :
    erasedList shapes = erasedList shapes' := by
  induction h with
  | nil => rfl
  | cons hshape _ ih =>
    have heq : erased _ = erased _ := hshape
    simp only [erasedList, heq, ih]

theorem erasedFields_eq {fields fields' : List (Field Shape)}
    (h : List.Forall₂ (fun field field' => field.key = field'.key ∧
      field.required = field'.required ∧ SameErased field.shape field'.shape) fields fields') :
    erasedFields fields = erasedFields fields' := by
  induction h with
  | nil => rfl
  | @cons field field' rest rest' hfield _ ih =>
    obtain ⟨key, required, shape⟩ := field
    obtain ⟨key', required', shape'⟩ := field'
    obtain ⟨hkey, hrequired, hshape⟩ := hfield
    have heq : shape.erased = shape'.erased := hshape
    simp only at hkey hrequired
    simp only [erasedFields, hkey, hrequired, heq, ih]

theorem SameErased.record_left {name : String} {outer : Bool} {fields : List (Field Shape)}
    {shape : Shape} (h : SameErased (record name outer fields) shape) :
    ∃ outer' fields', shape = record name outer' fields' := by
  have heq : (record name outer fields).erased = shape.erased := h
  cases shape with
  | record name' outer' fields' =>
    simp only [erased, record.injEq] at heq
    exact ⟨outer', fields', by rw [heq.1]⟩
  | _ =>
    simp only [erased] at heq
    cases heq

/-- The shape of the field that a path of keys leads to, from record to record. -/
inductive FieldAt : Shape → List String → Shape → Prop where
  | here (shape : Shape) : FieldAt shape [] shape
  | field {name : String} {outer : Bool} {fields : List (Field Shape)} {field : Field Shape}
      {rest : List String} {target : Shape} (mem : field ∈ fields)
      (h : FieldAt field.shape rest target) :
      FieldAt (record name outer fields) (field.key :: rest) target

end Shape

/-! ## Parts -/

/-- A step from a shape to one of its parts. -/
inductive Hop where
  | member
  | element
  | position
  | value
  | field (key : String)
  deriving DecidableEq, Repr

def Hop.key? : Hop → Option String
  | field key => some key
  | _ => none

/-- The keys of the fields on a path. -/
def Hop.keys (path : List Hop) : List String := path.filterMap key?

namespace Shape

inductive Part : Shape → Hop → Shape → Prop where
  | member {members : List Shape} {part : Shape} (mem : part ∈ members) :
      Part (union members) .member part
  | element (part : Shape) : Part (list part) .element part
  | position {elements : List Shape} {part : Shape} (mem : part ∈ elements) :
      Part (tuple elements) .position part
  | value (part : Shape) : Part (mapping part) .value part
  | field {name : String} {outer : Bool} {fields : List (Field Shape)} {field : Field Shape}
      (mem : field ∈ fields) : Part (record name outer fields) (.field field.key) field.shape

/-- The path leads from a shape to a part of it. -/
inductive At : Shape → List Hop → Shape → Prop where
  | here (shape : Shape) : At shape [] shape
  | inside {shape next part : Shape} {hop : Hop} {rest : List Hop} (hpart : Part shape hop next)
      (h : At next rest part) : At shape (hop :: rest) part

/-- Scalars and single values. -/
def isSimple : Shape → Bool
  | scalar _ | literal _ => true
  | _ => false

/-- The shapes that schemas without other schemas inside have: simple ones, choices of these, and lists
and mappings of anything. -/
def isFlat : Shape → Bool
  | scalar _ | literal _ | list (.scalar .any) | mapping (.scalar .any) => true
  | union members => members.all isSimple
  | _ => false

theorem flat_of_simple {shape : Shape} (h : shape.isSimple = true) : shape.isFlat = true := by
  cases shape with
  | scalar | literal => rfl
  | _ => cases h

theorem eq_any_of_flat {value : Shape} (h : (mapping value).isFlat = true) : value = any := by
  unfold isFlat at h
  split at h
  · next heq => cases heq
  · next heq => cases heq
  · next heq => cases heq
  · next heq =>
    cases heq
    rfl
  · next heq => cases heq
  · cases h

theorem Part.flat {shape part : Shape} {hop : Hop} (h : Part shape hop part)
    (hflat : shape.isFlat = true) : part.isFlat = true := by
  unfold isFlat at hflat
  split at hflat
  · cases h
  · cases h
  · cases h
    rfl
  · cases h
    rfl
  · cases h with
    | member mem => exact flat_of_simple (List.all_eq_true.mp hflat _ mem)
  · cases hflat

theorem At.flat {shape part : Shape} {path : List Hop} (h : At shape path part)
    (hflat : shape.isFlat = true) : part.isFlat = true := by
  induction h with
  | here => exact hflat
  | inside hpart _ ih => exact ih (hpart.flat hflat)

theorem orAny_eq (shape : Shape) :
    shape.orAny = shape ∧ shape ≠ nothing ∨ shape.orAny = any := by
  cases shape with
  | nothing => exact .inr rfl
  | _ => exact .inl ⟨rfl, nofun⟩

theorem At.of_orAny {shape : Shape} {path : List Hop} {name : String} {outer : Bool}
    {fields : List (Field Shape)} (h : shape.orAny.At path (record name outer fields)) :
    shape.At path (record name outer fields) := by
  rcases shape.orAny_eq with ⟨heq, -⟩ | heq
  · rwa [heq] at h
  · rw [heq] at h
    cases h.flat rfl

end Shape

end SchemaShape
