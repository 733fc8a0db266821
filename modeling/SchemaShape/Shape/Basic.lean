import SchemaShape.Json.Basic

/-! # Shapes

A shape is the structural type of JSON values: scalars and single values, unions, lists, tuples,
mappings and records with named fields. `Shape.nothing` says that a schema gives no type; whatever
contains it leaves it out or widens it.
-/

namespace SchemaShape
set_option autoImplicit false

inductive Scalar where
  | string
  | int
  /-- Integers and all other numbers. -/
  | number
  | bool
  | null
  | any
  deriving DecidableEq, Repr

/-- A scalar value as a type of its own. Integers beyond 64 signed bits are doubles here. -/
inductive Literal where
  | string (value : String)
  | int (value : Int)
  | double (value : Binary64)
  | bool (value : Bool)
  | null
  deriving DecidableEq, Repr

structure Field (α : Type) where
  key : String
  required : Bool
  shape : α
  deriving BEq, Repr

inductive Shape where
  | scalar (kind : Scalar)
  | literal (value : Literal)
  | union (members : List Shape)
  | list (element : Shape)
  | tuple (elements : List Shape)
  /-- String keys, with values of one shape. -/
  | mapping (value : Shape)
  /-- Only a record at the root is `outer`, and shown with its name. -/
  | record (name : String) (outer : Bool) (fields : List (Field Shape))
  | nothing
  deriving BEq, Repr, Inhabited

namespace Literal

def ofJson? : Json → Option Literal
  | .null => some null
  | .bool value => some (bool value)
  | .string value => some (string value)
  | .number (.integer value) =>
    if -0x8000000000000000 ≤ value ∧ value < 0x8000000000000000 then some (int value)
    else some (double (Binary64.ofInt value))
  | .number (.double value) => some (double value)
  | .array _ => none
  | .object _ => none

def kind : Literal → Scalar
  | string _ => .string
  | int _ => .int
  | double _ => .number
  | bool _ => .bool
  | null => .null

end Literal

namespace Shape

def any : Shape := scalar .any

def anyMapping : Shape := mapping any

def isNothing : Shape → Bool
  | nothing => true
  | _ => false

/-- Places that cannot be left out widen to `any`. -/
def orAny : Shape → Shape
  | nothing => any
  | shape => shape

/-- The keys of the required fields of a record. -/
def requiredKeys? : Shape → Option (List String)
  | record _ _ fields => some ((fields.filter (·.required)).map (·.key))
  | _ => none

end Shape

end SchemaShape
