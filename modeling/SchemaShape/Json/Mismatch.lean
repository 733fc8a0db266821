import SchemaShape.Json.Text
import SchemaShape.Text.Quoted

/-! # Mismatches

Why a JSON value has not the form that was expected of it. A name out of a fixed list may also be
given as an object with that name as its only key and null as its value.
-/

namespace SchemaShape
set_option autoImplicit false

inductive Mismatch where
  | wrongType (found : Json) (expected : String)
  | wrongValue (found : Json) (expected : String)
  | unknownVariant (name : String) (known : List String)
  | unknownField (name : String) (known : List String)
  /-- More items than there are fields. -/
  | tooManyItems (count : Nat)

/-- A value as mismatches show it: scalars with their value, containers without. -/
def Json.foundText : Json → String
  | null => "null"
  | bool value => "boolean `" ++ toString value ++ "`"
  | number (.integer value) => "integer `" ++ toString value ++ "`"
  | number (.double value) => "floating point `" ++ value.text numberLayout ++ "`"
  | string value => "string " ++ Text.quoted value
  | array _ => "sequence"
  | object _ => "map"

namespace Mismatch

def choices (names : List String) : String :=
  ", ".intercalate (names.map fun name => "`" ++ name ++ "`")

def message : Mismatch → String
  | wrongType found expected => "invalid type: " ++ found.foundText ++ ", expected " ++ expected
  | wrongValue found expected => "invalid value: " ++ found.foundText ++ ", expected " ++ expected
  | unknownVariant name known =>
    "unknown variant `" ++ name ++ "`, expected one of " ++ choices known
  | unknownField name known => "unknown field `" ++ name ++ "`, expected one of " ++ choices known
  | tooManyItems count =>
    "invalid length " ++ toString count ++ ", expected fewer elements in array"

end Mismatch

namespace Json

def variant (known : List String) : Json → Except Mismatch String
  | string name => if name ∈ known then .ok name else .error (.unknownVariant name known)
  | object [(name, content)] =>
    if name ∉ known then .error (.unknownVariant name known)
    else match content with
      | null => .ok name
      | content => .error (.wrongType content "unit")
  | object members => .error (.wrongValue (object members) "map with a single key")
  | value => .error (.wrongType value "string or map")

end Json

end SchemaShape
