import SchemaShape.Draft
import SchemaShape.Json.Mismatch

/-! # Compile options

Options override what a schema says of itself: the outer name and the draft. They also bound how
many references may be followed inside one another. In JSON they are an object of the three fields,
or an array of their values in order; fields that are missing have their defaults.
-/

namespace SchemaShape
set_option autoImplicit false

structure Options where
  name : Option String := none
  draft : Option Draft := none
  maxRefDepth : Nat := 32
  deriving DecidableEq, Repr

namespace Options

def fieldNames : List String := ["name", "draft", "max_ref_depth"]

def draftNames : List String := Draft.all.map Draft.name

def nameOfJson : Json → Except Mismatch (Option String)
  | .null => .ok none
  | .string value => .ok (some value)
  | value => .error (.wrongType value "a string")

def draftOfJson : Json → Except Mismatch (Option Draft)
  | .null => .ok none
  | value => (value.variant draftNames).map Draft.ofName?

def depthOfJson : Json → Except Mismatch Nat
  | .number (.integer value) =>
    if 0 ≤ value then .ok value.toNat
    else .error (.wrongValue (.number (.integer value)) "usize")
  | value => .error (.wrongType value "usize")

def setField (options : Options) (name : String) (value : Json) : Except Mismatch Options :=
  match name with
  | "name" => (nameOfJson value).map ({ options with name := · })
  | "draft" => (draftOfJson value).map ({ options with draft := · })
  | "max_ref_depth" => (depthOfJson value).map ({ options with maxRefDepth := · })
  | name => .error (.unknownField name fieldNames)

def setFields (options : Options) (fields : List (String × Json)) : Except Mismatch Options :=
  fields.foldlM (fun options (name, value) => options.setField name value) options

def ofJson : Json → Except Mismatch Options
  | .object members => setFields {} members
  | .array items => do
    let options ← setFields {} (fieldNames.zip items)
    if fieldNames.length < items.length then .error (.tooManyItems items.length) else .ok options
  | value => .error (.wrongType value "struct CompileOptions")

def toJson (options : Options) : Json :=
  .object [
    ("name", options.name.elim .null .string),
    ("draft", options.draft.elim .null (.string ·.name)),
    ("max_ref_depth", .number (.integer options.maxRefDepth))]

end Options

end SchemaShape
