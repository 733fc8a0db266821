import SchemaShape.Json.Basic

/-! # Diagnostics

What is reported beside a result: approximations as warnings, and inputs that were passed through
unchanged as errors. Neither stops a compile.
-/

namespace SchemaShape
set_option autoImplicit false

inductive Severity where
  | warning
  | error
  deriving DecidableEq, Repr

def Severity.name : Severity → String
  | warning => "warning"
  | error => "error"

namespace Diagnostic

inductive Kind where
  /-- A type list at the root that names `object` was read as `object`. -/
  | rootTypeFallback
  | unknownType
  | defaultUnsupported
  /-- There is no intersection of shapes: `allOf` became a union. -/
  | allOfAsUnion
  /-- There is no exclusive choice of shapes: `oneOf` became a union. -/
  | oneOfAsAnyOf
  | selfReference
  | nonScalarLiteral
  | untypedSchema
  | notARecord
  deriving DecidableEq, Repr

namespace Kind

def all : List Kind :=
  [rootTypeFallback, unknownType, defaultUnsupported, allOfAsUnion, oneOfAsAnyOf, selfReference,
    nonScalarLiteral, untypedSchema, notARecord]

def name : Kind → String
  | rootTypeFallback => "root_type_fallback"
  | unknownType => "unknown_type"
  | defaultUnsupported => "default_unsupported"
  | allOfAsUnion => "all_of_as_union"
  | oneOfAsAnyOf => "one_of_as_any_of"
  | selfReference => "self_reference"
  | nonScalarLiteral => "non_scalar_literal"
  | untypedSchema => "untyped_schema"
  | notARecord => "not_a_record"

def ofName? (name : String) : Option Kind :=
  all.find? (·.name == name)

end Kind

end Diagnostic

structure Diagnostic where
  severity : Severity
  kind : Diagnostic.Kind
  message : String
  location : String
  deriving DecidableEq, Repr

namespace Diagnostic

def text (d : Diagnostic) : String :=
  d.location ++ ": " ++ d.severity.name ++ ": " ++ d.message

def toJson (d : Diagnostic) : Json :=
  .object [("severity", .string d.severity.name), ("kind", .string d.kind.name),
    ("message", .string d.message), ("location", .string d.location)]

end Diagnostic

end SchemaShape
