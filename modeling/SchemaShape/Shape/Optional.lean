import SchemaShape.Diagnostic
import SchemaShape.Shape.Text

/-! # Records without required fields

`Shape.optionalize` makes every field of a record optional; order, names and field shapes stay. Any
other shape is passed through and reported.
-/

namespace SchemaShape.Shape
set_option autoImplicit false

def optionalize (shape : Shape) (location : String) : Shape × List Diagnostic :=
  match shape with
  | record name outer fields =>
    (record name outer (fields.map fun field => { field with required := false }), [])
  | other =>
    (other, [{
      severity := .error, kind := .notARecord, location,
      message := "only records can be made optional, got `" ++ other.text ++
        "`; leaving it unchanged" }])

end SchemaShape.Shape
