import SchemaShape.Shape.Text

/-! # Shapes as JSON

A shape is an object with its `kind` and, except for `nothing`, what it is `of`.
-/

namespace SchemaShape
set_option autoImplicit false

namespace Shape

def literalJson : Literal → Json
  | .string value => .string value
  | .int value => .number (.integer value)
  | .double value => .number (.double value)
  | .bool value => .bool value
  | .null => .null

def tagged (kind : String) (content : Json) : Json :=
  .object [("kind", .string kind), ("of", content)]

mutual

def toJson : Shape → Json
  | scalar kind => tagged "scalar" (.string kind.text)
  | literal value => tagged "literal" (literalJson value)
  | union members => tagged "union" (.array (toJsonList members))
  | list element => tagged "list" (toJson element)
  | tuple elements => tagged "tuple" (.array (toJsonList elements))
  | mapping value => tagged "mapping" (toJson value)
  | record name outer fields =>
    tagged "record" (.object
      [("name", .string name), ("outer", .bool outer), ("fields", .object (toJsonFields fields))])
  | nothing => .object [("kind", .string "nothing")]

def toJsonList : List Shape → List Json
  | [] => []
  | shape :: rest => toJson shape :: toJsonList rest

def toJsonFields : List (Field Shape) → List (String × Json)
  | [] => []
  | ⟨key, required, shape⟩ :: rest =>
    (key, .object [("ty", toJson shape), ("required", .bool required)]) :: toJsonFields rest

end

end Shape

end SchemaShape
