import SchemaShape.Failure
import SchemaShape.Json.Text

/-! # Narrowing

`narrow schema path` is the part of a schema that describes the values found along a key path. Array
levels on the way are looked through, so positions never appear in a path; the segment `#` stays at
the current object.

The narrowed schema carries its path: a property schema takes over `$schema`, `$id` and `title` from
its parent where it has none, and its `$id` and `title` get the segment appended.
-/

namespace SchemaShape
set_option autoImplicit false

namespace Narrowing

/-- What is kept of the root schema: `required` and the like constrain the whole value and not the
part that is narrowed to. -/
def keptKeywords : List String := ["$schema", "$id", "title", "type", "properties", "items"]

def inheritedKeywords : List String := ["$schema", "$id", "title"]

/-- The segment that stays at the current object. -/
def selfSegment : String := "#"

def typeIs (schema : Members) (name : String) : Bool :=
  match schema.get? "type" with
  | some (.string value) => value == name
  | _ => false

def typeText (schema : Members) : String :=
  (schema.get? "type").elim "(none)" Json.text

/-! ## Array levels -/

/-- Puts the members of the item schema in place of the array's `items`, for as long as the result
still describes an array. The last argument is the array's `items`. -/
def unwrap (segment : String) (schema : Members) (items : Option Json) :
    Except Failure Members :=
  if !typeIs schema "array" then .ok schema
  else match items with
    | none => .ok schema
    | some (.bool true) => .ok (schema.remove "items")
    | some (.object item) =>
      unwrap segment ((schema.remove "items").extend item) (Members.get? item "items")
    | some _ =>
      .error (.invalidPath segment "tuple or `false` `items` cannot be looked through")
termination_by sizeOf items
decreasing_by
  cases h : Members.get? item "items" with
  | none =>
    simp only [Option.none.sizeOf_spec, Option.some.sizeOf_spec, Json.object.sizeOf_spec]
    omega
  | some value =>
    have := Members.sizeOf_get? h
    simp only [Option.some.sizeOf_spec, Json.object.sizeOf_spec]
    omega

/-! ## One segment -/

def inherit (parent child : Members) (keyword : String) : Members :=
  if child.contains keyword then child
  else match parent.get? keyword with
    | some value => child.set keyword value
    | none => child

/-- Appends to a string member and leaves any other alone. -/
def appendTo (keyword suffix : String) (schema : Members) : Members :=
  match schema.get? keyword with
  | some (.string value) => schema.set keyword (.string (value ++ suffix))
  | _ => schema

/-- A property schema with what it takes over from its parent. -/
def enterProperty (parent child : Members) (segment : String) : Members :=
  appendTo "title" (" " ++ segment) <| appendTo "$id" ("/" ++ segment) <|
    inheritedKeywords.foldl (inherit parent) child

/-- The object schema that a segment leads to from an object schema. -/
def property (segment : String) (schema : Members) : Except Failure Members :=
  if !typeIs schema "object" then
    .error (.invalidPath segment
      ("expected an `object` schema, found type " ++ typeText schema))
  else
    match schema.get? "properties" with
    | some (.object properties) =>
      if segment = selfSegment then .ok schema
      else match Members.get? properties segment with
        | some (.object child) => .ok (enterProperty schema child segment)
        | some _ => .error (.invalidPath segment "the property schema is not an object")
        | none => .error (.invalidPath segment "no such property")
    | _ => .error (.invalidPath segment "the schema has no `properties`")

/-! ## Paths -/

/-- Only an object schema keeps its `properties`. -/
def finish (schema : Members) : Members :=
  if schema.contains "properties" && !typeIs schema "object" then schema.remove "properties"
  else schema

/-- The schema that a path leads to. Inside an array whose items are no objects the path ends. -/
def descend (schema : Members) : List String → Except Failure Members
  | [] => .ok (finish schema)
  | segment :: rest =>
    if typeIs schema "array" then do
      let item ← unwrap segment schema (schema.get? "items")
      if typeIs item "object" then descend (← property segment item) rest else .ok item
    else do
      descend (← property segment schema) rest

end Narrowing

def narrow (schema : Json) (path : List String) : Except Failure Json :=
  match schema with
  | .object root =>
    let kept := root.filter fun (key, _) => Narrowing.keptKeywords.contains key
    (Narrowing.descend kept path).map .object
  | _ => .error (.invalidPath (path.headD Narrowing.selfSegment) "the root schema is not an object")

end SchemaShape
