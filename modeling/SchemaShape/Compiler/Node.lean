import SchemaShape.Compiler.State
import SchemaShape.Json.Text

/-! # Compiling one node

The shape of a schema node, given how to compile the schemas inside it and how to follow a
reference. The node's `type` selects a rule; a node without one goes by the first of `$ref`, `allOf`,
`anyOf`, `oneOf`, `enum` and `default` that it has. What shapes cannot express is approximated with
a warning.
-/

namespace SchemaShape.Node
set_option autoImplicit false

open Compile

abbrev Inner := Json → Compile Shape

abbrev Follow := String → Bool → Compile Shape

/-! ## Lists of schemas and values -/

def eachItem {α : Type} (keyword : String) (action : Json → Compile α) (position : Nat) :
    List Json → Compile (List α)
  | [] => pure []
  | item :: rest => do
    let first ← descend [keyword, toString position] (action item)
    let others ← eachItem keyword action (position + 1) rest
    return first :: others

def literal (value : Json) : Compile Shape :=
  match Literal.ofJson? value with
  | some literal => pure (.literal literal)
  | none => do
    warn .nonScalarLiteral (value.kindText ++ " cannot be a literal type, using `any`")
    return .any

def enumeration (values : Json) : Compile Shape :=
  match values with
  | .array values => do
    return .union (← eachItem "enum" literal 0 values)
  | other => malformed ("`enum` must be an array, found " ++ other.kindText)

/-- The union of the branches that have a shape. -/
def anyOf (inner : Inner) (keyword : String) (branches : Json) : Compile Shape :=
  match branches with
  | .array branches => do
    let members ← eachItem keyword inner 0 branches
    return .union (members.filter (!·.isNothing))
  | other => malformed ("`" ++ keyword ++ "` must be an array, found " ++ other.kindText)

def allOf (inner : Inner) (branches : Json) : Compile Shape := do
  warn .allOfAsUnion "no intersection type is available, `allOf` is interpreted as a union"
  anyOf inner "allOf" branches

def oneOf (inner : Inner) (branches : Json) : Compile Shape := do
  warn .oneOfAsAnyOf "`oneOf` has no exact counterpart, treating it as `anyOf`"
  anyOf inner "oneOf" branches

/-! ## Objects -/

/-- Markers that may stand under `properties` and are no properties. -/
def reservedNames : List String := ["default", "const"]

/-- The strings listed in `required`, if it is a list. -/
def requiredNames (schema : Members) : List String :=
  match schema.get? "required" with
  | some (.array names) => names.filterMap Json.asString?
  | _ => []

/-- A field for each property that has a shape. -/
def fields (inner : Inner) (required : List String) : Members → Compile (List (Field Shape))
  | [] => pure []
  | (key, schema) :: rest =>
    if key ∈ reservedNames then fields inner required rest
    else do
      let shape ← descendProperty key (inner schema)
      let others ← fields inner required rest
      return if shape.isNothing then others else ⟨key, required.contains key, shape⟩ :: others

def object (inner : Inner) (schema : Members) (outer : Bool) : Compile Shape :=
  match schema.get? "properties" with
  | none => pure .anyMapping
  | some (.object properties) => do
    let name ← inspect Compiler.recordName
    return .record name outer (← fields inner (requiredNames schema) properties)
  | some _ => malformed "`properties` must be an object"

/-! ## Arrays -/

/-- A tuple's length cannot vary: bounds have to be absent or equal to it. -/
def fixedLength (schema : Members) (keyword : String) (length : Nat) : Compile Unit :=
  match schema.get? keyword with
  | none => pure ()
  | some bound =>
    let fits := match bound with
      | .number bound => bound.toBinary64.sameNumber (Binary64.ofInt length)
      | _ => false
    if fits then pure ()
    else unsupported ("tuple `items` of length " ++ toString length ++ " needs `" ++ keyword ++
      "` absent or equal to " ++ toString length ++ ", found " ++ bound.text)

/-- One item schema gives a list, and a list of them a tuple. -/
def array (inner : Inner) (schema : Members) : Compile Shape :=
  match schema.get? "items" with
  | none => pure (.list .any)
  | some (.bool true) => pure (.list .any)
  | some (.bool false) => unsupported "`\"items\": false` is not representable"
  | some (.array items) => do
    fixedLength schema "minItems" items.length
    fixedLength schema "maxItems" items.length
    return .tuple ((← eachItem "items" inner 0 items).map Shape.orAny)
  | some item => do
    return .list (← descend ["items"] (inner item)).orAny

/-! ## Scalars -/

/-- A `const` under `properties` makes its value the shape. -/
def boolean (schema : Members) : Compile Shape :=
  match schema.get? "properties" with
  | some (.object properties) => do
    if Members.contains properties "default" then
      descend ["properties", "default"]
        (warn .defaultUnsupported "`default` keyword is not supported")
    match Members.get? properties "const" with
    | some value => descend ["properties", "const"] (literal value)
    | none => pure (.scalar .bool)
  | _ => pure (.scalar .bool)

def integer : Compile Shape := do
  if ← inspect (·.draft.integersAreExact) then return .scalar .int
  else return .union [.scalar .int, .scalar .number]

/-! ## Types -/

def typed (inner : Inner) (type : TypeName) (schema : Members) (outer : Bool) : Compile Shape :=
  match type with
  | .object => object inner schema outer
  | .array => array inner schema
  | .string => pure (.scalar .string)
  | .number => pure (.scalar .number)
  | .integer => integer
  | .boolean => boolean schema
  | .null => pure (.scalar .null)
  | .any => pure .any

/-- An `enum` wins over the type, also where the two disagree. -/
def named (inner : Inner) (type : String) (schema : Members) (outer : Bool) : Compile Shape :=
  match schema.get? "enum" with
  | some values => enumeration values
  | none =>
    match TypeName.ofString? type with
    | some type => typed inner type schema outer
    | none => do
      warn .unknownType ("no handler for type `" ++ type ++ "`, using `any`")
      return .any

def eachName (inner : Inner) (schema : Members) (outer : Bool) :
    List String → Compile (List Shape)
  | [] => pure []
  | type :: rest => do
    let first ← named inner type schema outer
    let others ← eachName inner schema outer rest
    return first :: others

/-- A list of types is their union, except at the root of a document, which has to be an object. -/
def listed (inner : Inner) (types : List String) (schema : Members) (outer : Bool) :
    Compile Shape := do
  if outer && (← inspect (·.active.isEmpty)) then
    if types.contains "object" then do
      warn .rootTypeFallback ("root type " ++ Text.quotedList types ++
        " is out of scope, falling back to `object`")
      named inner "object" schema outer
    else fail fun c => .unsupportedRootType types c.location.text
  else return .union (← eachName inner schema outer types)

/-! ## Nodes -/

/-- The document's own root stands for itself as an empty record. -/
def reference (follow : Follow) (target : String) (outer : Bool) : Compile Shape :=
  if target = "#" then do
    warn .selfReference "recursive self references are not supported, substituting an empty record"
    return .record (← inspect (·.outerName)) true []
  else follow target outer

/-- A node without a type goes by the first of these keywords that it has. -/
def untyped (follow : Follow) (inner : Inner) (schema : Members) (outer : Bool) :
    Compile Shape :=
  match schema.get? "$ref" with
  | some (.string target) => reference follow target outer
  | some _ => malformed "`$ref` must be a string"
  | none =>
    match schema.get? "allOf", schema.get? "anyOf", schema.get? "oneOf", schema.get? "enum" with
    | some branches, _, _, _ => allOf inner branches
    | none, some branches, _, _ => anyOf inner "anyOf" branches
    | none, none, some branches, _ => oneOf inner branches
    | none, none, none, some values => enumeration values
    | none, none, none, none =>
      if schema.contains "default" then do
        warn .defaultUnsupported "`default` keyword is not supported"
        return .nothing
      else do
        warn .untypedSchema "schema has no `type` or structural keyword, using `any`"
        return .any

def members (follow : Follow) (inner : Inner) (schema : Members) (outer : Bool) :
    Compile Shape :=
  match schema.get? "type" with
  | some (.string type) => named inner type schema outer
  | some (.array types) =>
    match types.mapM Json.asString? with
    | some types => listed inner types schema outer
    | none => malformed "`type` entries must be strings"
  | some other =>
    malformed ("`type` must be a string or an array, found " ++ other.kindText)
  | none => untyped follow inner schema outer

/-- An identifier is the scope of everything in its node. -/
def shape (follow : Follow) (inner : Inner) (schema : Json) (outer : Bool) : Compile Shape :=
  match schema with
  | .object schema => do
    match ← inspect (·.draft.idOf? schema) with
    | none => members follow inner schema outer
    | some id => inScope id (members follow inner schema outer)
  | .bool true => pure .any
  | .bool false => unsupported "the `false` schema admits no value"
  | other => malformed ("expected an object or boolean schema, found " ++ other.kindText)

end SchemaShape.Node
