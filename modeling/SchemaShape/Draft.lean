import SchemaShape.Json.Basic
import SchemaShape.Text.DecimalDigit
import SchemaShape.Text.Quoted

/-! # Drafts

The drafts of the schema language that are told apart, how a schema declares one, and what a draft
decides: which keyword identifies a schema, and how wide `integer` is.
-/

namespace SchemaShape
set_option autoImplicit false

inductive Draft where
  | draft04
  | draft06
  | draft07
  deriving DecidableEq, Repr, Inhabited

namespace Draft

def latest : Draft := draft07

def all : List Draft := [draft04, draft06, draft07]

def name : Draft → String
  | draft04 => "draft-04"
  | draft06 => "draft-06"
  | draft07 => "draft-07"

def ofName? (name : String) : Option Draft :=
  all.find? (·.name == name)

/-- What is said of a name that is no draft's. -/
def unknownMessage (name : String) : String :=
  "unknown draft " ++ Text.quoted name ++ ", expected draft-04, draft-06 or draft-07"

/-! ## Detection -/

/-- The first `draft-` in a text that digits follow, with its digits. -/
def token? : List Char → Option (List Char)
  | [] => none
  | c :: rest =>
    match "draft-".toList.isPrefixOf? (c :: rest) with
    | none => token? rest
    | some after =>
      match after.takeWhile Text.isDecimalDigit with
      | [] => token? rest
      | digits => some ("draft-".toList ++ digits)

/-- The draft that the value of `$schema` declares by its first draft token; the latest one if there
is no such token or none of these drafts has it. -/
def detect (uri : Option String) : Draft :=
  ((uri.bind fun text => token? text.toList).bind (ofName? <| String.ofList ·)).getD latest

def detectIn (schema : Json) : Draft :=
  detect ((schema.get? "$schema").bind Json.asString?)

/-! ## Rules -/

/-- The identifier of a schema: its `$id`, or under draft-04 also its `id`. -/
def idOf? (draft : Draft) (schema : Members) : Option String :=
  match (Members.get? schema "$id").bind Json.asString? with
  | some id => some id
  | none =>
    match draft with
    | draft04 => (Members.get? schema "id").bind Json.asString?
    | _ => none

/-- Before draft-06 `integer` is a type of its own; from then on any number without a fraction is
an integer, which cannot be told from a number without looking at the value. -/
def integersAreExact : Draft → Bool
  | draft04 => true
  | _ => false

end Draft

/-! ## Type names -/

inductive TypeName where
  | object
  | array
  | string
  | number
  | integer
  | boolean
  | null
  | any
  deriving DecidableEq, Repr

def TypeName.ofString? : String → Option TypeName
  | "object" => some object
  | "array" => some array
  | "string" => some string
  | "number" => some number
  | "integer" => some integer
  | "boolean" => some boolean
  | "null" => some null
  | "any" => some any
  | _ => none

end SchemaShape
