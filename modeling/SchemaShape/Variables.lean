import SchemaShape.Failure
import SchemaShape.Json.Reader
import SchemaShape.Json.Text
import SchemaShape.Text.Pieces

/-! # Variable references

A namespace holds modules of named values. The text `var:<module>:<name>` stands for the string that
the dotted name leads to inside the module; any other text stands for itself.
-/

namespace SchemaShape
set_option autoImplicit false

/-- The modules, by name. -/
abbrev Namespace := Members

namespace Namespace

def marker : List Char := "var:".toList

def isReference (text : String) : Bool :=
  marker.isPrefixOf text.toList

/-- What stands before the first colon and what behind it. -/
def splitColon : List Char → Option (List Char × List Char)
  | [] => none
  | ':' :: rest => some ([], rest)
  | c :: rest => (splitColon rest).map fun (before, after) => (c :: before, after)

/-- The value that attributes lead to; only objects have attributes. -/
def attribute? : Json → List String → Option Json
  | value, [] => some value
  | value, name :: rest => (value.get? name).bind (attribute? · rest)

/-- What the module and name of a reference stand for, or why they stand for nothing. -/
def lookup (modules : Namespace) (moduleName name : List Char) : Except String String :=
  if moduleName = [] ∨ name = [] ∨ ':' ∈ name then .error "expected `var:<module>:<name>`"
  else
    match Members.get? modules (String.ofList moduleName) with
    | none => .error ("no module named " ++ Text.quoted (String.ofList moduleName))
    | some value =>
      match attribute? value ((Text.pieces '.' name).map String.ofList) with
      | none =>
        .error (Text.quoted (String.ofList moduleName) ++ " has no attribute path " ++
          Text.quoted (String.ofList name))
      | some (.string text) => .ok text
      | some other => .error ("expected a string, found " ++ other.text)

def resolve (modules : Namespace) (text : String) : Except Failure String :=
  match marker.isPrefixOf? text.toList with
  | none => .ok text
  | some reference =>
    match splitColon reference with
    | none => .error (.varReference text "expected `var:<module>:<name>`")
    | some (moduleName, name) =>
      (lookup modules moduleName name).mapError (Failure.varReference text)

/-- The namespace at the front of a text, which has to be an object there. -/
def read (text : String) : Except ReadPath Namespace :=
  match Json.Token.scan text.toList with
  | .openBrace :: _ => do
    match ← Json.read text with
    | .object modules => .ok modules
    | _ => .error []
  | _ => .error []

/-- Stops at the first reference that has no value. -/
def resolveAll (modules : Namespace) (texts : List String) : Except Failure (List String) :=
  texts.mapM modules.resolve

end Namespace

end SchemaShape
