import SchemaShape.Compiler.Basic
import SchemaShape.Narrowing
import SchemaShape.Options.Basic
import SchemaShape.Shape.Json
import SchemaShape.Shape.Optional

/-! # Sessions

A session holds the documents that references may point into, and compiles them, whole or narrowed
to a path.
-/

namespace SchemaShape
set_option autoImplicit false

structure Compilation where
  url : String
  path : List String
  name : String
  draft : Draft
  root : Shape
  diagnostics : List Diagnostic

namespace Compilation

/-- Makes the fields of the root optional; a root that is no record is reported. -/
def optionalize (compilation : Compilation) : Compilation :=
  let (root, diagnostics) := compilation.root.optionalize (compilation.url ++ "#")
  { compilation with root, diagnostics := compilation.diagnostics ++ diagnostics }

def toJson (compilation : Compilation) : Json :=
  .object [("uri", .string compilation.url), ("path", .array (compilation.path.map .string)),
    ("name", .string compilation.name), ("draft", .string compilation.draft.name),
    ("root", compilation.root.toJson),
    ("diagnostics", .array (compilation.diagnostics.map Diagnostic.toJson))]

end Compilation

structure Session where
  registry : Registry := {}

namespace Session

def add (session : Session) (document : Document) : Session :=
  { registry := session.registry.insert document }

def contains (session : Session) (url : Url) : Bool :=
  session.registry.contains url.withoutFragment.text

/-- Narrowing appends the path to an identifier. Lookups through such an identifier belong to the
whole document. -/
def aliasNarrowed (draft : Draft) (whole narrowed : Json) (resolver : Resolver) : Resolver :=
  let idOf (schema : Json) : Option String := schema.asMembers?.bind draft.idOf?
  match idOf narrowed with
  | none => resolver
  | some id =>
    let target := match idOf whole with
      | some id => resolver.base.join id
      | none => .ok resolver.base
    match resolver.base.join id, target with
    | .ok url, .ok target => resolver.addAlias url target
    | _, _ => resolver

/-- The compiler of a schema that is all or part of the document at `base`. -/
def compilerFor (session : Session) (base : Url) (whole schema : Json) (narrowed : Bool)
    (options : Options) : Compiler :=
  let draft := options.draft.getD (Draft.detectIn schema)
  let resolver : Resolver := { registry := session.registry, base }
  let resolver := if narrowed then aliasNarrowed draft whole schema resolver else resolver
  { Compiler.new resolver draft (options.name.getD (Name.ofSchema schema)) with
    maxRefDepth := options.maxRefDepth }

def compile (session : Session) (url : Url) (path : List String) (options : Options) :
    Except Failure Compilation := do
  let base := url.withoutFragment
  let whole ← match session.registry.get? base.text with
    | some schema => .ok schema
    | none =>
      .error (.refResolution url.text base.text "no document is registered under this URI")
  let schema ← if path.isEmpty then .ok whole else narrow whole path
  let compiler := session.compilerFor base whole schema (!path.isEmpty) options
  let (root, after) := compiler.compile schema true
  return {
    url := url.text, path, name := compiler.outerName, draft := compiler.draft, root := ← root
    diagnostics := after.diagnostics }

end Session

end SchemaShape
