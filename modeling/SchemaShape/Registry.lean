import SchemaShape.Draft
import SchemaShape.Json.Pointer
import SchemaShape.Url.Parser

/-! # The registry of documents

The registry holds documents and an index from URLs to places in them. A document's own URL stands
for its root, and the last document registered under a URL has it. Every identifier inside a document
claims a URL for the node that carries it, and keeps it against later claims.
-/

namespace SchemaShape
set_option autoImplicit false

/-- A schema and the absolute URL it was loaded from. -/
structure Document where
  url : Url
  schema : Json

namespace Document

/-- The URL of schemas that come without one. -/
def defaultUrl : Url := Url.ofFilePath "/schema.json"

/-- A document that came without a URL is placed at its `$id`, if that is absolute. -/
def anonymous (schema : Json) : Document :=
  let id := (schema.get? "$id").bind Json.asString?
  { url := (id.bind fun text => (Url.parse text).toOption).getD defaultUrl, schema }

end Document

/-! ## Claims of a document -/

structure Claim where
  key : String
  pointer : Pointer
  deriving DecidableEq, Repr

namespace Claim

/-- Keywords whose values are data. Identifiers in there identify nothing. -/
def dataKeywords : List String := ["enum", "const", "default", "examples"]

/-- What the identifier of a node claims, and the base of the nodes inside. A plain-name anchor
claims a fragment and leaves the base as it is; an identifier that does not join claims nothing. -/
def ofNode (draft : Draft) (base : Url) (pointer : Pointer) (members : Members) :
    Url × List Claim :=
  match draft.idOf? members with
  | none => (base, [])
  | some id =>
    match base.join id with
    | .error _ => (base, [])
    | .ok joined =>
      if joined.fragment.any (!·.isEmpty) && id.toList.head? == some '#' then
        (base, [⟨joined.text, pointer⟩])
      else (joined.withoutFragment, [⟨joined.withoutFragment.text, pointer⟩])

mutual

def collect (draft : Draft) (base : Url) (pointer : Pointer) : Json → List Claim
  | .object members =>
    let (inner, own) := ofNode draft base pointer members
    own ++ collectMembers draft inner pointer members
  | .array items => collectItems draft base pointer 0 items
  | _ => []

def collectItems (draft : Draft) (base : Url) (pointer : Pointer) (position : Nat) :
    List Json → List Claim
  | [] => []
  | item :: rest =>
    collect draft base (pointer ++ [toString position]) item ++
      collectItems draft base pointer (position + 1) rest

def collectMembers (draft : Draft) (base : Url) (pointer : Pointer) :
    List (String × Json) → List Claim
  | [] => []
  | (key, value) :: rest =>
    let own := if key ∈ dataKeywords then [] else collect draft base (pointer ++ [key]) value
    own ++ collectMembers draft base pointer rest

end

end Claim

/-! ## The registry -/

/-- A place in a registered document, which is given by its position. -/
structure Place where
  document : Nat
  pointer : Pointer
  deriving DecidableEq, Repr

abbrev Index := List (String × Place)

namespace Index

/-- Overwrites what the key denoted. -/
def assign (key : String) (place : Place) : Index → Index
  | [] => [(key, place)]
  | (k, p) :: rest => if k = key then (key, place) :: rest else (k, p) :: assign key place rest

/-- Leaves a key that denotes something as it is. -/
def claim (index : Index) (key : String) (place : Place) : Index :=
  if (index.lookup key).isSome then index else index ++ [(key, place)]

end Index

structure Registry where
  /-- The documents in the order of registration, with their URLs without fragment. -/
  documents : List Document := []
  index : Index := []

namespace Registry

def empty : Registry := {}

/-- Registers a document under its URL and all its identifiers. -/
def insert (registry : Registry) (document : Document) : Registry :=
  let position := registry.documents.length
  let base := document.url.withoutFragment
  let claims := Claim.collect (Draft.detectIn document.schema) base [] document.schema
  { documents := registry.documents ++ [{ document with url := base }]
    index := claims.foldl (fun index claim => index.claim claim.key ⟨position, claim.pointer⟩)
      (registry.index.assign base.text ⟨position, []⟩) }

def place? (registry : Registry) (key : String) : Option Place :=
  registry.index.lookup key

def contains (registry : Registry) (key : String) : Bool :=
  (registry.place? key).isSome

/-- The document and the pointer that a URL denotes. -/
def locate? (registry : Registry) (key : String) : Option (Document × Pointer) := do
  let place ← registry.place? key
  return (← registry.documents[place.document]?, place.pointer)

def get? (registry : Registry) (key : String) : Option Json := do
  let (document, pointer) ← registry.locate? key
  document.schema.at? pointer

end Registry

end SchemaShape
