import SchemaShape.Failure
import SchemaShape.Registry

/-! # Resolving references

A resolver knows the scope that references are relative to: the base, or the URL entered last. It
finds the node that a reference names and says which URL to enter for it. An alias makes lookups in
one document land on another.
-/

namespace SchemaShape
set_option autoImplicit false

structure Resolver where
  registry : Registry
  base : Url
  /-- The URLs entered, the current one first. -/
  entered : List Url := []
  aliases : List (String × String) := []

namespace Resolver

/-! ## Scopes -/

def scope (resolver : Resolver) : Url :=
  resolver.entered.head?.getD resolver.base

def depth (resolver : Resolver) : Nat := resolver.entered.length

def enter (resolver : Resolver) (url : Url) : Resolver :=
  { resolver with entered := url :: resolver.entered }

/-- Enters an identifier, which is relative to the current scope. -/
def enterId (resolver : Resolver) (id : String) : Except UrlError Resolver :=
  (resolver.scope.join id).map resolver.enter

/-- The base is never left. -/
def leave (resolver : Resolver) : Resolver :=
  { resolver with entered := resolver.entered.drop 1 }

/-! ## Aliases -/

def addAlias (resolver : Resolver) (url target : Url) : Resolver :=
  let url := url.withoutFragment.text
  let target := target.withoutFragment.text
  if url = target then resolver
  else { resolver with aliases := (url, target) :: resolver.aliases }

/-- The document that lookups for a URL land on. -/
def documentOf (resolver : Resolver) (url : Url) : String :=
  let document := url.withoutFragment.text
  (resolver.aliases.lookup document).getD document

/-! ## References -/

/-- The node that a fragment names in a document: the root, what a pointer leads to, or an
anchor. -/
def fragmentTarget? (resolver : Resolver) (document : String) (root : Json) (fragment : String) :
    Option Json :=
  match fragment.toList with
  | [] => some root
  | '/' :: _ => root.pointer? fragment
  | _ => resolver.registry.get? (document ++ "#" ++ fragment)

/-- The node that a URL names, or why there is none. -/
def target (resolver : Resolver) (url : Url) : Except String Json := do
  let document := resolver.documentOf url
  let fragment ← match Percent.decode (url.fragment.getD "").toList with
    | .ok fragment => .ok (String.ofList fragment)
    | .error failure => .error ("fragment is not UTF-8: " ++ failure.message)
  match resolver.registry.get? document with
  | none => .error ("no document is registered as " ++ document)
  | some root =>
    match resolver.fragmentTarget? document root fragment with
    | some node => .ok node
    | none => .error (document ++ " has nothing at #" ++ fragment)

def resolve (resolver : Resolver) (reference : String) : Except Failure (Url × Json) :=
  let fail (reason : String) := Failure.refResolution reference resolver.scope.text reason
  match resolver.scope.join reference with
  | .error e => .error (fail e.message)
  | .ok url => ((resolver.target url).map fun node => (url, node)).mapError fail

/-- Where the anchor that a URL names stands: the URL of its document, and its pointer. -/
def locateAnchor? (resolver : Resolver) (url : Url) : Option (Url × Pointer) := do
  let fragment ← url.fragment
  if fragment.isEmpty || fragment.toList.head? == some '/' then none
  let anchor ← (Percent.decode fragment.toList).toOption
  let (document, pointer) ←
    resolver.registry.locate? (resolver.documentOf url ++ "#" ++ String.ofList anchor)
  return (document.url, pointer)

end Resolver

end SchemaShape
