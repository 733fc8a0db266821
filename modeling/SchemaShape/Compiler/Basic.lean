import SchemaShape.Compiler.Node

/-! # Compiling schemas

A schema is compiled node by node. Inside one document the nesting of the schema bounds the recursion;
a reference starts over at its target, and the limit on references inside one another bounds that.
-/

namespace SchemaShape
set_option autoImplicit false

namespace Compile

/-- Compiles a schema that nests at most `height` deep. -/
def nested (follow : Node.Follow) : (height : Nat) → Json → Bool → Compile Shape
  | 0, _, _ => pure .any
  | height + 1, schema, outer =>
    Node.shape follow (fun inner => nested follow height inner false) schema outer

def schema (follow : Node.Follow) (schema : Json) (outer : Bool) : Compile Shape :=
  nested follow schema.height schema outer

def refuse (reference : String) : Compile Shape :=
  fail fun c => .refCycle reference c.location.text c.active.length

/-- Where the target of a reference stands. The place of an anchor is given by its pointer, which
the tokens further in extend. -/
def targetLocation (resolver : Resolver) (url : Url) : Location :=
  match resolver.locateAnchor? url with
  | some (document, pointer) => { document := document.text, tokens := pointer }
  | none => Location.ofUrl url

/-- Follows a reference: compiles its target, in the target's scope. -/
def followTo (compile : Json → Bool → Compile Shape) : Node.Follow := fun reference outer c =>
  match c.resolver.resolve reference with
  | .error failure => (.error failure, c)
  | .ok (url, target) =>
    if c.refusesRepeats && c.active.contains url.text then refuse reference c
    else atTarget url (targetLocation c.resolver url) (compile target outer) c

/-- Compiles a schema from which `depth` references may be followed inside one another. -/
def upTo : (depth : Nat) → Json → Bool → Compile Shape
  | 0 => schema fun reference _ => refuse reference
  | depth + 1 => schema (followTo (upTo depth))

end Compile

namespace Compiler

def new (resolver : Resolver) (draft : Draft) (outerName : String) : Compiler :=
  { draft, outerName, resolver, location := Location.ofUrl resolver.scope }

/-- How many more references may be followed. -/
def remaining (c : Compiler) : Nat := c.maxRefDepth - c.active.length

/-- The shape of a schema, at the root position if `outer`, and the compiler with the diagnostics
that were added. -/
def compile (c : Compiler) (schema : Json) (outer : Bool) : Except Failure Shape × Compiler :=
  Compile.upTo c.remaining schema outer c

/-- The shape that the rule of one type gives, whatever type the schema names. -/
def compileAs (c : Compiler) (type : TypeName) (schema : Members) (outer : Bool) :
    Except Failure Shape × Compiler :=
  Node.typed (fun inner => Compile.upTo c.remaining inner false) type schema outer c

end Compiler

end SchemaShape
