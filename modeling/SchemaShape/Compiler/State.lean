import SchemaShape.Diagnostic
import SchemaShape.Location
import SchemaShape.Name
import SchemaShape.Resolver
import SchemaShape.Shape.Basic

/-! # The state of a compile

A compiler holds what stays the same during a compile, the place it is at, and the diagnostics so
far. An action on it gives a value or a failure and the compiler afterwards. Actions that go
somewhere, `descend` and the like, come back on success and on failure.
-/

namespace SchemaShape
set_option autoImplicit false

structure Compiler where
  draft : Draft
  outerName : String
  /-- How many references may be followed inside one another. -/
  maxRefDepth : Nat := 32
  /-- Whether a reference that is being followed already is refused at once, and not only at the
  limit. -/
  refusesRepeats : Bool := true
  resolver : Resolver
  /-- The URLs of the references being followed, the innermost first. -/
  active : List String := []
  /-- The property names on the way to the current node. -/
  names : List String := []
  location : Location
  diagnostics : List Diagnostic := []

def Compile (α : Type) : Type := Compiler → Except Failure α × Compiler

namespace Compile

instance : Monad Compile where
  pure a := fun c => (.ok a, c)
  bind action next := fun c =>
    match action c with
    | (.ok a, c) => next a c
    | (.error e, c) => (.error e, c)

/-! ## Failing and warning -/

def fail {α : Type} (failure : Compiler → Failure) : Compile α :=
  fun c => (.error (failure c), c)

def malformed {α : Type} (reason : String) : Compile α :=
  fail fun c => .malformedSchema reason c.location.text

def unsupported {α : Type} (reason : String) : Compile α :=
  fail fun c => .unsupportedSchema reason c.location.text

def warn (kind : Diagnostic.Kind) (message : String) : Compile Unit :=
  fun c =>
    let entry : Diagnostic := ⟨.warning, kind, message, c.location.text⟩
    (.ok (), { c with diagnostics := c.diagnostics ++ [entry] })

def inspect {α : Type} (f : Compiler → α) : Compile α :=
  fun c => (.ok (f c), c)

/-! ## Going somewhere and coming back -/

/-- Runs an action between two changes of the compiler. -/
def between {α : Type} (enter leave : Compiler → Compiler) (action : Compile α) : Compile α :=
  fun c =>
    let (result, c) := action (enter c)
    (result, leave c)

def descend {α : Type} (tokens : List String) : Compile α → Compile α :=
  between (fun c => { c with location := c.location.descend tokens })
    (fun c => { c with location := c.location.ascend tokens.length })

def descendProperty {α : Type} (key : String) (action : Compile α) : Compile α :=
  between (fun c => { c with names := c.names ++ [key] })
    (fun c => { c with names := c.names.dropLast })
    (descend ["properties", key] action)

def inScope {α : Type} (id : String) (action : Compile α) : Compile α :=
  fun c =>
    match c.resolver.enterId id with
    | .error e =>
      malformed ("bad identifier " ++ Text.quoted id ++ ": " ++ e.message) c
    | .ok resolver =>
      between (fun c => { c with resolver }) (fun c => { c with resolver := c.resolver.leave })
        action c

/-- Runs an action at the target of a reference, and then goes on where the reference stands. -/
def atTarget {α : Type} (url : Url) (location : Location) (action : Compile α) : Compile α :=
  fun c =>
    between
      (fun c => { c with
        location, active := url.text :: c.active, resolver := c.resolver.enter url })
      (fun after => { after with
        location := c.location, active := after.active.drop 1, resolver := after.resolver.leave })
      action c

end Compile

def Compiler.recordName (c : Compiler) : String :=
  c.outerName ++ String.join (c.names.map Name.ofTitle)

end SchemaShape
