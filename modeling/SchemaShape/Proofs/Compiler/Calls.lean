import SchemaShape.Proofs.Compiler.Success

/-! # Calls on one compiler

A compiler can be called again and again. Whatever a call meets on its way, identifiers, references
and properties that it goes into or failures that it stops at, it comes back to where it started from:
only its report stays. So a call gives what it would give on a compiler that was never called before.
-/

namespace SchemaShape
set_option autoImplicit false

structure Call where
  schema : Json
  outer : Bool

namespace Compiler

/-- The compiler after some calls, one after another, that succeeded or failed. -/
def afterCalls (c : Compiler) (calls : List Call) : Compiler :=
  calls.foldl (fun c call => (c.compile call.schema call.outer).2) c

/-- A call adds to the report and changes nothing else. What it gives and adds does not depend on what
was reported before. -/
theorem compile_eq (c : Compiler) (schema : Json) (outer : Bool) :
    ∃ result added, ∀ prior, ({ c with diagnostics := prior } : Compiler).compile schema outer =
      (result, { c with diagnostics := prior ++ added }) := by
  obtain ⟨result, added, hgives⟩ := Compile.tidy_upTo c.remaining schema outer c
  exact ⟨result, added, hgives⟩

theorem afterCalls_eq (c : Compiler) (calls : List Call) :
    ∃ added, c.afterCalls calls = { c with diagnostics := c.diagnostics ++ added } := by
  induction calls generalizing c with
  | nil => exact ⟨[], by rw [List.append_nil]; rfl⟩
  | cons call rest ih =>
    obtain ⟨result, first, hcall⟩ := c.compile_eq call.schema call.outer
    have hfirst : (c.compile call.schema call.outer).2 =
        { c with diagnostics := c.diagnostics ++ first } := congrArg Prod.snd (hcall c.diagnostics)
    obtain ⟨others, hrest⟩ := ih { c with diagnostics := c.diagnostics ++ first }
    refine ⟨first ++ others, ?_⟩
    calc c.afterCalls (call :: rest)
        = ({ c with diagnostics := c.diagnostics ++ first } : Compiler).afterCalls rest :=
          congrArg (afterCalls · rest) hfirst
      _ = { c with diagnostics := c.diagnostics ++ first ++ others } := hrest
      _ = { c with diagnostics := c.diagnostics ++ (first ++ others) } := by rw [List.append_assoc]

/-- After any calls, a call leaves the compiler as it was before, apart from what it adds at the end of
the report, and what it gives and adds is what it gives and adds on a fresh compiler. -/
theorem compile_afterCalls (resolver : Resolver) (draft : Draft) (outerName : String) (limit : Nat)
    (calls : List Call) (schema : Json) (outer : Bool) :
    let fresh : Compiler := { Compiler.new resolver draft outerName with maxRefDepth := limit }
    let c := fresh.afterCalls calls
    ∃ result added,
      c.compile schema outer = (result, { c with diagnostics := c.diagnostics ++ added }) ∧
      fresh.compile schema outer = (result, { fresh with diagnostics := added }) := by
  intro fresh c
  obtain ⟨before, hbefore⟩ : ∃ before, c = { fresh with diagnostics := before } :=
    fresh.afterCalls_eq calls
  obtain ⟨result, added, hcall⟩ := fresh.compile_eq schema outer
  refine ⟨result, added, ?_, hcall []⟩
  rw [hbefore]
  exact hcall before

end Compiler

end SchemaShape
