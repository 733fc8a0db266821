import SchemaShape.Proofs.Compiler.Making
import SchemaShape.Proofs.Compiler.Reports

/-! # The form of compiled shapes

Not every shape comes out of a compile. Nothing is left out or widened on every way up, through any
number of references, so it can only be all of the result; mappings are always to anything; and the
reserved names under `properties` give no fields. A success reports warnings at most.
-/

namespace SchemaShape
set_option autoImplicit false

open Compile

namespace Shape

/-- There is nothing strictly inside, mappings are to anything, and no field has a reserved name. -/
structure Compiled (shape : Shape) : Prop where
  inside : ∀ path, shape.At path .nothing → path = []
  mapping : ∀ path value, shape.At path (.mapping value) → value = .any
  fields : ∀ path name outer fields, shape.At path (.record name outer fields) →
    ∀ field ∈ fields, field.key ≠ "default" ∧ field.key ≠ "const"

theorem compiled_of_flat {shape : Shape} (h : shape.isFlat = true) : shape.Compiled where
  inside path hat := by cases hat.flat h
  mapping path value hat := Shape.eq_any_of_flat (hat.flat h)
  fields path name outer fields hat := by cases hat.flat h

theorem compiled_of_parts {shape : Shape}
    (hmapping : ∀ value, shape = .mapping value → value = .any)
    (hfields : ∀ name outer fields, shape = .record name outer fields →
      ∀ field ∈ fields, field.key ≠ "default" ∧ field.key ≠ "const")
    (h : ∀ hop part, Part shape hop part → part.Compiled ∧ part ≠ .nothing) : shape.Compiled where
  inside path hat := by
    cases hat with
    | here => rfl
    | inside hpart hrest =>
      obtain ⟨hcompiled, hsome⟩ := h _ _ hpart
      obtain rfl := hcompiled.inside _ hrest
      cases hrest
      exact absurd rfl hsome
  mapping path value hat := by
    cases hat with
    | here => exact hmapping value rfl
    | inside hpart hrest => exact (h _ _ hpart).1.mapping _ value hrest
  fields path name outer fields hat := by
    cases hat with
    | here => exact hfields name outer fields rfl
    | inside hpart hrest => exact (h _ _ hpart).1.fields _ name outer fields hrest

theorem compiled_orAny {shape : Shape} (h : shape.Compiled) :
    shape.orAny.Compiled ∧ shape.orAny ≠ .nothing := by
  rcases shape.orAny_eq with ⟨heq, hsome⟩ | heq
  · rw [heq]
    exact ⟨h, hsome⟩
  · rw [heq]
    exact ⟨compiled_of_flat rfl, nofun⟩

end Shape

/-- A shape that is made has the form, and is nothing only if an unsupported `default` was reported. -/
theorem Made.compiled {outerName : String} {added : List Diagnostic} {origin : Origin}
    {names : List String} {outer : Bool} {shape : Shape}
    (h : Made outerName added origin names outer shape) :
    shape.Compiled ∧ (shape = .nothing →
      origin = .node ∧ ∃ entry ∈ added, entry.kind = .defaultUnsupported) := by
  induction h with
  | flat h =>
    refine ⟨Shape.compiled_of_flat h, ?_⟩
    rintro rfl
    cases h
  | @record names outer fields hkeys hsome _ ih =>
    refine ⟨Shape.compiled_of_parts nofun ?_ ?_, nofun⟩
    · rintro _ _ _ ⟨⟩ field mem
      simpa [Node.reservedNames] using hkeys field mem
    · intro hop part hpart
      cases hpart with
      | @field _ _ _ field mem =>
        refine ⟨(ih field mem).1, fun heq => ?_⟩
        have hnothing := hsome field mem
        rw [heq] at hnothing
        cases hnothing
  | list _ ih =>
    refine ⟨Shape.compiled_of_parts nofun nofun fun hop part hpart => ?_, nofun⟩
    cases hpart with
    | element => exact Shape.compiled_orAny ih.1
  | tuple _ ih =>
    refine ⟨Shape.compiled_of_parts nofun nofun fun hop part hpart => ?_, nofun⟩
    cases hpart with
    | position mem =>
      obtain ⟨element, helement, rfl⟩ := List.mem_map.mp mem
      exact Shape.compiled_orAny (ih element helement).1
  | typed _ ih => exact ⟨ih.1, fun heq => ⟨rfl, (ih.2 heq).2⟩⟩
  | types _ ih =>
    refine ⟨Shape.compiled_of_parts nofun nofun fun hop part hpart => ?_, nofun⟩
    cases hpart with
    | member mem =>
      refine ⟨(ih part mem).1, fun heq => ?_⟩
      cases ((ih part mem).2 heq).1
  | branches _ ih =>
    refine ⟨Shape.compiled_of_parts nofun nofun fun hop part hpart => ?_, nofun⟩
    cases hpart with
    | member mem =>
      obtain ⟨hmember, hkept⟩ := List.mem_filter.mp mem
      refine ⟨(ih part hmember).1, ?_⟩
      rintro rfl
      cases hkept
  | itself =>
    refine ⟨Shape.compiled_of_parts nofun ?_ fun hop part hpart => ?_, nofun⟩
    · rintro _ _ _ ⟨⟩
      nofun
    · cases hpart with
      | field mem => cases mem
  | nothing mem hkind =>
    refine ⟨Shape.compiled_of_parts nofun nofun fun hop part hpart => ?_, fun _ => ⟨rfl, _, mem, hkind⟩⟩
    cases hpart

theorem Node.Reports.kind_ne {schema : Members} {tokens : Pointer} {value : Json}
    {kind : Diagnostic.Kind} {message : String} (h : Node.Reports schema tokens value kind message) :
    kind ≠ .notARecord := by
  cases h <;> nofun

/-- A compile that succeeds gives a shape of the form, which is nothing only if an unsupported `default`
was reported on the way, and it reports warnings about the schema. -/
theorem Compiler.compile_forms {c : Compiler} {schema : Json} {outer : Bool} {shape : Shape}
    (hrun : (c.compile schema outer).1 = .ok shape) :
    ∃ added, (c.compile schema outer).2.diagnostics = c.diagnostics ++ added ∧
      shape.Compiled ∧
      (shape = .nothing → ∃ entry ∈ added, entry.kind = .defaultUnsupported) ∧
      ∀ entry ∈ added, entry.severity = .warning ∧ entry.kind ≠ .notARecord := by
  obtain ⟨result, added, hgives, hadded⟩ :=
    (notes_upTo c.remaining .root : (upTo c.remaining schema outer).Notes c (Reported c schema))
  have hcompile : c.compile schema outer =
      (result, { c with diagnostics := c.diagnostics ++ added }) := hgives.run
  rw [hcompile] at hrun
  subst hrun
  obtain ⟨hcompiled, hnothing⟩ := (makes_upTo c.remaining schema outer c shape added hgives).compiled
  refine ⟨added, by rw [hcompile], hcompiled, fun heq => (hnothing heq).2, fun entry mem => ?_⟩
  obtain ⟨followed, place, node, tokens, value, -, hspeaks⟩ := hadded entry mem
  refine ⟨?_, hspeaks.reports.kind_ne⟩
  rw [hspeaks.eq_warning]
  rfl

/-- A choice of a schema that gives nothing behind a reference, and of a list of such things. -/
def unfilledSchema : Json :=
  .object [("anyOf", .array [.object [("$ref", .string "#/definitions/unset")],
      .object [("type", .string "array"), ("items", .object [("$ref", .string "#/definitions/unset")])]]),
    ("definitions", .object [("unset", .object [("default", .null)])])]

def unfilledCompiler : Compiler :=
  let registry := Registry.empty.insert ⟨Document.defaultUrl, unfilledSchema⟩
  Compiler.new { registry, base := Document.defaultUrl } .draft07 "Unfilled"

theorem compile_forms_unfilled :
    let run := unfilledCompiler.compile unfilledSchema true
    let shape := Shape.union [.list .any]
    run.1 = .ok shape ∧ ∃ added, run.2.diagnostics = unfilledCompiler.diagnostics ++ added ∧
      shape.Compiled ∧ (shape = .nothing → ∃ entry ∈ added, entry.kind = .defaultUnsupported) ∧
      ∀ entry ∈ added, entry.severity = .warning ∧ entry.kind ≠ .notARecord := by
  have hrun : (unfilledCompiler.compile unfilledSchema true).1 = .ok (.union [.list .any]) := by
    decide +kernel
  exact ⟨hrun, Compiler.compile_forms hrun⟩

end SchemaShape
