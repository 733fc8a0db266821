import SchemaShape.Proofs.Compiler.Success
import SchemaShape.Proofs.Shape

/-! # Enumerations

An `enum` of scalars is the union of its values, whatever else its node says. It is looked for inside the
rule of each type, though, and not before the types of the node: a list of types gives a union with one
copy of the enumeration for each of them, and an empty list loses the enumeration.
-/

namespace SchemaShape
set_option autoImplicit false

open Compile

/-- A value without parts. -/
def Json.isScalar : Json → Bool
  | .array _ | .object _ => false
  | _ => true

theorem Literal.ofJson?_of_isScalar {value : Json} (h : value.isScalar = true) :
    ∃ l, Literal.ofJson? value = some l := by
  cases value with
  | null => exact ⟨_, rfl⟩
  | bool value => exact ⟨_, rfl⟩
  | string value => exact ⟨_, rfl⟩
  | number value =>
    cases value with
    | integer value =>
      simp only [Literal.ofJson?]
      split
      · exact ⟨_, rfl⟩
      · exact ⟨_, rfl⟩
    | double value => exact ⟨_, rfl⟩
  | array items => cases h
  | object members => cases h

theorem Literal.map_ofJson?_of_isScalar {values : List Json}
    (h : ∀ value ∈ values, value.isScalar = true) :
    ∃ literals : List Literal, values.map Literal.ofJson? = literals.map some := by
  induction values with
  | nil => exact ⟨[], rfl⟩
  | cons value rest ih =>
    obtain ⟨l, hl⟩ := Literal.ofJson?_of_isScalar (h value (List.mem_cons_self ..))
    obtain ⟨literals, hrest⟩ := ih fun other mem => h other (List.mem_cons_of_mem _ mem)
    exact ⟨l :: literals, by rw [List.map_cons, List.map_cons, hl, hrest]⟩

theorem Json.mapM_asString?_string (names : List String) :
    (names.map Json.string).mapM Json.asString? = some names := by
  induction names with
  | nil => rfl
  | cons name rest ih =>
    rw [List.map_cons, List.mapM_cons, ih]
    rfl

namespace Node

variable {inner : Inner} {follow : Follow} {schema : Members} {outer : Bool}
variable {c : Compiler} {values : List Json} {literals : List Literal}

theorem gives_literal {value : Json} {l : Literal} (h : Literal.ofJson? value = some l)
    (c : Compiler) : (literal value).Gives c (.ok (.literal l)) [] := by
  simp only [literal, h]
  exact gives_pure _ c

theorem gives_literals {keyword : String} {position : Nat}
    (h : values.map Literal.ofJson? = literals.map some) :
    (eachItem keyword literal position values).Gives c (.ok (literals.map .literal)) [] := by
  induction values generalizing literals position with
  | nil =>
    obtain rfl := List.map_eq_nil_iff.mp h.symm
    exact gives_pure _ c
  | cons value rest ih =>
    cases literals with
    | nil => cases h
    | cons l literals =>
      rw [List.map_cons, List.map_cons, List.cons.injEq] at h
      exact gives_bind (gives_descend (gives_literal h.1 _))
        (gives_bind (ih h.2) (gives_pure _ c))

theorem gives_enumeration (h : values.map Literal.ofJson? = literals.map some) :
    (enumeration (.array values)).Gives c (.ok (.union (literals.map .literal))) [] :=
  gives_bind (gives_literals h) (gives_pure _ c)

variable (henum : schema.get? "enum" = some (.array values))
  (h : values.map Literal.ofJson? = literals.map some)

include henum h

theorem gives_named_enum (type : String) :
    (named inner type schema outer).Gives c (.ok (.union (literals.map .literal))) [] := by
  simp only [named, henum]
  exact gives_enumeration h

theorem gives_eachName_enum (types : List String) :
    (eachName inner schema outer types).Gives c
      (.ok (types.map fun _ => .union (literals.map .literal))) [] := by
  induction types with
  | nil => exact gives_pure _ c
  | cons type rest ih =>
    exact gives_bind (gives_named_enum henum h type) (gives_bind ih (gives_pure _ c))

/-- Below the root, the enumeration comes once for each of the types. -/
theorem gives_listed_enum (hbelow : outer = true → c.active ≠ []) (types : List String) :
    (listed inner types schema outer).Gives c
      (.ok (.union (types.map fun _ => .union (literals.map .literal)))) [] := by
  have htop : ¬ (outer && c.active.isEmpty) = true := by
    rw [Bool.and_eq_true, List.isEmpty_iff]
    exact fun ⟨houter, hempty⟩ => hbelow houter hempty
  refine gives_bind (gives_inspect (c := c) (f := (·.active.isEmpty)) fun _ => rfl) ?_
  rw [if_neg htop]
  exact gives_bind (gives_eachName_enum henum h types) (gives_pure _ c)

theorem gives_untyped_enum (hleading : ∀ keyword ∈ "$ref" :: branchKeywords, schema.get? keyword = none) :
    (untyped follow inner schema outer).Gives c (.ok (.union (literals.map .literal))) [] := by
  have href := hleading "$ref" (by decide)
  have hallOf := hleading "allOf" (by decide)
  have hanyOf := hleading "anyOf" (by decide)
  have honeOf := hleading "oneOf" (by decide)
  simp only [untyped, href, hallOf, hanyOf, honeOf, henum]
  exact gives_enumeration h

end Node

theorem Node.exists_inside {schema : Members} {c : Compiler}
    (hid : ∀ id, c.draft.idOf? schema = some id → ∃ resolver, c.resolver.enterId id = .ok resolver) :
    ∃ place, Node.Inside schema c place ∧ place.active = c.active := by
  cases hget : c.draft.idOf? schema with
  | none => exact ⟨c, by rw [Node.Inside, hget], rfl⟩
  | some id =>
    obtain ⟨resolver, henter⟩ := hid id hget
    exact ⟨c.within resolver, by rw [Node.Inside, hget]; exact ⟨resolver, henter, rfl⟩, rfl⟩

theorem Compiler.compile_of_members {c place : Compiler} {schema : Members} {outer : Bool}
    {result : Except Failure Shape} {added : List Diagnostic} (hinside : Node.Inside schema c place)
    (h : ∀ follow inner, (Node.members follow inner schema outer).Gives place result added) :
    c.compile (.object schema) outer =
      (result, { c with diagnostics := c.diagnostics ++ added }) := by
  obtain ⟨height, hheight⟩ := (Json.object schema).height_eq_succ
  have hgives : (Compile.upTo c.remaining (.object schema) outer).Gives c result added := by
    rw [Compile.upTo_eq, Compile.schema, hheight]
    exact Node.gives_shape hinside (h _ _)
  exact hgives.run

/-- An `enum` of scalars, in a node whose identifier joins, is the union of the literals of its values, one
for each and in order, and nothing is reported. So it is for any type and for a node without a type that
has no keyword to go by before; a list of types, below the root, repeats that union for each type. -/
theorem Compiler.compile_enum {c : Compiler} {schema : Members} {values : List Json} {outer : Bool}
    (henum : schema.get? "enum" = some (.array values))
    (hscalar : ∀ value ∈ values, value.isScalar = true)
    (hid : ∀ id, c.draft.idOf? schema = some id →
      ∃ resolver, c.resolver.enterId id = .ok resolver) :
    ∃ literals : List Literal, values.map Literal.ofJson? = literals.map some ∧
      ((∃ type, schema.get? "type" = some (.string type)) ∨
          (schema.get? "type" = none ∧
            ∀ keyword ∈ "$ref" :: Node.branchKeywords, schema.get? keyword = none) →
        c.compile (.object schema) outer = (.ok (.union (literals.map .literal)), c)) ∧
      ∀ types : List String, schema.get? "type" = some (.array (types.map .string)) →
        (outer = true → c.active ≠ []) →
        c.compile (.object schema) outer =
          (.ok (.union (types.map fun _ => .union (literals.map .literal))), c) := by
  obtain ⟨literals, hliterals⟩ := Literal.map_ofJson?_of_isScalar hscalar
  obtain ⟨place, hinside, hactive⟩ := Node.exists_inside hid
  have hquiet : ({ c with diagnostics := c.diagnostics ++ [] } : Compiler) = c := by
    rw [List.append_nil]
  refine ⟨literals, hliterals, ?_, ?_⟩
  · intro htype
    rw [Compiler.compile_of_members hinside, hquiet]
    intro follow inner
    rcases htype with ⟨type, htype⟩ | ⟨htype, hleading⟩
    · simp only [Node.members, htype]
      exact Node.gives_named_enum henum hliterals type
    · simp only [Node.members, htype]
      exact Node.gives_untyped_enum henum hliterals hleading
  · intro types htypes hbelow
    rw [Compiler.compile_of_members hinside, hquiet]
    intro follow inner
    simp only [Node.members, htypes, Json.mapM_asString?_string]
    exact Node.gives_listed_enum henum hliterals (hactive ▸ hbelow) types

/-- A choice whose type admits none of its values, in a scope of its own, with keywords that would fail. -/
def choiceMembers : Members :=
  [("$id", .string "choice.json"), ("type", .string "boolean"), ("$ref", .string "#/missing"),
    ("items", .bool false), ("enum", .array [.string "a", .number (.integer 2), .null])]

def choiceCompiler : Compiler :=
  Compiler.new { registry := Registry.empty, base := Document.defaultUrl } .draft07 "Choice"

theorem compile_enum_choice :
    choiceCompiler.compile (.object choiceMembers) false =
      (.ok (.union [.literal (.string "a"), .literal (.int 2), .literal .null]), choiceCompiler) := by
  have henum : choiceMembers.get? "enum" =
      some (.array [.string "a", .number (.integer 2), .null]) := rfl
  have hid : ∀ id, choiceCompiler.draft.idOf? choiceMembers = some id →
      ∃ resolver, choiceCompiler.resolver.enterId id = .ok resolver := by
    intro id hget
    obtain rfl : "choice.json" = id := Option.some.inj hget
    exact ⟨_, rfl⟩
  obtain ⟨literals, hliterals, hflat, -⟩ := Compiler.compile_enum henum (by decide) hid
  obtain rfl : [.string "a", .int 2, .null] = literals :=
    List.map_injective_iff.mpr (fun _ _ => Option.some.inj) hliterals
  exact hflat (.inl ⟨"boolean", rfl⟩)

/-- A list of types repeats the union of the literals, and an empty list loses them. -/
theorem compile_enum_repeated :
    let choice (types : List Json) : Json :=
      .object [("type", .array types), ("enum", .array [.string "a", .null])]
    let flat := Shape.union [.literal (.string "a"), .literal .null]
    let twice := choiceCompiler.compile (choice [.string "string", .string "null"]) false
    let never := choiceCompiler.compile (choice []) false
    twice.1 = .ok (.union [flat, flat]) ∧ twice.1 ≠ .ok flat ∧
      never.1 = .ok (.union []) ∧ never.1 ≠ .ok flat := by
  decide +kernel

end SchemaShape
