import SchemaShape.Proofs.Compiler.Success

/-! # Compiles under different drafts

A compile asks its draft two things: which identifier a schema has, and how wide `integer` is. So draft-06
and draft-07 cannot be told apart, and draft-04 differs in integers alone where no schema is identified by
its `id`.

Widening the integers in a shape goes along with every way of making shapes. So two compiles of which one
gives the shapes of the other one with their integers widened stay side by side.
-/

namespace SchemaShape
set_option autoImplicit false

open Correspondence Compile

/-! ## Shapes with integers widened -/

namespace Shape

mutual

/-- Every `int` is a number, too. -/
def widened : Shape → Shape
  | scalar .int => union [scalar .int, scalar .number]
  | scalar kind => scalar kind
  | literal value => literal value
  | union members => union (widenedList members)
  | list element => list (widened element)
  | tuple elements => tuple (widenedList elements)
  | mapping value => mapping (widened value)
  | record name outer fields => record name outer (widenedFields fields)
  | nothing => nothing

def widenedList : List Shape → List Shape
  | [] => []
  | shape :: rest => widened shape :: widenedList rest

def widenedFields : List (Field Shape) → List (Field Shape)
  | [] => []
  | ⟨key, required, shape⟩ :: rest => ⟨key, required, widened shape⟩ :: widenedFields rest

end

/-- The change goes along with every way of making shapes from others. -/
structure Homomorphic (change : Shape → Shape) : Prop where
  fixed : ∀ shape : Shape, shape.isFixed = true → change shape = shape
  nothing : ∀ shape : Shape, (change shape).isNothing = shape.isNothing
  union : ∀ members, change (.union members) = .union (members.map change)
  list : ∀ element, change (.list element) = .list (change element)
  tuple : ∀ elements, change (.tuple elements) = .tuple (elements.map change)
  record : ∀ name outer fields, change (.record name outer fields) =
    .record name outer (fields.map fun field => { field with shape := change field.shape })

theorem widenedList_eq (shapes : List Shape) : widenedList shapes = shapes.map widened := by
  induction shapes with
  | nil => rfl
  | cons shape rest ih => rw [widenedList, ih, List.map_cons]

theorem widenedFields_eq (fields : List (Field Shape)) : widenedFields fields =
    fields.map fun field => { field with shape := widened field.shape } := by
  induction fields with
  | nil => rfl
  | cons field rest ih =>
    obtain ⟨key, required, shape⟩ := field
    rw [widenedFields, ih, List.map_cons]

theorem homomorphic_id : Homomorphic id where
  fixed := fun _ _ => rfl
  nothing := fun _ => rfl
  union := fun members => by rw [List.map_id, id]
  list := fun _ => rfl
  tuple := fun elements => by rw [List.map_id, id]
  record := fun name outer fields => congrArg (record name outer) (List.map_id fields).symm

theorem homomorphic_widened : Homomorphic widened where
  fixed := by
    intro shape h
    unfold isFixed at h
    split at h
    · next kind =>
      cases kind with
      | int => cases h
      | _ => rfl
    · rfl
    · rfl
    · rfl
    · rfl
    · cases h
  nothing := by
    intro shape
    cases shape with
    | scalar kind => cases kind <;> rfl
    | _ => rfl
  union := fun members => by rw [widened, widenedList_eq]
  list := fun _ => rfl
  tuple := fun elements => by rw [widened, widenedList_eq]
  record := fun name outer fields => by rw [widened, widenedFields_eq]

end Shape

/-! ## Two compiles under two drafts -/

/-- The second side is under another draft, and gives the shapes of the first one changed. -/
def redrafted (draft draft' : Draft) (change : Shape → Shape) (cut : Failure → Prop) :
    Correspondence where
  admits := fun _ => True
  states := fun c c' => c.draft = draft ∧ c' = { c with draft := draft' }
  shapes := fun shape shape' => shape' = change shape
  flags := Eq
  entries := Eq
  failures := Eq
  cut := cut

section

variable {draft draft' : Draft} {change : Shape → Shape} {cut : Failure → Prop} {watch : Watch}

theorem changed_members {shapes shapes' : List Shape}
    (h : List.Forall₂ (redrafted draft draft' change cut).shapes shapes shapes') :
    shapes' = shapes.map change := by
  induction h with
  | nil => rfl
  | cons hshape _ ih =>
    have heq : _ = change _ := hshape
    rw [heq, ih, List.map_cons]

theorem changed_fields {fields fields' : List (Field Shape)}
    (h : List.Forall₂ (redrafted draft draft' change cut).Fields fields fields') :
    fields' = fields.map fun field => { field with shape := change field.shape } := by
  induction h with
  | nil => rfl
  | @cons field field' rest rest' hfield _ ih =>
    obtain ⟨hkey, hrequired, hshape⟩ := hfield
    have heq : field'.shape = change field.shape := hshape
    rw [ih, List.map_cons, hkey, hrequired, ← heq]

/-- Two drafts that identify a schema in the same way wherever the first side passes the watch lead through
the same compile. -/
theorem redrafted_lockstep (hchange : Shape.Homomorphic change)
    (hinteger : draft'.integerShape = change draft.integerShape)
    (hcut : ∀ schema outer c, watch.Passes (.schema schema outer) c ∨ cut watch.alarm)
    (hids : ∀ schema outer c, watch.Passes (.schema (.object schema) outer) c →
      draft.idOf? schema = draft'.idOf? schema)
    (hrepeated : ∀ reference c, watch.Passes (.repeated reference) c) :
    (redrafted draft draft' change cut).Lockstep watch
      fun _ => (redrafted draft draft' change cut).states where
  watched := fun _ => {
    part := fun h _ => h
    below := by
      rintro c _ tokens ⟨hdraft, rfl⟩
      exact ⟨hdraft, rfl⟩
    atProperty := by
      rintro c _ key ⟨hdraft, rfl⟩
      exact ⟨hdraft, rfl⟩
    passes := fun outer _ _ => (hcut _ outer _).imp_right fun h => ⟨id, h⟩
    ids := by
      rintro schema c _ outer - ⟨rfl, rfl⟩ hpasses
      exact hids schema outer c hpasses
    enters := by
      rintro schema c _ id - ⟨rfl, rfl⟩ -
      exact enters_of_join rfl fun _ _ => ⟨rfl, rfl⟩
    integers := by
      rintro c _ ⟨rfl, rfl⟩
      exact hinteger
    warning := by
      rintro c _ kind message ⟨-, rfl⟩
      rfl
    malformed := by
      rintro c _ reason ⟨-, rfl⟩
      rfl
    unsupported := by
      rintro c _ reason ⟨-, rfl⟩
      rfl
    rootType := by
      rintro c _ types ⟨-, rfl⟩
      rfl
    inner := rfl
    fixed := fun shape h => (hchange.fixed shape h).symm
    nothing := by
      rintro shape _ rfl
      exact (hchange.nothing shape).symm
    union := fun h => by
      rw [changed_members h]
      exact (hchange.union _).symm
    list := by
      rintro element _ rfl
      exact (hchange.list element).symm
    tuple := fun h => by
      rw [changed_members h]
      exact (hchange.tuple _).symm
    record := by
      rintro c _ outer _ fields fields' ⟨-, rfl⟩ rfl hfields
      rw [changed_fields hfields]
      exact (hchange.record _ _ _).symm
    self := by
      rintro schema c _ - ⟨-, rfl⟩ -
      exact (hchange.record c.outerName true []).symm }
  resolves := by
    rintro depth schema c _ reference - ⟨hdraft, rfl⟩ - -
    exact resolvesTo_of_resolve rfl (fun _ _ => rfl) fun _ _ _ =>
      ⟨trivial, .inl rfl, fun _ => ⟨hdraft, rfl⟩⟩
  refCycle := by
    rintro depth c _ reference ⟨-, rfl⟩
    rfl
  repeated := fun reference _ _ => .inl (hrepeated reference _)

theorem redrafted_ends {action action' : Compile Shape} {c c' : Compiler}
    (h : (redrafted draft draft' change cut).Matches (redrafted draft draft' change cut).shapes action
      action' c c') :
    (∃ result added, action.Gives c result added ∧ action'.Gives c' (result.map change) added) ∨
      ∃ failure added, action.Gives c (.error failure) added ∧ cut failure := by
  rcases h with ⟨_, added, _, added', hgives, hgives', houtcomes, hentries⟩ |
    ⟨failure, added, hgives, hcut, -⟩
  · have hadded : added = added' := List.forall₂_eq_eq_eq ▸ hentries
    subst hadded
    refine .inl ?_
    cases houtcomes with
    | value heq =>
      have hshape : _ = change _ := heq
      rw [hshape] at hgives'
      exact ⟨_, added, hgives, hgives'⟩
    | failure heq =>
      have hfailure : _ = _ := heq
      rw [← hfailure] at hgives'
      exact ⟨_, added, hgives, hgives'⟩
  · exact .inr ⟨failure, added, hgives, hcut⟩

theorem redrafted_upTo (laws : (redrafted draft draft' change cut).Lockstep watch
      fun _ => (redrafted draft draft' change cut).states)
    (depth : Nat) (schema : Json) (outer : Bool) {c : Compiler} (hdraft : c.draft = draft) :
    (∃ result added, (watch.upTo depth schema outer).Gives c result added ∧
      (upTo depth schema outer).Gives { c with draft := draft' } (result.map change) added) ∨
      ∃ failure added, (watch.upTo depth schema outer).Gives c (.error failure) added ∧ cut failure := by
  have hmatches : (redrafted draft draft' change cut).Matches
      (redrafted draft draft' change cut).shapes (watch.upTo depth schema outer)
      (upTo (0 + depth) schema outer) c { c with draft := draft' } :=
    laws.upTo laws.refused depth trivial rfl rfl ⟨hdraft, rfl⟩
  rw [Nat.zero_add] at hmatches
  exact redrafted_ends hmatches

end

/-! ## The drafts -/

/-- All drafts identify the schema in the same way: it has a `$id`, or no `id` either. -/
def Draft.agreeOn (schema : Json) : Bool :=
  ((schema.get? "$id").bind Json.asString?).isSome || ((schema.get? "id").bind Json.asString?).isNone

/-- What is expected where no schema is compiled that is identified by its `id`. -/
def identifiedAlike : Moment → Compiler → Bool
  | .schema schema _, _ => Draft.agreeOn schema
  | .repeated _, _ => true

theorem Draft.idOf?_of_agreeOn {schema : Members} (h : Draft.agreeOn (.object schema) = true) :
    Draft.draft04.idOf? schema = Draft.draft07.idOf? schema := by
  rw [Draft.agreeOn, Bool.or_eq_true, Option.isSome_iff_exists, Option.isNone_iff_eq_none] at h
  rcases h with ⟨id, hid⟩ | hnone
  · have hown : (Members.get? schema "$id").bind Json.asString? = some id := hid
    simp only [Draft.idOf?, hown]
  · have hold : (Members.get? schema "id").bind Json.asString? = none := hnone
    simp only [Draft.idOf?, hold]

/-- Under draft-06 a compile gives and reports what it does under draft-07. Where a compile under draft-04
meets no schema that is identified by its `id`, a compile under draft-07 reports the same, and gives the
same with every integer widened. -/
theorem Compiler.compile_drafts (resolver : Resolver) (outerName : String) (limit : Nat)
    (schema : Json) (outer : Bool) :
    let compiler (draft : Draft) : Compiler :=
      { Compiler.new resolver draft outerName with maxRefDepth := limit }
    let run (draft : Draft) := (compiler draft).compile schema outer
    ((run .draft06).1 = (run .draft07).1 ∧
      (run .draft06).2.diagnostics = (run .draft07).2.diagnostics) ∧
    ((compiler .draft04).MeetsOnly identifiedAlike schema outer →
      (run .draft07).1 = (run .draft04).1.map Shape.widened ∧
        (run .draft07).2.diagnostics = (run .draft04).2.diagnostics) := by
  intro compiler run
  constructor
  · have laws : (redrafted .draft06 .draft07 id fun _ => False).Lockstep .idle fun _ =>
        (redrafted .draft06 .draft07 id fun _ => False).states :=
      redrafted_lockstep Shape.homomorphic_id rfl (fun _ _ _ => .inl rfl) (fun _ _ _ _ => rfl)
        fun _ _ => rfl
    have hdraft : (compiler .draft06).draft = .draft06 := rfl
    rcases redrafted_upTo laws limit schema outer hdraft with
      ⟨result, added, hgives, hgives'⟩ | ⟨_, _, _, hcut⟩
    · rw [Watch.upTo_idle] at hgives
      have hrun : run .draft06 = (result, { compiler .draft06 with diagnostics := added }) :=
        hgives.run
      have hrun' : run .draft07 = (result.map id, { compiler .draft07 with diagnostics := added }) :=
        hgives'.run
      rw [hrun, hrun', Except.map_id]
      exact ⟨rfl, rfl⟩
    · exact hcut.elim
  · intro hmeets
    obtain ⟨alarm, hwatched, hother⟩ := hmeets.exists_alarm
    have laws : (redrafted .draft04 .draft07 Shape.widened (· = alarm)).Lockstep
        ⟨identifiedAlike, alarm⟩ fun _ =>
          (redrafted .draft04 .draft07 Shape.widened (· = alarm)).states :=
      redrafted_lockstep Shape.homomorphic_widened rfl (fun _ _ _ => .inr rfl)
        (fun _ _ _ hpasses => Draft.idOf?_of_agreeOn hpasses) fun _ _ => rfl
    have hdraft : (compiler .draft04).draft = .draft04 := rfl
    rcases redrafted_upTo laws limit schema outer hdraft with
      ⟨result, added, hgives, hgives'⟩ | ⟨failure, _, hgives, rfl⟩
    · have hrun : run .draft04 = (result, { compiler .draft04 with diagnostics := added }) :=
        hwatched.symm.trans hgives.run
      have hrun' : run .draft07 =
          (result.map Shape.widened, { compiler .draft07 with diagnostics := added }) := hgives'.run
      rw [hrun, hrun']
      exact ⟨rfl, rfl⟩
    -- The alarm is not what the compile gives.
    · have hrun : run .draft04 = (.error failure, _) := hwatched.symm.trans hgives.run
      exact absurd (congrArg Prod.fst hrun) hother

/-- A count that may be missing. Its `$id` goes before its `id`. -/
def countSchema : Json :=
  .object [("$id", .string "#count"), ("id", .string "count.json"),
    ("type", .array [.string "integer", .string "null"])]

def countCompiler (draft : Draft) : Compiler :=
  Compiler.new { registry := Registry.empty, base := Document.defaultUrl } draft "Count"

theorem compile_drafts_count :
    let run (draft : Draft) := (countCompiler draft).compile countSchema false
    (countCompiler .draft04).MeetsOnly identifiedAlike countSchema false ∧
      (run .draft04).1 = .ok (.union [.scalar .int, .scalar .null]) ∧
      (run .draft07).1 =
        .ok (.union [.union [.scalar .int, .scalar .number], .scalar .null]) ∧
      (run .draft07).1 = (run .draft04).1.map Shape.widened ∧
      (run .draft07).2.diagnostics = (run .draft04).2.diagnostics := by
  intro run
  have hmeets : (countCompiler .draft04).MeetsOnly identifiedAlike countSchema false := fun _ => rfl
  have hgives : (run .draft04).1 = .ok (.union [.scalar .int, .scalar .null]) := rfl
  have hgives' : (run .draft07).1 =
      .ok (.union [.union [.scalar .int, .scalar .number], .scalar .null]) := rfl
  exact ⟨hmeets, hgives, hgives', (Compiler.compile_drafts (countCompiler .draft04).resolver "Count" 32
    countSchema false).2 hmeets⟩

end SchemaShape
