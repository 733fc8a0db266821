import SchemaShape.Proofs.Compiler.Success
import SchemaShape.Proofs.Meaning

/-! # Shapes are wide enough

Every value that is valid for a schema inhabits the shape that the schema is compiled to. What shapes
cannot express is widened: branches that give no shape have no values that they would have to admit,
and `allOf` admits what its first branch admits.

Some schemas are out of range. A reference is described by its target and not by the schema; the
empty `allOf` admits every value, a union of no shapes none; the length of a tuple is fixed; and a
`const` among the properties of a boolean is read as its only value.
-/

namespace SchemaShape
set_option autoImplicit false

open Compile Node

/-! ## Range -/

/-- Whether a schema's `type` is or contains `boolean`. -/
def namesBoolean (schema : Members) : Bool :=
  match schema.get? "type" with
  | some (.string name) => name == "boolean"
  | some (.array types) => types.any fun type => type.asString? == some "boolean"
  | _ => false

def boundsBoth (schema : Members) : Bool :=
  match schema.get? "items" with
  | some (.array _) => schema.contains "minItems" && schema.contains "maxItems"
  | _ => true

def hasBranches (schema : Members) : Bool :=
  match schema.get? "allOf" with
  | some (.array []) => false
  | _ => true

def marksConst (schema : Members) : Bool :=
  match schema.get? "properties" with
  | some (.object properties) => Members.contains properties "const"
  | _ => false

/-- The nodes whose shapes are wide enough. -/
def isApproximated (schema : Members) : Bool :=
  !schema.contains "$ref" && hasBranches schema && boundsBoth schema &&
    !(namesBoolean schema && marksConst schema)

/-- Nothing was left out for want of a shape. -/
def Quiet (added : List Diagnostic) : Prop :=
  ∀ entry ∈ added, entry.kind ≠ .defaultUnsupported

/-- The shape admits what is valid for the schema. -/
def Sound (draft : Draft) (schema : Json) (shape : Shape) : Prop :=
  ∀ value, schema.Valid Keyword.all draft value → value.Inhabits shape

/-! ## Shapes and values -/

theorem Quiet.mono {added added' : List Diagnostic} (h : Quiet added') (hsub : added ⊆ added') :
    Quiet added :=
  fun entry mem => h entry (hsub mem)

theorem not_inhabits_nothing (value : Json) : ¬ value.Inhabits .nothing := by
  rintro ⟨⟩

theorem inhabits_orAny {value : Json} {shape : Shape} (h : value.Inhabits shape) :
    value.Inhabits shape.orAny := by
  cases shape with
  | nothing => exact (not_inhabits_nothing value h).elim
  | _ => exact h

theorem inhabits_filter {value : Json} {shape : Shape} {members : List Shape}
    (mem : shape ∈ members) (h : value.Inhabits shape) :
    value.Inhabits (.union (members.filter (!·.isNothing))) := by
  refine .union (List.mem_filter.mpr ⟨mem, ?_⟩) h
  cases shape with
  | nothing => exact (not_inhabits_nothing value h).elim
  | _ => rfl

theorem same_refl_literal (l : Literal) : l.same l = true := by
  cases l <;> simp [Literal.same, Binary64.sameNumber]

theorem ofJson?_of_equal {a b : Json} {l : Literal} (h : a.Equal b)
    (ha : Literal.ofJson? a = some l) : ∃ l', Literal.ofJson? b = some l' ∧ l'.same l = true := by
  cases h with
  | double hsame =>
    cases ha
    refine ⟨_, rfl, ?_⟩
    rw [Literal.same]
    simp only [Binary64.sameNumber, Bool.or_eq_true, Bool.and_eq_true, decide_eq_true_eq] at hsame ⊢
    rcases hsame with rfl | ⟨hleft, hright⟩
    · exact .inl rfl
    · exact .inr ⟨hright, hleft⟩
  | array => cases ha
  | object => cases ha
  | _ => exact ⟨l, ha, same_refl_literal l⟩

namespace Node

variable {inner : Inner} {schema : Members} {c : Compiler} {added : List Diagnostic} {shape : Shape}

/-- The shapes of the schemas inside one are wide enough. -/
def SoundInners (draft : Draft) (schema : Members) (inner : Inner) : Prop :=
  ∀ part, Subschema schema part → ∀ added shape, (inner part).Yields draft added shape →
    Quiet added → Sound draft part shape

theorem sound_enumeration {values : Json} (mem : ("enum", values) ∈ schema)
    (h : (enumeration values).Gives c (.ok shape) added) : Sound c.draft (.object schema) shape := by
  intro value hvalid
  obtain ⟨items, members, rfl, rfl, hmembers⟩ := enumeration_ok h
  obtain ⟨allowed, hallowed, hequal⟩ := hvalid.enum (by decide) mem
  obtain ⟨member, hmember, hcases⟩ := exists_of_forall₂ hmembers hallowed
  refine .union hmember ?_
  rcases hcases with ⟨l, hl, rfl⟩ | ⟨-, rfl⟩
  · obtain ⟨l', hl', hsame⟩ := ofJson?_of_equal hequal hl
    exact .literal hl' hsame
  · exact value.inhabits_any

theorem inhabits_anyOf {keyword : String} {items : List Json} {value branch : Json}
    (hkeyword : keyword ∈ branchKeywords) (hget : schema.get? keyword = some (.array items)) (tidy : TidyInners schema inner)
    (sound : SoundInners c.draft schema inner) (quiet : Quiet added)
    (h : (anyOf inner keyword (.array items)).Gives c (.ok shape) added) (mem : branch ∈ items)
    (hvalid : branch.Valid Keyword.all c.draft value) : value.Inhabits shape := by
  obtain ⟨items', members, heq, rfl, hmembers⟩ := anyOf_ok hkeyword hget tidy h
  cases heq
  obtain ⟨member, hmember, hyields⟩ := exists_of_forall₂ hmembers mem
  have hsound := sound branch (.branch hkeyword hget mem) added member hyields.yields
    quiet
  exact inhabits_filter hmember (hsound value hvalid)

theorem sound_object {outer : Bool} {own : Members} (tidy : TidyInners schema inner)
    (sound : SoundInners c.draft schema inner) (quiet : Quiet added)
    (h : (object inner schema outer).Gives c (.ok shape) added)
    (hvalid : (Json.object schema).Valid Keyword.all c.draft (.object own)) :
    (Json.object own).Inhabits shape := by
  rcases object_ok tidy h with ⟨-, rfl⟩ | ⟨properties, fields, hget, rfl, hfields⟩
  · exact .mapping fun _ value _ => value.inhabits_any
  · have mem := Members.mem_of_get? hget
    refine .record (fun field hfield hrequired => ?_) fun field hfield value hvalue => ?_
    · obtain ⟨_, _, -, heq, -⟩ := hfields field hfield
      rw [heq, List.contains_iff_mem] at hrequired
      obtain ⟨names, hnames, hname⟩ := mem_requiredNames_iff.mp hrequired
      exact hvalid.required (by decide) (Members.mem_of_get? hnames) hname
    · obtain ⟨part, reported, hpart, -, hgives, hsub, -⟩ := hfields field hfield
      have hsound := sound part (.property hget hpart) added field.shape
        ⟨c.atProperty field.key, reported, rfl, hgives, hsub⟩ quiet
      exact hsound value (hvalid.property (by decide) mem hpart hvalue)

theorem length_of_valid {items values : List Json} {draft : Draft}
    (formed : (Json.object schema).wellFormed = true) (happrox : isApproximated schema = true)
    (hget : schema.get? "items" = some (.array items))
    (hbounds : ∀ keyword ∈ ["minItems", "maxItems"], schema.get? keyword = none ∨
      ∃ bound, schema.get? keyword = some (.number bound) ∧
        bound.toBinary64.sameNumber (Binary64.ofInt items.length) = true)
    (hvalid : (Json.object schema).Valid Keyword.all draft (.array values)) :
    values.length = items.length := by
  have hitems : (Json.array items).wellFormed = true :=
    (Json.within_get? hget).wellFormed formed
  have hlength : items.length < 2 ^ 53 := by
    rw [Json.wellFormed, Bool.and_eq_true, decide_eq_true_eq] at hitems
    exact hitems.1
  have hbound : ∀ keyword ∈ ["minItems", "maxItems"], ∃ bound,
      (keyword, Json.number bound) ∈ schema ∧ bound.toRat = items.length := by
    intro keyword mem
    have hpresent : (schema.get? keyword).isSome := by
      simp only [isApproximated, boundsBoth, hget, Bool.and_eq_true] at happrox
      simp only [List.mem_cons, List.not_mem_nil, or_false] at mem
      rcases mem with rfl | rfl
      · rw [← Members.contains_eq]
        exact happrox.1.2.1
      · rw [← Members.contains_eq]
        exact happrox.1.2.2
    rcases hbounds keyword mem with hnone | ⟨bound, hsome, hsame⟩
    · rw [hnone] at hpresent
      cases hpresent
    · refine ⟨bound, Members.mem_of_get? hsome, Number.toRat_of_sameNumber hlength ?_ hsame⟩
      rintro value rfl
      have hinteger := (Json.within_get? hsome).wellFormed formed
      rw [Json.wellFormed, decide_eq_true_eq] at hinteger
      omega
  obtain ⟨least, hleast, hleast'⟩ := hbound "minItems" (by simp)
  obtain ⟨most, hmost, hmost'⟩ := hbound "maxItems" (by simp)
  have hle := hvalid.minItems (by decide) hleast
  have hge := hvalid.maxItems (by decide) hmost
  rw [hleast', Nat.cast_le] at hle
  rw [hmost', Nat.cast_le] at hge
  omega

theorem sound_array {values : List Json} (formed : (Json.object schema).wellFormed = true)
    (happrox : isApproximated schema = true) (tidy : TidyInners schema inner)
    (sound : SoundInners c.draft schema inner) (quiet : Quiet added)
    (h : (array inner schema).Gives c (.ok shape) added)
    (hvalid : (Json.object schema).Valid Keyword.all c.draft (.array values)) :
    (Json.array values).Inhabits shape := by
  rcases array_ok tidy h with rfl | ⟨items, elements, hget, rfl, hbounds, helements⟩ |
    ⟨item, element, hget, hitem, rfl, hyields⟩
  · exact .list fun value _ => value.inhabits_any
  · have mem := Members.mem_of_get? hget
    have hlength := length_of_valid formed happrox hget hbounds hvalid
    obtain ⟨hlength', hyields⟩ := List.forall₂_iff_get.mp helements
    refine .tuple (List.forall₂_map_right_iff.mpr (List.forall₂_iff_get.mpr ⟨by omega, ?_⟩))
    intro position hposition hposition'
    have hin : position < items.length := by omega
    have hsound := sound items[position] (.position hget (List.getElem_mem hin)) added _
      (hyields position hin hposition').yields quiet
    exact inhabits_orAny (hsound _ (hvalid.itemAt (by decide) mem hin
      (List.getElem?_eq_getElem hposition)))
  · have mem := Members.mem_of_get? hget
    refine .list fun value hvalue => inhabits_orAny ?_
    exact sound item (.items hget) added element hyields.yields quiet value
      (hvalid.item (by decide) mem hitem hvalue)

/-! ## Types -/

theorem no_const (happrox : isApproximated schema = true) (hboolean : namesBoolean schema = true) :
    ∀ properties, schema.get? "properties" = some (.object properties) →
      Members.get? properties "const" = none := by
  intro properties hget
  simp only [isApproximated, hboolean, marksConst, hget, Bool.true_and, Bool.and_eq_true,
    Bool.not_eq_true', Members.contains_eq] at happrox
  exact Option.isSome_eq_false_iff.mp happrox.2 |> Option.isNone_iff_eq_none.mp

variable {outer : Bool}

theorem sound_typed {type : TypeName} {value : Json}
    (formed : (Json.object schema).wellFormed = true) (happrox : isApproximated schema = true)
    (tidy : TidyInners schema inner) (sound : SoundInners c.draft schema inner)
    (quiet : Quiet added) (hboolean : type = .boolean → namesBoolean schema = true)
    (h : (typed inner type schema outer).Gives c (.ok shape) added)
    (hadmits : type.Admits c.draft value)
    (hvalid : (Json.object schema).Valid Keyword.all c.draft value) : value.Inhabits shape := by
  cases type with
  | object =>
    cases value with
    | object own => exact sound_object tidy sound quiet h hvalid
    | _ => exact hadmits.elim
  | array =>
    cases value with
    | array values => exact sound_array formed happrox tidy sound quiet h hvalid
    | _ => exact hadmits.elim
  | integer =>
    cases value with
    | number value =>
      rw [integer_ok h]
      cases value with
      | integer value =>
        split
        · exact .scalar trivial
        · exact .union (List.mem_cons_self ..) (.scalar trivial)
      | double value =>
        -- A double is an integer under the later drafts only, where `number` takes it in.
        split
        · next hexact =>
          refine absurd ?_ hadmits.1
          cases hdraft : c.draft with
          | draft04 => rfl
          | draft06 => simp [hdraft, Draft.integersAreExact] at hexact
          | draft07 => simp [hdraft, Draft.integersAreExact] at hexact
        · exact .union (List.mem_cons_of_mem _ (List.mem_cons_self ..)) (.scalar trivial)
    | _ => exact hadmits.elim
  | boolean =>
    have hshape : shape = .scalar .bool := by
      rcases boolean_ok h with hscalar | ⟨properties, const, hget, hconst, -⟩
      · exact hscalar
      · rw [no_const happrox (hboolean rfl) properties hget] at hconst
        cases hconst
    subst hshape
    cases value with
    | bool value => exact .scalar trivial
    | _ => exact hadmits.elim
  | string =>
    obtain ⟨rfl, -⟩ := h.pure_ok
    cases value with
    | string value => exact .scalar trivial
    | _ => exact hadmits.elim
  | number =>
    obtain ⟨rfl, -⟩ := h.pure_ok
    cases value with
    | number value => exact .scalar trivial
    | _ => exact hadmits.elim
  | null =>
    obtain ⟨rfl, -⟩ := h.pure_ok
    cases value with
    | null => exact .scalar trivial
    | _ => exact hadmits.elim
  | any =>
    obtain ⟨rfl, -⟩ := h.pure_ok
    exact value.inhabits_any

theorem ofString?_boolean {name : String} (h : TypeName.ofString? name = some .boolean) :
    name = "boolean" := by
  unfold TypeName.ofString? at h
  split at h <;> first | rfl | cases h

theorem sound_named {name : String} {value : Json}
    (formed : (Json.object schema).wellFormed = true) (happrox : isApproximated schema = true)
    (tidy : TidyInners schema inner) (sound : SoundInners c.draft schema inner)
    (quiet : Quiet added) (hboolean : name = "boolean" → namesBoolean schema = true)
    (h : (named inner name schema outer).Gives c (.ok shape) added)
    (hadmits : nameAdmits c.draft name value)
    (hvalid : (Json.object schema).Valid Keyword.all c.draft value) : value.Inhabits shape := by
  simp only [named] at h
  split at h
  · next values hget => exact sound_enumeration (Members.mem_of_get? hget) h value hvalid
  · split at h
    · next type htype =>
      refine sound_typed formed happrox tidy sound quiet ?_ h (hadmits type htype) hvalid
      rintro rfl
      exact hboolean (ofString?_boolean htype)
    · obtain ⟨_, hlast, -⟩ := h.warn_then_ok (tidy_pure _)
      obtain ⟨rfl, -⟩ := hlast.pure_ok
      exact value.inhabits_any

theorem mem_of_mapM_asString? {types : List Json} {names : List String} {name : String}
    (h : types.mapM Json.asString? = some names) (mem : name ∈ names) :
    ∃ type ∈ types, type.asString? = some name := by
  induction types generalizing names with
  | nil =>
    simp only [List.mapM_nil, Option.pure_def, Option.some.injEq] at h
    subst h
    simp at mem
  | cons type rest ih =>
    simp only [List.mapM_cons, Option.bind_eq_bind, Option.pure_def, Option.bind_eq_some_iff,
      Option.some.injEq] at h
    obtain ⟨first, hfirst, others, hothers, rfl⟩ := h
    rcases List.mem_cons.mp mem with rfl | hrest
    · exact ⟨type, List.mem_cons_self .., hfirst⟩
    · obtain ⟨type', hmem, htype⟩ := ih hothers hrest
      exact ⟨type', List.mem_cons_of_mem _ hmem, htype⟩

theorem sound_listed {types : List Json} {names : List String}
    (formed : (Json.object schema).wellFormed = true) (happrox : isApproximated schema = true)
    (tidy : TidyInners schema inner) (sound : SoundInners c.draft schema inner)
    (quiet : Quiet added) (hget : schema.get? "type" = some (.array types))
    (hnames : types.mapM Json.asString? = some names)
    (h : (listed inner names schema false).Gives c (.ok shape) added) :
    Sound c.draft (.object schema) shape := by
  intro value hvalid
  obtain ⟨houter, -⟩ | ⟨shapes, rfl, hshapes⟩ := listed_ok tidy h
  · cases houter
  obtain ⟨name, hname, hadmits⟩ :=
    hvalid.type (by decide) (Members.mem_of_get? hget) names hnames
  obtain ⟨member, hmember, reported, hgives, hsub⟩ := exists_of_forall₂ hshapes hname
  refine .union hmember (sound_named formed happrox tidy sound (quiet.mono hsub) ?_ hgives hadmits
    hvalid)
  rintro rfl
  obtain ⟨type, hmem, htype⟩ := mem_of_mapM_asString? hnames hname
  rw [namesBoolean, hget]
  exact List.any_eq_true.mpr ⟨type, hmem, by simp [htype]⟩

/-! ## Nodes -/

/-- Of the keywords that stand in for a type, only `default` gives a shape that is not wide enough, and
that is reported. -/
theorem sound_untyped {follow : Follow} (happrox : isApproximated schema = true)
    (tidy : TidyInners schema inner) (sound : SoundInners c.draft schema inner)
    (quiet : Quiet added) (h : (untyped follow inner schema outer).Gives c (.ok shape) added) :
    Sound c.draft (.object schema) shape := by
  intro value hvalid
  have href : schema.get? "$ref" = none := by
    simp only [isApproximated, Members.contains_eq, Bool.and_eq_true, Bool.not_eq_true'] at happrox
    simpa using happrox.1.1.1
  simp only [untyped, href] at h
  split at h
  · next branches hget =>
    obtain ⟨after, hunion, rfl⟩ := h.warn_then_ok (tidy_anyOf (by decide) hget tidy)
    obtain ⟨items, _, rfl, -⟩ := anyOf_ok (by decide) hget tidy hunion
    have mem := Members.mem_of_get? hget
    -- The value is valid for every branch, and one is enough for the union.
    obtain ⟨branch, hbranch⟩ : ∃ branch, branch ∈ items := by
      refine List.exists_mem_of_ne_nil items ?_
      rintro rfl
      simp [isApproximated, hasBranches, hget] at happrox
    refine inhabits_anyOf (by decide) hget tidy sound (quiet.mono ?_) hunion hbranch
      (hvalid.allOf (by decide) mem hbranch)
    exact List.subset_cons_self ..
  · next branches _ hget =>
    obtain ⟨items, _, rfl, -⟩ := anyOf_ok (by decide) hget tidy h
    obtain ⟨branch, hbranch, hbranch'⟩ := hvalid.anyOf (by decide) (Members.mem_of_get? hget)
    exact inhabits_anyOf (by decide) hget tidy sound quiet h hbranch hbranch'
  · next branches _ _ hget =>
    obtain ⟨after, hunion, rfl⟩ := h.warn_then_ok (tidy_anyOf (by decide) hget tidy)
    obtain ⟨items, _, rfl, -⟩ := anyOf_ok (by decide) hget tidy hunion
    obtain ⟨branch, hbranch, hbranch'⟩ := hvalid.oneOf (by decide) (Members.mem_of_get? hget)
    refine inhabits_anyOf (by decide) hget tidy sound (quiet.mono ?_) hunion hbranch hbranch'
    exact List.subset_cons_self ..
  · next values _ _ _ hget => exact sound_enumeration (Members.mem_of_get? hget) h value hvalid
  · split at h
    · obtain ⟨after, -, rfl⟩ := h.warn_then_ok (tidy_pure _)
      exact absurd rfl (quiet _ (List.mem_cons_self ..))
    · obtain ⟨after, hlast, -⟩ := h.warn_then_ok (tidy_pure _)
      obtain ⟨rfl, -⟩ := hlast.pure_ok
      exact value.inhabits_any

theorem sound_members {follow : Follow} (formed : (Json.object schema).wellFormed = true)
    (happrox : isApproximated schema = true) (tidy : TidyInners schema inner)
    (sound : SoundInners c.draft schema inner) (quiet : Quiet added)
    (h : (members follow inner schema false).Gives c (.ok shape) added) :
    Sound c.draft (.object schema) shape := by
  simp only [members] at h
  split at h
  · next name hget =>
    intro value hvalid
    refine sound_named formed happrox tidy sound quiet ?_ h
      (hvalid.type (by decide) (Members.mem_of_get? hget)) hvalid
    rintro rfl
    simp [namesBoolean, hget]
  · next types hget =>
    split at h
    · next names hnames => exact sound_listed formed happrox tidy sound quiet hget hnames h
    · exact h.malformed_ok.elim
  · exact h.malformed_ok.elim
  · exact sound_untyped happrox tidy sound quiet h

theorem sound_shape {depth : Nat} {schema : Json} (formed : schema.wellFormed = true)
    (happrox : schema.everyObject isApproximated = true)
    (tidy : ∀ members, schema = .object members → TidyInners members inner)
    (sound : ∀ members, schema = .object members → SoundInners c.draft members inner)
    (quiet : Quiet added)
    (h : (Node.shape (followUpTo depth) inner schema false).Gives c (.ok shape) added) :
    Sound c.draft schema shape := by
  cases schema with
  | object schema =>
    have happrox' := Json.everyObject_self happrox
    have tidy := tidy schema rfl
    have sound := sound schema rfl
    obtain ⟨place, hinside, hmembers⟩ := shape_ok (tidy_members depth tidy) h
    have hdraft := hinside.draft_eq
    rw [← hdraft] at sound ⊢
    exact sound_members formed happrox' tidy sound quiet hmembers
  | bool admitted =>
    cases admitted with
    | true =>
      obtain ⟨rfl, -⟩ := h.pure_ok
      exact fun value _ => value.inhabits_any
    | false => exact h.unsupported_ok.elim
  | _ => exact h.malformed_ok.elim

end Node

/-! ## Whole schemas -/

theorem Compile.sound_nested {depth height : Nat} {schema : Json} {c : Compiler} {shape : Shape}
    {added : List Diagnostic} (hheight : schema.height ≤ height) (formed : schema.wellFormed = true)
    (happrox : schema.everyObject isApproximated = true) (quiet : Quiet added)
    (h : (nested (followUpTo depth) height schema false).Gives c (.ok shape) added) :
    Sound c.draft schema shape := by
  -- The parts are lower than the schema. They are compiled at places of their own, so `c` varies.
  induction height generalizing schema c shape added with
  | zero => exact absurd hheight (Nat.not_le.mpr schema.height_pos)
  | succ height ih =>
    have hpart : ∀ members part, schema = .object members → Node.Subschema members part →
        part.height ≤ height := by
      rintro members part rfl hpart
      have hlt := hpart.height_lt
      omega
    refine sound_shape formed happrox (fun members hobject part hsub => ?_)
      (fun members hobject part hpart' added shape hyields quiet => ?_) quiet h
    · exact tidy_nested depth height part false (hpart members part hobject hsub)
    · obtain ⟨place, reported, hdraft, hgives, hsub⟩ := hyields
      have hle := hpart members part hobject hpart'
      subst hobject
      rw [← hdraft]
      exact ih hle (hpart'.within.wellFormed formed) (hpart'.within.everyObject happrox)
        (quiet.mono hsub) hgives

/-- A value that is valid for a schema inhabits the schema's shape, provided that compiling it did
not leave out anything for want of a shape. -/
theorem Compiler.compile_sound {c : Compiler} {schema value : Json} {shape : Shape}
    (formed : schema.wellFormed = true) (happrox : schema.everyObject isApproximated = true)
    (h : (c.compile schema false).1 = .ok shape)
    (quiet : Quiet ((c.compile schema false).2.diagnostics.drop c.diagnostics.length))
    (hvalid : schema.Valid Keyword.all c.draft value) : value.Inhabits shape := by
  obtain ⟨result, added, hgives⟩ := tidy_upTo c.remaining schema false c
  have hrun : c.compile schema false = (result, { c with diagnostics := c.diagnostics ++ added }) :=
    hgives.run
  rw [hrun] at h quiet
  subst h
  rw [List.drop_left] at quiet
  rw [upTo_eq] at hgives
  exact sound_nested (Nat.le_refl _) formed happrox quiet hgives value hvalid

/-- A required choice and an optional number. -/
def choiceSchema : Json :=
  .object [("type", .string "object"), ("required", .array [.string "a"]),
    ("properties", .object [("a", .object [("enum", .array [.number (.integer 1), .null])]),
      ("b", .object [("type", .string "number")])])]

theorem compile_sound_choice :
    let c : Compiler := .new { registry := {}, base := Document.defaultUrl } .draft07 "Choice"
    let value := Json.object [("a", .null)]
    choiceSchema.wellFormed = true ∧ choiceSchema.everyObject isApproximated = true ∧
      choiceSchema.Valid Keyword.all c.draft value ∧
      ∃ shape, (c.compile choiceSchema false).1 = .ok shape ∧
        Quiet ((c.compile choiceSchema false).2.diagnostics.drop c.diagnostics.length) ∧
        value.Inhabits shape := by
  intro c value
  have formed : choiceSchema.wellFormed = true := by decide +kernel
  have happrox : choiceSchema.everyObject isApproximated = true := by decide +kernel
  have quiet : Quiet ((c.compile choiceSchema false).2.diagnostics.drop c.diagnostics.length) := by
    rintro entry ⟨⟩
  have hvalid : choiceSchema.Valid Keyword.all c.draft value := by
    rw [choiceSchema, Json.Valid]
    refine ⟨fun _ type mem => ?_, by simp, fun _ properties mem key part hpart inner hget => ?_,
      by simp [value, Members.get?], by simp, by simp, by simp, by simp, by simp, by simp⟩
    · simp only [List.mem_cons, Prod.mk.injEq, String.reduceEq, false_and, or_false, true_and,
        List.not_mem_nil] at mem
      subst mem
      rintro type ⟨⟩
      trivial
    · simp only [List.mem_cons, Prod.mk.injEq, String.reduceEq, false_and, false_or, true_and,
        Json.object.injEq, List.not_mem_nil, or_false] at mem
      subst mem
      simp only [List.mem_cons, Prod.mk.injEq, List.not_mem_nil, or_false] at hpart
      rcases hpart with ⟨rfl, rfl⟩ | ⟨rfl, rfl⟩
      · cases hget
        rw [Json.Valid]
        refine ⟨by simp, fun _ values mem => ⟨.null, ?_, .null⟩, by simp, by simp, by simp, by simp,
          by simp, by simp, by simp, by simp⟩
        simp only [List.mem_cons, Prod.mk.injEq, true_and, List.not_mem_nil, or_false,
          Json.array.injEq] at mem
        rw [mem]
        simp
      · cases hget
  exact ⟨formed, happrox, hvalid, _, rfl, quiet, Compiler.compile_sound formed happrox rfl quiet hvalid⟩

end SchemaShape
