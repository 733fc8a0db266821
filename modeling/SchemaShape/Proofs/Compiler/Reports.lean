import SchemaShape.Proofs.Compiler.Success
import SchemaShape.Proofs.Json.Pointer

/-! # What a compile reports, and of what

A warning speaks of a schema or of the value of one of its keywords, and stands at the place of what it
speaks of. `Node.Reports` says which warnings a schema may give rise to, `Node.Selects` which schemas in it
are compiled, and `Compiling` which schemas a compile gets to, and where.

`action.Notes c P` says that the action comes to an end, and that `P` holds of all that it reports.
-/

namespace SchemaShape
set_option autoImplicit false

open Compile

namespace Node

/-! ## Schemas and their keywords -/

/-- The types that a schema names. -/
def typeNames (schema : Members) : List String :=
  match schema.get? "type" with
  | some (.string type) => [type]
  | some (.array types) => (types.mapM Json.asString?).getD []
  | _ => []

/-- A schema goes by the rule of a type if it names the type and lists no values. -/
def Typed (schema : Members) (type : TypeName) : Prop :=
  schema.get? "enum" = none ∧ ∃ name ∈ typeNames schema, TypeName.ofString? name = some type

/-- A schema without a type goes by the first of these that it has. -/
def untypedKeywords : List String := ["$ref", "allOf", "anyOf", "oneOf", "enum", "default"]

def chosen? (schema : Members) : Option String :=
  untypedKeywords.find? schema.contains

/-- A schema without a type goes by a keyword. -/
def Chooses (schema : Members) (keyword : String) : Prop :=
  schema.get? "type" = none ∧ chosen? schema = some keyword

/-- Whether a schema goes by the values that it lists. -/
def Enumerates (schema : Members) : Prop :=
  typeNames schema ≠ [] ∨ Chooses schema "enum"

/-- A schema inside another one that is compiled with it, and the way to it. -/
inductive Selects (schema : Members) : Pointer → Json → Prop where
  | branch {keyword : String} {branches : List Json} {position : Nat} {part : Json}
      (hkeyword : keyword ∈ branchKeywords) (hchosen : Chooses schema keyword)
      (hget : schema.get? keyword = some (.array branches)) (hpart : branches[position]? = some part) :
      Selects schema [keyword, toString position] part
  | position {items : List Json} {position : Nat} {part : Json} (htyped : Typed schema .array)
      (hget : schema.get? "items" = some (.array items)) (hpart : items[position]? = some part) :
      Selects schema ["items", toString position] part
  | items {part : Json} (htyped : Typed schema .array) (hget : schema.get? "items" = some part)
      (hsingle : ∀ items, part ≠ .array items) : Selects schema ["items"] part

/-- A property of an object schema, which is compiled with it under its name. -/
structure HasProperty (schema : Members) (key : String) (part : Json) : Prop where
  typed : Typed schema .object
  member : ∃ properties, schema.get? "properties" = some (.object properties) ∧
    (key, part) ∈ properties
  free : key ∉ reservedNames

/-- A schema without a type that refers elsewhere, and not to its own document's root. -/
structure RefersTo (schema : Members) (reference : String) : Prop where
  chosen : Chooses schema "$ref"
  ref : schema.get? "$ref" = some (.string reference)
  other : reference ≠ "#"

/-- What a schema gives rise to saying: of which part, and the way to it. -/
inductive Reports (schema : Members) : Pointer → Json → Diagnostic.Kind → String → Prop where
  | rootTypes (hobject : "object" ∈ typeNames schema) :
      Reports schema [] (.object schema) .rootTypeFallback ("root type " ++
        Text.quotedList (typeNames schema) ++ " is out of scope, falling back to `object`")
  | unknown {type : String} (hname : type ∈ typeNames schema) (henum : schema.get? "enum" = none)
      (hunknown : TypeName.ofString? type = none) :
      Reports schema [] (.object schema) .unknownType
        ("no handler for type `" ++ type ++ "`, using `any`")
  | enumerated {values : List Json} {position : Nat} {value : Json} (hgoes : Enumerates schema)
      (hget : schema.get? "enum" = some (.array values)) (hvalue : values[position]? = some value)
      (hliteral : Literal.ofJson? value = none) :
      Reports schema ["enum", toString position] value .nonScalarLiteral
        (value.kindText ++ " cannot be a literal type, using `any`")
  | const {properties : Members} {value : Json} (htyped : Typed schema .boolean)
      (hget : schema.get? "properties" = some (.object properties))
      (hvalue : Members.get? properties "const" = some value)
      (hliteral : Literal.ofJson? value = none) :
      Reports schema ["properties", "const"] value .nonScalarLiteral
        (value.kindText ++ " cannot be a literal type, using `any`")
  | marker {properties : Members} {value : Json} (htyped : Typed schema .boolean)
      (hget : schema.get? "properties" = some (.object properties))
      (hvalue : Members.get? properties "default" = some value) :
      Reports schema ["properties", "default"] value .defaultUnsupported
        "`default` keyword is not supported"
  | allOf (hchosen : Chooses schema "allOf") :
      Reports schema [] (.object schema) .allOfAsUnion
        "no intersection type is available, `allOf` is interpreted as a union"
  | oneOf (hchosen : Chooses schema "oneOf") :
      Reports schema [] (.object schema) .oneOfAsAnyOf
        "`oneOf` has no exact counterpart, treating it as `anyOf`"
  | self (hchosen : Chooses schema "$ref") (hget : schema.get? "$ref" = some (.string "#")) :
      Reports schema [] (.object schema) .selfReference
        "recursive self references are not supported, substituting an empty record"
  | default (hchosen : Chooses schema "default") :
      Reports schema [] (.object schema) .defaultUnsupported "`default` keyword is not supported"
  | untyped (htype : schema.get? "type" = none) (hnone : chosen? schema = none) :
      Reports schema [] (.object schema) .untypedSchema
        "schema has no `type` or structural keyword, using `any`"

section

variable {schema : Members} {tokens : Pointer} {part value : Json}

theorem at?_keyword {keyword : String} (hget : schema.get? keyword = some value) (rest : Pointer) :
    (Json.object schema).at? (keyword :: rest) = value.at? rest := by
  rw [Json.at?, Json.child?, hget, Option.bind_some]

theorem at?_position {keyword : String} {items : List Json} {position : Nat}
    (hget : schema.get? keyword = some (.array items)) :
    (Json.object schema).at? [keyword, toString position] = items[position]? := by
  rw [at?_keyword hget, Json.at?, Json.child?_position]
  cases items[position]? <;> rfl

theorem at?_member {properties : Members} {key : String}
    (hget : schema.get? "properties" = some (.object properties)) :
    (Json.object schema).at? ["properties", key] = Members.get? properties key := by
  rw [at?_keyword hget, Json.at?, Json.child?]
  cases Members.get? properties key <;> rfl

theorem Selects.at?_eq (h : Selects schema tokens part) : (Json.object schema).at? tokens = some part := by
  cases h with
  | branch _ _ hget hpart => rw [at?_position hget, hpart]
  | position _ hget hpart => rw [at?_position hget, hpart]
  | items _ hget => rw [at?_keyword hget, Json.at?]

theorem Reports.at?_eq {kind : Diagnostic.Kind} {message : String}
    (h : Reports schema tokens value kind message) : (Json.object schema).at? tokens = some value := by
  cases h with
  | enumerated _ hget hvalue => rw [at?_position hget, hvalue]
  | const _ hget hvalue => rw [at?_member hget, hvalue]
  | marker _ hget hvalue => rw [at?_member hget, hvalue]
  | _ => rfl

end

end Node

/-! ## What actions report -/

namespace Compile

variable {α β : Type} {c : Compiler} {P : Diagnostic → Prop}

/-- Run at `c` the action comes to an end, and `P` holds of whatever it reports. -/
def Notes (action : Compile α) (c : Compiler) (P : Diagnostic → Prop) : Prop :=
  ∃ result added, action.Gives c result added ∧ ∀ d ∈ added, P d

theorem notes_pure (x : α) : (pure x : Compile α).Notes c P :=
  ⟨_, _, gives_pure x c, nofun⟩

theorem notes_bind {action : Compile α} {next : α → Compile β} (h : action.Notes c P)
    (hnext : ∀ x, (next x).Notes c P) : (action >>= next).Notes c P := by
  obtain ⟨result, added, hgives, hadded⟩ := h
  cases result with
  | error failure => exact ⟨_, _, gives_bind_error hgives, hadded⟩
  | ok x =>
    obtain ⟨result, after, hafter, hreported⟩ := hnext x
    refine ⟨_, _, gives_bind hgives hafter, fun d hmem => ?_⟩
    exact (List.mem_append.mp hmem).elim (hadded d) (hreported d)

theorem notes_inspect {f : Compiler → α} {next : α → Compile β}
    (hf : ∀ prior, f { c with diagnostics := prior } = f c) (h : (next (f c)).Notes c P) :
    (inspect f >>= next).Notes c P := by
  obtain ⟨result, added, hgives, hadded⟩ := h
  exact ⟨_, _, gives_bind (gives_inspect hf) hgives, hadded⟩

theorem notes_malformed (reason : String) : (malformed reason : Compile α).Notes c P :=
  ⟨_, _, gives_malformed reason c, nofun⟩

theorem notes_unsupported (reason : String) : (unsupported reason : Compile α).Notes c P :=
  ⟨_, _, gives_unsupported reason c, nofun⟩

theorem notes_warn {kind : Diagnostic.Kind} {message : String} (h : P (c.warning kind message)) :
    (warn kind message).Notes c P :=
  ⟨_, _, gives_warn kind message c, List.forall_mem_singleton.mpr h⟩

theorem notes_descend {tokens : List String} {action : Compile α}
    (h : action.Notes (c.below tokens) P) : (descend tokens action).Notes c P := by
  obtain ⟨result, added, hgives, hadded⟩ := h
  exact ⟨_, _, gives_descend hgives, hadded⟩

theorem notes_descendProperty {key : String} {action : Compile α}
    (h : action.Notes (c.atProperty key) P) : (descendProperty key action).Notes c P := by
  obtain ⟨result, added, hgives, hadded⟩ := h
  exact ⟨_, _, gives_descendProperty hgives, hadded⟩

theorem notes_inScope {id : String} {action : Compile α}
    (h : ∀ resolver, c.resolver.enterId id = .ok resolver → action.Notes (c.within resolver) P) :
    (inScope id action).Notes c P := by
  cases henter : c.resolver.enterId id with
  | error e => exact ⟨_, _, gives_inScope_error henter, nofun⟩
  | ok resolver =>
    obtain ⟨result, added, hgives, hadded⟩ := h resolver henter
    exact ⟨_, _, gives_inScope henter hgives, hadded⟩

theorem notes_refuse (reference : String) : (refuse reference).Notes c P :=
  ⟨_, _, gives_refuse reference c, nofun⟩

theorem notes_followTo {compile : Json → Bool → Compile Shape} {reference : String} {outer : Bool}
    (h : ∀ url target, c.resolver.resolve reference = .ok (url, target) →
      (compile target outer).Notes (c.atTarget url (targetLocation c.resolver url)) P) :
    (followTo compile reference outer).Notes c P := by
  cases hresolve : c.resolver.resolve reference with
  | error failure => exact ⟨_, _, gives_followTo_error hresolve, nofun⟩
  | ok found =>
    obtain ⟨url, target⟩ := found
    cases hrefused : c.refusesRepeats && c.active.contains url.text with
    | true => exact ⟨_, _, gives_followTo_refused hresolve hrefused, nofun⟩
    | false =>
      obtain ⟨result, added, hgives, hadded⟩ := h url target hresolve
      exact ⟨_, _, gives_followTo hresolve hrefused hgives, hadded⟩

end Compile

namespace Node

/-! ## What nodes report -/

/-- What is known of the reports of a schema at a place, and of the parts that it is compiled with. -/
structure Noted (follow : Follow) (inner : Inner) (schema : Members) (outer : Bool) (c : Compiler)
    (P : Diagnostic → Prop) : Prop where
  reports : ∀ {tokens value kind message}, Reports schema tokens value kind message →
    P ((c.below tokens).warning kind message)
  parts : ∀ {tokens part}, Selects schema tokens part → (inner part).Notes (c.below tokens) P
  properties : ∀ {key part}, HasProperty schema key part → (inner part).Notes (c.atProperty key) P
  follows : ∀ {reference}, RefersTo schema reference → (follow reference outer).Notes c P

section

variable {follow : Follow} {inner : Inner} {schema : Members} {outer : Bool} {c : Compiler}
variable {P : Diagnostic → Prop}

theorem notes_eachItem {α : Type} {action : Json → Compile α} {keyword : String} {start : Nat}
    {items : List Json} (h : ∀ position item, items[position]? = some item →
      (action item).Notes (c.below [keyword, toString (start + position)]) P) :
    (eachItem keyword action start items).Notes c P := by
  induction items generalizing start with
  | nil => exact notes_pure _
  | cons item rest ih =>
    refine notes_bind (notes_descend (h 0 item rfl)) fun _ => notes_bind (ih ?_) fun _ => notes_pure _
    intro position other hget
    have hother := h (position + 1) other hget
    rwa [← Nat.add_assoc, Nat.add_right_comm] at hother

theorem notes_literal {value : Json} (h : Literal.ofJson? value = none →
    P (c.warning .nonScalarLiteral (value.kindText ++ " cannot be a literal type, using `any`"))) :
    (literal value).Notes c P := by
  rw [literal]
  split
  · exact notes_pure _
  · next hliteral => exact notes_bind (notes_warn (h hliteral)) fun _ => notes_pure _

variable (noted : Noted follow inner schema outer c P)

include noted

theorem Noted.here {kind : Diagnostic.Kind} {message : String}
    (h : Reports schema [] (.object schema) kind message) : (warn kind message).Notes c P := by
  have hhere : c.below [] = c := by simp [Compiler.below, Location.descend]
  exact notes_warn (hhere ▸ noted.reports h)

theorem notes_enumeration {values : Json} (hgoes : Enumerates schema)
    (hget : schema.get? "enum" = some values) : (enumeration values).Notes c P := by
  cases values with
  | array values =>
    refine notes_bind (notes_eachItem fun position value hvalue => notes_literal fun hliteral => ?_)
      fun _ => notes_pure _
    rw [Nat.zero_add]
    exact noted.reports (.enumerated hgoes hget hvalue hliteral)
  | _ => exact notes_malformed _

theorem notes_anyOf {keyword : String} {branches : Json} (hkeyword : keyword ∈ branchKeywords)
    (hchosen : Chooses schema keyword) (hget : schema.get? keyword = some branches) :
    (anyOf inner keyword branches).Notes c P := by
  cases branches with
  | array branches =>
    refine notes_bind (notes_eachItem fun position part hpart => ?_) fun _ => notes_pure _
    rw [Nat.zero_add]
    exact noted.parts (.branch hkeyword hchosen hget hpart)
  | _ => exact notes_malformed _

theorem notes_fields {required : List String} {properties : Members}
    (h : ∀ key part, (key, part) ∈ properties → key ∉ reservedNames → HasProperty schema key part) :
    (fields inner required properties).Notes c P := by
  induction properties with
  | nil => exact notes_pure _
  | cons member rest ih =>
    obtain ⟨key, part⟩ := member
    have hrest := ih fun key part hmem => h key part (List.mem_cons_of_mem _ hmem)
    simp only [fields]
    split
    · exact hrest
    · next hfree =>
      refine notes_bind (notes_descendProperty ?_) fun _ => notes_bind hrest fun _ => notes_pure _
      exact noted.properties (h key part (List.mem_cons_self ..) hfree)

theorem notes_object (htyped : Typed schema .object) : (object inner schema outer).Notes c P := by
  rw [object]
  split
  · exact notes_pure _
  · next properties hget =>
    refine notes_inspect (fun _ => rfl) ?_
    refine notes_bind (notes_fields noted fun key part hmem hfree => ?_) fun _ => notes_pure _
    exact ⟨htyped, ⟨properties, hget, hmem⟩, hfree⟩
  · exact notes_malformed _

omit noted in
theorem notes_fixedLength (keyword : String) (length : Nat) :
    (fixedLength schema keyword length).Notes c P := by
  simp only [fixedLength]
  split
  · exact notes_pure _
  · split
    · split
      · exact notes_pure _
      · exact notes_unsupported _
    · exact notes_unsupported _

theorem notes_array (htyped : Typed schema .array) : (array inner schema).Notes c P := by
  rw [array]
  split
  · exact notes_pure _
  · exact notes_pure _
  · exact notes_unsupported _
  · next items hget =>
    refine notes_bind (notes_fixedLength _ _) fun _ => ?_
    refine notes_bind (notes_fixedLength _ _) fun _ => ?_
    refine notes_bind (notes_eachItem fun position part hpart => ?_) fun _ => notes_pure _
    rw [Nat.zero_add]
    exact noted.parts (.position htyped hget hpart)
  · next item _ _ hsingle hget =>
    exact notes_bind (notes_descend (noted.parts (.items htyped hget hsingle))) fun _ => notes_pure _

theorem notes_boolean (htyped : Typed schema .boolean) : (boolean schema).Notes c P := by
  simp only [boolean]
  split
  · next properties hget =>
    have hmarker (h : Members.contains properties "default" = true) :
        (descend ["properties", "default"]
          (warn .defaultUnsupported "`default` keyword is not supported")).Notes c P := by
      rw [Members.contains_eq] at h
      obtain ⟨value, hvalue⟩ := Option.isSome_iff_exists.mp h
      exact notes_descend (notes_warn (noted.reports (.marker htyped hget hvalue)))
    cases hconst : Members.get? properties "const" with
    | some value =>
      have hvalue : (descend ["properties", "const"] (literal value)).Notes c P :=
        notes_descend (notes_literal fun hliteral =>
          noted.reports (.const htyped hget hconst hliteral))
      split
      · next hdefault => exact notes_bind (hmarker hdefault) fun _ => hvalue
      · exact hvalue
    | none =>
      split
      · next hdefault => exact notes_bind (hmarker hdefault) fun _ => notes_pure _
      · exact notes_pure _
  · exact notes_pure _

omit noted in
theorem notes_integer : integer.Notes c P := by
  refine notes_inspect (fun _ => rfl) ?_
  split
  · exact notes_pure _
  · exact notes_pure _

theorem notes_typed {type : TypeName} (htyped : Typed schema type) :
    (typed inner type schema outer).Notes c P := by
  cases type with
  | object => exact notes_object noted htyped
  | array => exact notes_array noted htyped
  | boolean => exact notes_boolean noted htyped
  | integer => exact notes_integer
  | string | number | null | any => exact notes_pure _

theorem notes_named {type : String} (hname : type ∈ typeNames schema) :
    (named inner type schema outer).Notes c P := by
  rw [named]
  split
  · next values hget => exact notes_enumeration noted (.inl (List.ne_nil_of_mem hname)) hget
  · next henum =>
    split
    · next type' htype => exact notes_typed noted ⟨henum, type, hname, htype⟩
    · next hunknown =>
      exact notes_bind (noted.here (.unknown hname henum hunknown)) fun _ => notes_pure _

theorem notes_eachName {types : List String} (hnames : types ⊆ typeNames schema) :
    (eachName inner schema outer types).Notes c P := by
  induction types with
  | nil => exact notes_pure _
  | cons type rest ih =>
    obtain ⟨hname, hrest⟩ := List.cons_subset.mp hnames
    exact notes_bind (notes_named noted hname) fun _ => notes_bind (ih hrest) fun _ => notes_pure _

theorem notes_listed {types : List String} (hnames : typeNames schema = types) :
    (listed inner types schema outer).Notes c P := by
  subst hnames
  refine notes_inspect (fun _ => rfl) ?_
  split
  · split
    · next hobject =>
      have hmem := List.contains_iff_mem.mp hobject
      exact notes_bind (noted.here (.rootTypes hmem)) fun _ => notes_named noted hmem
    · exact ⟨_, _, gives_fail fun _ => rfl, nofun⟩
  · exact notes_bind (notes_eachName noted (List.Subset.refl _)) fun _ => notes_pure _

theorem notes_reference {reference : String} (hchosen : Chooses schema "$ref")
    (hget : schema.get? "$ref" = some (.string reference)) :
    (Node.reference follow reference outer).Notes c P := by
  rw [Node.reference]
  split
  · next hself =>
    subst hself
    refine notes_bind (noted.here (.self hchosen hget)) fun _ => ?_
    exact notes_inspect (fun _ => rfl) (notes_pure _)
  · next hother => exact noted.follows ⟨hchosen, hget, hother⟩

theorem notes_untyped (htype : schema.get? "type" = none) :
    (untyped follow inner schema outer).Notes c P := by
  -- Each case of the match says which of the keywords the schema has, and which in front it lacks.
  have hchosen {keyword : String} (h : chosen? schema = some keyword) : Chooses schema keyword :=
    ⟨htype, h⟩
  simp only [chosen?, untypedKeywords, List.find?, Members.contains_eq] at hchosen
  rw [untyped]
  split
  · next reference hget => exact notes_reference noted (hchosen (by rw [hget]; rfl)) hget
  · exact notes_malformed _
  · next href =>
    simp only [href, Option.isSome_none] at hchosen
    split
    · next branches hall =>
      simp only [hall, Option.isSome_some] at hchosen
      exact notes_bind (noted.here (.allOf (hchosen rfl))) fun _ =>
        notes_anyOf noted (by decide) (hchosen rfl) hall
    · next branches hall hany =>
      simp only [hall, hany, Option.isSome_none, Option.isSome_some] at hchosen
      exact notes_anyOf noted (by decide) (hchosen rfl) hany
    · next branches hall hany hone =>
      simp only [hall, hany, hone, Option.isSome_none, Option.isSome_some] at hchosen
      exact notes_bind (noted.here (.oneOf (hchosen rfl))) fun _ =>
        notes_anyOf noted (by decide) (hchosen rfl) hone
    · next values hall hany hone henum =>
      simp only [hall, hany, hone, henum, Option.isSome_none, Option.isSome_some] at hchosen
      exact notes_enumeration noted (.inr (hchosen rfl)) henum
    · next hall hany hone henum =>
      simp only [hall, hany, hone, henum, Option.isSome_none] at hchosen
      split
      · next hdefault =>
        rw [Members.contains_eq] at hdefault
        exact notes_bind (noted.here (.default (hchosen (by rw [hdefault])))) fun _ => notes_pure _
      · next hdefault =>
        rw [Members.contains_eq, Bool.not_eq_true] at hdefault
        have hnone : chosen? schema = none := by
          simp only [chosen?, untypedKeywords, List.find?, Members.contains_eq, href, hall, hany, hone,
            henum, hdefault, Option.isSome_none]
        exact notes_bind (noted.here (.untyped htype hnone)) fun _ => notes_pure _

theorem notes_members : (members follow inner schema outer).Notes c P := by
  rw [members]
  split
  · next type htype =>
    refine notes_named noted ?_
    rw [typeNames, htype]
    exact List.mem_singleton_self _
  · next types htype =>
    split
    · next names hnames =>
      refine notes_listed noted ?_
      rw [typeNames, htype]
      simp only [hnames, Option.getD_some]
    · exact notes_malformed _
  · exact notes_malformed _
  · next htype => exact notes_untyped noted htype

omit noted in
theorem notes_shape {value : Json} (h : ∀ schema inside, value = .object schema →
    Inside schema c inside → Noted follow inner schema outer inside P) :
    (Node.shape follow inner value outer).Notes c P := by
  cases value with
  | object schema =>
    simp only [Node.shape]
    refine notes_inspect (fun _ => rfl) ?_
    split
    · next hid =>
      have hinside : Inside schema c c := by rw [Inside, hid]
      exact notes_members (h schema c rfl hinside)
    · next id hid =>
      refine notes_inScope fun resolver henter => ?_
      have hinside : Inside schema c (c.within resolver) := by
        rw [Inside, hid]
        exact ⟨resolver, henter, rfl⟩
      exact notes_members (h schema _ rfl hinside)
  | bool admitted =>
    cases admitted with
    | true => exact notes_pure _
    | false => exact notes_unsupported _
  | _ => exact notes_malformed _

omit noted in
/-- Inside of a node references are resolved where the node stands, or under what its identifier joins
to. -/
theorem Inside.eq_or_enter {inside : Compiler} (h : Inside schema c inside) :
    inside = c ∨ ∃ id url, c.resolver.scope.join id = .ok url ∧
      inside = c.within (c.resolver.enter url) := by
  rw [Inside] at h
  split at h
  · exact .inl h
  · next id _ =>
    obtain ⟨resolver, henter, rfl⟩ := h
    obtain ⟨url, hjoin, rfl⟩ := Resolver.enterId_ok henter
    exact .inr ⟨id, url, hjoin, rfl⟩

end

end Node

/-! ## What compiles report -/

/-- A compile that starts with a schema at a place gets to a schema at a place, behind these references,
the last one first. It compiles that schema, unless it fails before. -/
inductive Compiling (start : Compiler) (root : Json) : List Url → Compiler → Json → Prop where
  | root : Compiling start root [] start root
  | part {followed : List Url} {c inside : Compiler} {schema : Members} {tokens : Pointer} {part : Json}
      (h : Compiling start root followed c (.object schema)) (hinside : Node.Inside schema c inside)
      (hpart : Node.Selects schema tokens part) :
      Compiling start root followed (inside.below tokens) part
  | property {followed : List Url} {c inside : Compiler} {schema : Members} {key : String} {part : Json}
      (h : Compiling start root followed c (.object schema)) (hinside : Node.Inside schema c inside)
      (hpart : Node.HasProperty schema key part) :
      Compiling start root followed (inside.atProperty key) part
  | target {followed : List Url} {c inside : Compiler} {schema : Members} {reference : String}
      {url : Url} {target : Json} (h : Compiling start root followed c (.object schema))
      (hinside : Node.Inside schema c inside) (href : Node.RefersTo schema reference)
      (hresolve : inside.resolver.resolve reference = .ok (url, target)) :
      Compiling start root (url :: followed)
        (inside.atTarget url (targetLocation inside.resolver url)) target

/-- The diagnostic speaks of a value that stands, by the tokens, in a schema that is compiled at a place. -/
structure Diagnostic.Speaks (d : Diagnostic) (c : Compiler) (schema : Members) (tokens : Pointer)
    (value : Json) : Prop where
  reports : Node.Reports schema tokens value d.kind d.message
  eq_warning : d = (c.below tokens).warning d.kind d.message

namespace Compile

variable {start c : Compiler} {root value : Json} {followed : List Url} {outer : Bool}

/-- The diagnostic speaks of something that the compile gets to. -/
def Reported (start : Compiler) (root : Json) (d : Diagnostic) : Prop :=
  ∃ followed c schema tokens value, Compiling start root followed c (.object schema) ∧
    d.Speaks c schema tokens value

/-- References that a compile gets to are followed to such reports. -/
def NotesReferences (start : Compiler) (root : Json) (follow : Node.Follow) : Prop :=
  ∀ (followed : List Url) (c inside : Compiler) (schema : Members) (reference : String) (outer : Bool),
    Compiling start root followed c (.object schema) → Node.Inside schema c inside →
    Node.RefersTo schema reference → (follow reference outer).Notes inside (Reported start root)

theorem notes_nested {follow : Node.Follow} (hfollow : NotesReferences start root follow) (height : Nat)
    (h : Compiling start root followed c value) :
    (nested follow height value outer).Notes c (Reported start root) := by
  induction height generalizing followed c value outer with
  | zero => exact notes_pure _
  | succ height ih =>
    refine Node.notes_shape fun schema inside heq hinside => ?_
    subst heq
    refine ⟨fun {tokens value kind message} hreports => ?_, fun hpart => ih (.part h hinside hpart),
      fun hpart => ih (.property h hinside hpart), fun href =>
        hfollow followed c inside schema _ outer h hinside href⟩
    refine ⟨followed, c, schema, tokens, value, h, hreports, ?_⟩
    rcases hinside.eq_or_enter with rfl | ⟨_, _, -, rfl⟩
    · rfl
    · rfl

/-- Whatever a compile reports speaks of something that it gets to. -/
theorem notes_upTo (depth : Nat) (h : Compiling start root followed c value) :
    (upTo depth value outer).Notes c (Reported start root) := by
  induction depth generalizing followed c value outer with
  | zero => exact notes_nested (fun _ _ _ _ reference _ _ _ _ => notes_refuse reference) _ h
  | succ depth ih =>
    refine notes_nested (fun followed c inside schema reference outer h hinside href => ?_) _ h
    exact notes_followTo fun url target hresolve => ih (.target h hinside href hresolve)

end Compile

end SchemaShape
