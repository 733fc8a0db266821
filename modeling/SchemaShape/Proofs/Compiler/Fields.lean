import SchemaShape.Proofs.Compiler.Forms

/-! # The fields of a record

The rule for objects makes a field of each property that has a shape, in the order of the properties. What
has no shape is a `default` by itself, a schema with nothing else to go by, and whatever refers to one,
through any number of references: it is left out with a warning.
-/

namespace SchemaShape
set_option autoImplicit false

open Compile

/-! ## Schemas without a shape -/

/-- An object without a type has no shape at a place if there is a `default` in it and nothing to go by, or
if it refers to an object that has none where the reference leads. -/
inductive Vanishes : Compiler → Json → Prop where
  | default {c : Compiler} {schema : Members} (htype : schema.get? "type" = none)
      (hnone : ∀ keyword ∈ "$ref" :: "enum" :: Node.branchKeywords, schema.get? keyword = none)
      (hdefault : schema.contains "default" = true) : Vanishes c (.object schema)
  | reference {c place : Compiler} {schema : Members} {target : String} {url : Url} {node : Json}
      (htype : schema.get? "type" = none) (hget : schema.get? "$ref" = some (.string target))
      (hself : target ≠ "#") (hinside : Node.Inside schema c place)
      (hresolve : place.resolver.resolve target = .ok (url, node))
      (h : Vanishes (place.atTarget url (targetLocation place.resolver url)) node) :
      Vanishes c (.object schema)

def Compiler.defaultWarning (c : Compiler) : Diagnostic :=
  c.warning .defaultUnsupported "`default` keyword is not supported"

namespace Node

variable {inner : Inner} {follow : Follow} {schema : Members} {outer : Bool}
variable {c : Compiler} {shape : Shape} {added : List Diagnostic}

theorem named_ne_nothing {type : String} (tidy : TidyInners schema inner)
    (hinner : MakesInners schema inner)
    (h : (named inner type schema outer).Gives c (.ok shape) added) : shape ≠ .nothing := by
  intro heq
  cases ((made_named tidy hinner h).compiled.2 heq).1

theorem anyOf_ne_nothing {keyword : String} {branches : Json} (hkeyword : keyword ∈ branchKeywords)
    (hget : schema.get? keyword = some branches) (tidy : TidyInners schema inner)
    (h : (anyOf inner keyword branches).Gives c (.ok shape) added) : shape ≠ .nothing := by
  obtain ⟨_, _, -, rfl, -⟩ := anyOf_ok hkeyword hget tidy h
  nofun

theorem untyped_nothing (tidy : TidyInners schema inner)
    (h : (untyped follow inner schema outer).Gives c (.ok .nothing) added) :
    ((∀ keyword ∈ "$ref" :: "enum" :: branchKeywords, schema.get? keyword = none) ∧
        schema.contains "default" = true ∧ added = [c.defaultWarning]) ∨
      ∃ target, schema.get? "$ref" = some (.string target) ∧ target ≠ "#" ∧
        (follow target outer).Gives c (.ok .nothing) added := by
  simp only [untyped] at h
  split at h
  · next target href =>
    refine .inr ⟨target, href, ?_⟩
    simp only [reference] at h
    split at h
    · obtain ⟨_, hthen, -⟩ := h.warn_then_ok
        (tidy_bind (fun c => ⟨_, _, gives_inspect (c := c) fun _ => rfl⟩) fun _ => tidy_pure _)
      cases (hthen.inspect_ok (fun _ => rfl) fun _ => tidy_pure _).pure_ok.1
    · next hself => exact ⟨hself, h⟩
  · exact h.malformed_ok.elim
  · next href =>
    split at h
    · next hget =>
      obtain ⟨_, hunion, -⟩ := h.warn_then_ok (tidy_anyOf (by decide) hget tidy)
      exact absurd rfl (anyOf_ne_nothing (by decide) hget tidy hunion)
    · next hget => exact absurd rfl (anyOf_ne_nothing (by decide) hget tidy h)
    · next hget =>
      obtain ⟨_, hunion, -⟩ := h.warn_then_ok (tidy_anyOf (by decide) hget tidy)
      exact absurd rfl (anyOf_ne_nothing (by decide) hget tidy hunion)
    · obtain ⟨_, _, -, heq, -⟩ := enumeration_ok h
      cases heq
    · next hallOf hanyOf honeOf henum =>
      split at h
      · next hdefault =>
        obtain ⟨_, hlast, rfl⟩ := h.warn_then_ok (tidy_pure _)
        obtain ⟨-, rfl⟩ := hlast.pure_ok
        refine .inl ⟨?_, hdefault, rfl⟩
        simp only [branchKeywords, List.forall_mem_cons]
        exact ⟨href, henum, hallOf, hanyOf, honeOf, List.forall_mem_nil _⟩
      · obtain ⟨_, hlast, -⟩ := h.warn_then_ok (tidy_pure _)
        cases hlast.pure_ok.1

theorem members_nothing (tidy : TidyInners schema inner) (hinner : MakesInners schema inner)
    (h : (members follow inner schema outer).Gives c (.ok .nothing) added) :
    schema.get? "type" = none ∧ (untyped follow inner schema outer).Gives c (.ok .nothing) added := by
  simp only [members] at h
  split at h
  · exact absurd rfl (named_ne_nothing tidy hinner h)
  · split at h
    · rcases listed_ok tidy h with ⟨-, _, hnamed, -⟩ | ⟨_, heq, -⟩
      · exact absurd rfl (named_ne_nothing tidy hinner hnamed)
      · cases heq
    · exact h.malformed_ok.elim
  · exact h.malformed_ok.elim
  · next htype => exact ⟨htype, h⟩

end Node

namespace Compile

theorem Gives.keywords_ok {depth : Nat} {node : Members} {outer : Bool} {c : Compiler} {shape : Shape}
    {added : List Diagnostic} (h : (upTo depth (.object node) outer).Gives c (.ok shape) added) :
    ∃ place inner, Node.Inside node c place ∧ Node.TidyInners node inner ∧
      Node.MakesInners node inner ∧
      (Node.members (followUpTo depth) inner node outer).Gives place (.ok shape) added := by
  obtain ⟨height, hheight⟩ := (Json.object node).height_eq_succ
  rw [upTo_eq, Compile.schema, hheight] at h
  obtain ⟨place, hinside, hmembers⟩ := h.members_ok (Nat.le_of_eq hheight)
  refine ⟨place, _, hinside, tidyInners_nested (Nat.le_of_eq hheight), fun part hpart => ?_, hmembers⟩
  have hlt := hpart.height_lt
  exact makes_nested (makes_followUpTo depth) (by omega)

theorem Gives.object_of_nothing {depth : Nat} {schema : Json} {outer : Bool} {c : Compiler}
    {added : List Diagnostic} (h : (upTo depth schema outer).Gives c (.ok .nothing) added) :
    ∃ node : Members, schema = .object node := by
  obtain ⟨height, hheight⟩ := schema.height_eq_succ
  rw [upTo_eq, Compile.schema, hheight] at h
  cases schema with
  | object node => exact ⟨node, rfl⟩
  | bool admitted =>
    cases admitted with
    | true => cases h.pure_ok.1
    | false => exact h.unsupported_ok.elim
  | _ => exact h.malformed_ok.elim

/-- What gives nothing vanishes, and all there is to report is the `default` that it comes to. -/
theorem vanishes_of_gives {depth : Nat} {schema : Json} {outer : Bool} {c : Compiler}
    {added : List Diagnostic} (h : (upTo depth schema outer).Gives c (.ok .nothing) added) :
    Vanishes c schema ∧ ∃ place : Compiler, added = [place.defaultWarning] := by
  -- With each reference that is followed there is one less to follow.
  induction depth using Nat.strongRecOn generalizing schema c added with
  | ind depth ih =>
    obtain ⟨node, rfl⟩ := h.object_of_nothing
    obtain ⟨place, inner, hinside, tidy, hinner, hmembers⟩ := h.keywords_ok
    obtain ⟨htype, huntyped⟩ := Node.members_nothing tidy hinner hmembers
    rcases Node.untyped_nothing tidy huntyped with
      ⟨hnone, hdefault, hadded⟩ | ⟨target, hget, hself, hfollow⟩
    · exact ⟨.default htype hnone hdefault, place, hadded⟩
    · obtain ⟨rest, url, found, rfl, hresolve, -, htarget⟩ := hfollow.followUpTo_ok
      obtain ⟨hvanishes, hreported⟩ := ih rest (Nat.lt_succ_self rest) htarget
      exact ⟨.reference htype hget hself hinside hresolve hvanishes, hreported⟩

theorem eq_nothing_of_vanishes {schema : Json} {c : Compiler} (hvanishes : Vanishes c schema)
    {depth : Nat} {outer : Bool} {shape : Shape} {added : List Diagnostic}
    (h : (upTo depth schema outer).Gives c (.ok shape) added) : shape = .nothing := by
  induction hvanishes generalizing depth outer shape added with
  | default htype hnone hdefault =>
    obtain ⟨place, inner, -, -, -, hmembers⟩ := h.keywords_ok
    simp only [Node.branchKeywords, List.forall_mem_cons] at hnone
    obtain ⟨href, henum, hallOf, hanyOf, honeOf, -⟩ := hnone
    simp only [Node.members, htype, Node.untyped, href, henum, hallOf, hanyOf, honeOf, hdefault,
      if_true] at hmembers
    obtain ⟨_, hlast, -⟩ := hmembers.warn_then_ok (tidy_pure _)
    exact hlast.pure_ok.1
  | reference htype hget hself hinside hresolve _ ih =>
    obtain ⟨place, inner, hinside', -, -, hmembers⟩ := h.keywords_ok
    obtain rfl := hinside.unique hinside'
    simp only [Node.members, htype, Node.untyped, hget, Node.reference, if_neg hself] at hmembers
    obtain ⟨rest, url, node, -, hresolve', -, htarget⟩ := hmembers.followUpTo_ok
    rw [hresolve] at hresolve'
    cases hresolve'
    exact ih htarget

end Compile

/-! ## What the fields are -/

theorem Node.fields_filter (inner : Inner) (required : List String) (properties : Members) :
    fields inner required (properties.filter (·.1 ∉ reservedNames)) =
      fields inner required properties := by
  induction properties with
  | nil => rfl
  | cons member rest ih =>
    obtain ⟨key, part⟩ := member
    rw [List.filter_cons]
    by_cases hreserved : key ∈ reservedNames
    · rw [if_neg (by simpa using hreserved), ih, fields, if_pos hreserved]
    · rw [if_pos (decide_eq_true hreserved), fields, fields, if_neg hreserved, if_neg hreserved, ih]

theorem Node.object_filter {schema properties : Members} (inner : Inner) (outer : Bool)
    (hproperties : schema.get? "properties" = some (.object properties)) :
    object inner (schema.set "properties" (.object (properties.filter (·.1 ∉ reservedNames)))) outer =
      object inner schema outer := by
  have hrequired : (schema.set "properties"
      (.object (properties.filter (·.1 ∉ reservedNames)))).get? "required" = schema.get? "required" :=
    Members.get?_set_ne _ _ (by decide)
  simp only [object, Members.get?_set_self, hproperties, requiredNames, hrequired, fields_filter]

namespace Compiler

def inner (c : Compiler) : Node.Inner :=
  fun part => Compile.upTo c.remaining part false

/-- What a property of the current node gives by itself, and what is reported of it. -/
def compileProperty (c : Compiler) (key : String) (part : Json) :
    Except Failure Shape × List Diagnostic :=
  let run := ({ c with diagnostics := [] }.atProperty key).compile part false
  (run.1, run.2.diagnostics)

def propertyReport (c : Compiler) : String × Json → List Diagnostic :=
  fun (key, part) => if key ∈ Node.reservedNames then [] else (c.compileProperty key part).2

/-- A property has a field, unless nothing comes of it or its name is reserved. -/
def hasField (c : Compiler) : String × Json → Bool :=
  fun (key, part) => key ∉ Node.reservedNames ∧ (c.compileProperty key part).1 ≠ .ok .nothing

/-- The fields that the properties of a schema give. -/
structure FieldsOf (c : Compiler) (schema properties : Members) (fields : List (Field Shape)) :
    Prop where
  keys : fields.map (·.key) = (properties.filter c.hasField).map Prod.fst
  distinct : (fields.map (·.key)).Nodup
  shapes : ∀ field ∈ fields, ∃ part, (field.key, part) ∈ properties ∧
    (c.compileProperty field.key part).1 = .ok field.shape
  required : ∀ field ∈ fields, field.required = true ↔
    ∃ names, schema.get? "required" = some (.array names) ∧ Json.string field.key ∈ names

section

variable {c : Compiler} {properties : Members}
  (hcompiled : ∀ member ∈ properties, member.1 ∉ Node.reservedNames →
    ∃ shape, (c.compileProperty member.1 member.2).1 = .ok shape)

include hcompiled

/-- The keys of the fields are those of the properties that compile to something, in their order. -/
theorem map_key_fields (required : List String) :
    (properties.filterMap (Node.propertyField? c.inner c required)).map (·.key) =
      (properties.filter c.hasField).map Prod.fst := by
  rw [List.map_filterMap, ← List.filterMap_eq_map, List.filterMap_filter]
  refine List.filterMap_congr fun member mem => ?_
  simp only [Node.propertyField?, hasField, decide_eq_true_eq]
  split
  · next hreserved => rw [if_neg fun hkept => hkept.1 hreserved, Option.map_none]
  · next hfree =>
    obtain ⟨shape, hshape⟩ := hcompiled member mem hfree
    have houtcome : (Node.propertyOutcome c.inner c member).1 = .ok shape := hshape
    rw [hshape, houtcome]
    cases shape with
    | nothing => exact (if_neg fun hkept => hkept.2 rfl).symm
    | _ => exact (if_pos ⟨hfree, fun heq => by cases heq⟩).symm

theorem fieldsOf {schema : Members} (distinct : (properties.map Prod.fst).Nodup) :
    c.FieldsOf schema properties
      (properties.filterMap (Node.propertyField? c.inner c (Node.requiredNames schema))) where
  keys := map_key_fields hcompiled _
  distinct := by
    rw [map_key_fields hcompiled _]
    exact distinct.sublist (List.filter_sublist.map Prod.fst)
  shapes field mem := by
    obtain ⟨⟨key, part⟩, hmem, hfield⟩ := List.mem_filterMap.mp mem
    obtain ⟨rfl, -, -, hshape, -⟩ := Node.propertyField?_eq_some hfield
    exact ⟨part, hmem, hshape⟩
  required field mem := by
    obtain ⟨⟨key, part⟩, -, hfield⟩ := List.mem_filterMap.mp mem
    obtain ⟨rfl, hrequired, -⟩ := Node.propertyField?_eq_some hfield
    rw [hrequired, List.contains_iff_mem, Node.mem_requiredNames_iff]

end

/-- The rule for objects, where it succeeds, gives a record whose fields are the properties that compile to
something, each with its shape, and required if the schema lists it. Whatever compiles to nothing reports an
unsupported `default`, and the report is made up of what is reported of the properties. What has a reserved
name makes no difference. A schema that compiles compiles to nothing if and only if it vanishes. -/
theorem compileAs_object {c : Compiler} {schema properties : Members} {outer : Bool} {shape : Shape}
    (hproperties : schema.get? "properties" = some (.object properties))
    (distinct : (properties.map Prod.fst).Nodup)
    (hrun : (c.compileAs .object schema outer).1 = .ok shape) :
    (∃ fields, shape = .record c.recordName outer fields ∧ c.FieldsOf schema properties fields) ∧
      (c.compileAs .object schema outer).2 =
        { c with diagnostics := c.diagnostics ++ properties.flatMap c.propertyReport } ∧
      c.compileAs .object (schema.set "properties"
        (.object (properties.filter (·.1 ∉ Node.reservedNames)))) outer =
        c.compileAs .object schema outer ∧
      (∀ key part, (c.compileProperty key part).1 = .ok .nothing →
        ∃ place : Compiler, (c.compileProperty key part).2 = [place.defaultWarning]) ∧
      ∀ (place : Compiler) part outer shape, (place.compile part outer).1 = .ok shape →
        (shape = .nothing ↔ Vanishes place part) := by
  have tidy : ∀ part, (c.inner part).Tidy := fun part => Compile.tidy_upTo c.remaining part false
  obtain ⟨added, hgives⟩ := (Node.tidy_object fun part _ => tidy part).gives_of_ok hrun
  obtain ⟨fields, rfl, hfields⟩ := Node.object_fields_ok (fun part _ => tidy part) hproperties hgives
  obtain ⟨rfl, rfl, hcompiled⟩ := Node.fields_eq (fun _ part _ => tidy part) hfields
  refine ⟨⟨_, rfl, fieldsOf hcompiled distinct⟩, congrArg Prod.snd hgives.run,
    congrFun (Node.object_filter c.inner outer hproperties) c, ?_, ?_⟩
  · intro key part hnothing
    exact (Compile.vanishes_of_gives (Node.gives_of_propertyOutcome (tidy part) hnothing)).2
  · intro place part outer shape hcompile
    obtain ⟨added, hgives⟩ := (Compile.tidy_upTo place.remaining part outer).gives_of_ok hcompile
    refine ⟨?_, fun h => Compile.eq_nothing_of_vanishes h hgives⟩
    rintro rfl
    exact (Compile.vanishes_of_gives hgives).1

end Compiler

def settingsProperties : Members :=
  [("default", .object [("type", .string "string")]), ("name", .object [("type", .string "string")]),
    ("mode", .object [("$ref", .string "#/definitions/mode")]), ("level", .object [("type", .string "null")])]

def settingsMembers : Members :=
  [("type", .string "object"), ("properties", .object settingsProperties),
    ("required", .array [.string "mode", .null, .string "name", .string "default", .array []]),
    ("definitions", .object [("mode", .object [("$ref", .string "#/definitions/unset")]),
      ("unset", .object [("default", .string "fast")])])]

def settingsCompiler : Compiler :=
  let registry := Registry.empty.insert ⟨Document.defaultUrl, .object settingsMembers⟩
  Compiler.new { registry, base := Document.defaultUrl } .draft07 "Settings"

theorem compileAs_object_settings :
    let fields := [⟨"name", true, .scalar .string⟩, ⟨"level", false, .scalar .null⟩]
    let mode := Json.object [("$ref", .string "#/definitions/mode")]
    (settingsCompiler.compileAs .object settingsMembers true).1 = .ok (.record "Settings" true fields) ∧
      settingsCompiler.FieldsOf settingsMembers settingsProperties fields ∧
      (∃ place : Compiler,
        (settingsCompiler.compileProperty "mode" mode).2 = [place.defaultWarning]) ∧
      Vanishes (settingsCompiler.atProperty "mode") mode := by
  intro fields mode
  have hrun : (settingsCompiler.compileAs .object settingsMembers true).1 =
      .ok (.record "Settings" true fields) := by decide +kernel
  have hmode : (settingsCompiler.compileProperty "mode" mode).1 = .ok .nothing := by decide +kernel
  obtain ⟨⟨_, heq, hfields⟩, -, -, hreported, hvanishes⟩ :=
    Compiler.compileAs_object rfl (by decide) hrun
  cases heq
  exact ⟨hrun, hfields, hreported "mode" mode hmode,
    (hvanishes (settingsCompiler.atProperty "mode") mode false .nothing hmode).mp rfl⟩

end SchemaShape
