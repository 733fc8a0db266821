import SchemaShape.Proofs.Compiler.Root
import SchemaShape.Proofs.Json.Members
import SchemaShape.Proofs.Isolation
import SchemaShape.Proofs.Narrowing.Scope
import SchemaShape.Shape.Optional

/-! # Narrowing to the whole

The segment `#` stays at the root of a document, and of the root it keeps everything but what constrains
the whole value: a narrowed root has no required fields, and that is all it differs in. The compile of
an object schema at `#` is the compile of the whole schema with its fields made optional.
-/

namespace SchemaShape
set_option autoImplicit false

open Narrowing

/-! ## Actions that give something changed -/

namespace Compile

variable {α α' β β' : Type} {f : α → α'} {g : β → β'} {action : Compile α} {action' : Compile α'}

/-- The second action gives what the first one does, but changed, and it fails and reports alike. -/
def Changed (f : α → α') (action : Compile α) (action' : Compile α') : Prop :=
  ∀ c, action' c = ((action c).1.map f, (action c).2)

theorem changed_pure {value : α} {value' : α'} (h : f value = value') :
    Changed f (pure value) (pure value') := by
  intro c
  rw [← h]
  rfl

theorem Changed.bind {next : α → Compile β} {next' : α' → Compile β'} (h : Changed f action action')
    (hnext : ∀ value, Changed g (next value) (next' (f value))) :
    Changed g (action >>= next) (action' >>= next') := by
  intro c
  have haction := h c
  rcases hrun : action c with ⟨result, after⟩
  rw [hrun] at haction
  cases result with
  | error failure => rw [bind_error hrun, bind_error haction]; rfl
  | ok value => rw [bind_ok hrun, bind_ok haction, hnext value after]

theorem changed_after {next : α → Compile β} {next' : α → Compile β'}
    (hnext : ∀ value, Changed g (next value) (next' value)) :
    Changed g (action >>= next) (action >>= next') := by
  have hsame : Changed id action action := by
    intro c
    rcases hrun : action c with ⟨_ | _, _⟩ <;> rfl
  exact hsame.bind hnext

theorem Changed.inScope (h : Changed f action action') (id : String) :
    Changed f (inScope id action) (inScope id action') := by
  intro c
  simp only [Compile.inScope]
  split
  · rfl
  · simp only [between, h _]

theorem Changed.gives {c : Compiler} {result : Except Failure α} {added : List Diagnostic}
    (h : Changed f action action') (hgives : action.Gives c result added) :
    action'.Gives c (result.map f) added := by
  intro prior
  rw [h, hgives prior]

end Compile

/-! ## Fields that are not required -/

theorem Narrowing.get?_dropped {root : Members} {key : String} (hkey : key ∉ keptKeywords) :
    (kept root).get? key = none := by
  refine Members.get?_eq_none fun mem => hkey ?_
  obtain ⟨member, hmember, rfl⟩ := List.mem_map.mp mem
  exact List.contains_iff_mem.mp (List.mem_filter.mp hmember).2

namespace Shape

/-- A shape as it is when the fields of a record are optional. -/
def relaxed (shape : Shape) : Shape := (shape.optionalize "").1

theorem relaxed_eq (shape : Shape) (location : String) :
    (shape.optionalize location).1 = shape.relaxed := by
  cases shape <;> rfl

end Shape

namespace Node

open Compile

variable {follow : Follow} {inner : Inner} {schema : Members}

theorem changed_fields (required : List String) (properties : Members) :
    Changed (List.map fun field => { field with required := false })
      (fields inner required properties) (fields inner [] properties) := by
  induction properties with
  | nil => exact changed_pure rfl
  | cons member rest ih =>
    obtain ⟨key, part⟩ := member
    simp only [fields]
    split
    · exact ih
    · refine changed_after fun shape => ih.bind fun others => changed_pure ?_
      split <;> rfl

theorem changed_object {schema' properties : Members}
    (hproperties : schema.get? "properties" = some (.object properties))
    (hproperties' : schema'.get? "properties" = some (.object properties))
    (hrequired : schema'.get? "required" = none) (outer : Bool) :
    Changed Shape.relaxed (object inner schema outer) (object inner schema' outer) := by
  have hnames : requiredNames schema' = [] := by rw [requiredNames, hrequired]
  simp only [object, hproperties, hproperties', hnames]
  exact changed_after fun name => (changed_fields _ _).bind fun fields => changed_pure rfl

/-- A root like this has a record, and one that is like it but has nothing required has the record with
optional fields. -/
structure ObjectRoot (schema properties : Members) : Prop where
  type : schema.get? "type" = some (.string "object")
  properties : schema.get? "properties" = some (.object properties)
  enum : schema.get? "enum" = none
  id : schema.get? "id" = none

namespace ObjectRoot

variable {properties : Members} (root : ObjectRoot schema properties)

include root

theorem members_eq (outer : Bool) :
    members follow inner schema outer = object inner schema outer := by
  simp only [members, root.type, named, root.enum]
  rfl

theorem kept : ObjectRoot (Narrowing.kept schema) properties where
  type := (get?_kept (by decide)).trans root.type
  properties := (get?_kept (by decide)).trans root.properties
  enum := get?_dropped (by decide)
  id := get?_dropped (by decide)

theorem idOf?_kept (draft : Draft) : draft.idOf? (Narrowing.kept schema) = draft.idOf? schema := by
  rw [draft.idOf?_alike root.id, draft.idOf?_alike root.kept.id, get?_kept (by decide)]

theorem changed_shape (outer : Bool) :
    Changed Shape.relaxed (shape follow inner (.object schema) outer)
      (shape follow inner (.object (Narrowing.kept schema)) outer) := by
  have hmembers : Changed Shape.relaxed (members follow inner schema outer)
      (members follow inner (Narrowing.kept schema) outer) := by
    rw [root.members_eq, root.kept.members_eq]
    exact changed_object root.properties root.kept.properties (get?_dropped (by decide)) outer
  simp only [shape, root.idOf?_kept]
  refine changed_after fun id => ?_
  cases id with
  | none => exact hmembers
  | some id => exact hmembers.inScope id

theorem changed_upTo (depth : Nat) (outer : Bool) :
    Changed Shape.relaxed (upTo depth (.object schema) outer)
      (upTo depth (.object (Narrowing.kept schema)) outer) := by
  have hheight : (Json.object (Narrowing.kept schema)).height ≤ Json.heightMembers schema + 1 :=
    Json.height_mono (List.filter_subset_self _)
  rw [upTo_of_height (Nat.le_refl (Json.heightMembers schema + 1)), upTo_of_height hheight]
  exact root.changed_shape outer

theorem outer_record {depth : Nat} {c : Compiler} {result : Shape} {added : List Diagnostic}
    (h : (upTo depth (.object schema) true).Gives c (.ok result) added) :
    ∃ fields, result = .record c.recordName true fields := by
  have hheight : (Json.object schema).height ≤ Json.heightMembers schema + 1 := Nat.le_refl _
  rw [upTo_of_height hheight] at h
  obtain ⟨place, hinside, hmembers⟩ := h.members_ok hheight
  rw [root.members_eq] at hmembers
  obtain ⟨fields, rfl, -⟩ :=
    object_fields_ok (tidyInners_nested hheight) root.properties hmembers
  have hplace : place.recordName = c.recordName := by
    rw [Inside] at hinside
    split at hinside
    · rw [hinside]
    · obtain ⟨resolver, -, rfl⟩ := hinside
      rfl
  exact ⟨fields, by rw [hplace]⟩

end ObjectRoot

end Node

namespace Narrowing

theorem narrow_self {schema properties : Members} (root : Node.ObjectRoot schema properties) :
    narrow (.object schema) [selfSegment] = .ok (.object (kept schema)) := by
  have hobject : typeIs (kept schema) "object" = true := typeIs_of_get? root.kept.type
  have harray : typeIs (kept schema) "array" = false := not_array_of_object hobject
  have hself : property selfSegment (kept schema) = .ok (kept schema) := by
    simp [property, hobject, root.kept.properties]
  have hfinish : finish (kept schema) = kept schema := by
    simp [finish, hobject]
  show ((descend (kept schema) [selfSegment]).map Json.object) = _
  rw [descend, harray, if_neg Bool.false_ne_true, hself]
  show ((descend (kept schema) []).map Json.object) = _
  rw [descend, hfinish]
  rfl

end Narrowing

namespace Session

/-- Where the identifier stays the same there is nothing to lead back. -/
theorem aliasNarrowed_same {draft : Draft} {root narrowed : Members} (resolver : Resolver)
    (h : draft.idOf? narrowed = draft.idOf? root) :
    aliasNarrowed draft (.object root) (.object narrowed) resolver = resolver := by
  cases hid : draft.idOf? root with
  | none => exact aliasNarrowed_none (h.trans hid)
  | some id =>
    simp only [aliasNarrowed, Json.asMembers?, Option.bind_some, h, hid]
    cases hjoin : resolver.base.join id with
    | error e => rfl
    | ok url => exact if_pos rfl

theorem compilerFor_self {session : Session} {base : Url} {options : Options}
    {schema properties : Members} (root : Node.ObjectRoot schema properties) :
    session.compilerFor base (.object schema) (.object (kept schema)) true options =
      session.compilerFor base (.object schema) (.object schema) false options := by
  have hkept {key : String} (hkey : key ∈ keptKeywords) :
      (Json.object (kept schema)).get? key = (Json.object schema).get? key := get?_kept hkey
  have hdraft : Draft.detectIn (.object (kept schema)) = Draft.detectIn (.object schema) := by
    rw [Draft.detectIn, Draft.detectIn, hkept (by decide)]
  have hname : Name.ofSchema (.object (kept schema)) = Name.ofSchema (.object schema) := by
    rw [Name.ofSchema, Name.ofSchema, hkept (by decide)]
  simp only [compilerFor, hdraft, hname, if_true, aliasNarrowed_same _ (root.idOf?_kept _)]
  rfl

/-- An object schema narrowed to its own root is the whole schema with its fields made optional: it is
compiled alike, to the same reports and failures, and everything inside the fields stays. -/
theorem compile_self {session : Session} {url : Url} {schema properties : Members}
    (options : Options)
    (hregistered : session.registry.get? url.withoutFragment.text = some (.object schema))
    (root : Node.ObjectRoot schema properties) :
    session.compile url [selfSegment] options =
        (session.compile url [] options).map (fun whole => { whole with
          path := [selfSegment], root := (whole.root.optionalize (whole.url ++ "#")).1 }) ∧
      ∀ whole, session.compile url [] options = .ok whole →
        ∃ fields, whole.root = .record whole.name true fields := by
  generalize hc : session.compilerFor url.withoutFragment (.object schema) (.object schema) false
    options = c
  obtain ⟨result, added, hgives⟩ := Compile.tidy_upTo c.remaining (.object schema) true c
  have hwhole : session.compile url [] options = result.map (report url [] c added) :=
    compile_of_gives hregistered rfl hc hgives
  have hself : session.compile url [selfSegment] options =
      (result.map Shape.relaxed).map (report url [selfSegment] c added) :=
    compile_of_gives hregistered (narrow_self root) ((compilerFor_self root).trans hc)
      ((root.changed_upTo c.remaining true).gives hgives)
  rw [hself, hwhole]
  cases result with
  | error failure => exact ⟨rfl, fun whole h => nomatch h⟩
  | ok shape =>
    refine ⟨?_, ?_⟩
    · show Except.ok (report url [selfSegment] c added shape.relaxed) = _
      rw [← shape.relaxed_eq (url.text ++ "#")]
      rfl
    · intro whole h
      cases h
      obtain ⟨fields, hrecord⟩ := root.outer_record hgives
      refine ⟨fields, hrecord.trans ?_⟩
      have hname : c.recordName = c.outerName := by
        subst hc
        simp [Compiler.recordName, compilerFor, Compiler.new]
      rw [hname]
      rfl

end Session

/-- A price is required here, and its type is defined elsewhere in the schema. -/
def pricedSchema : Members :=
  [("$id", .string "http://example.com/priced"), ("title", .string "priced"),
    ("type", .string "object"), ("required", .array [.string "price"]),
    ("properties", .object [("price", .object [("$ref", .string "#/definitions/price")]),
      ("sold", .object [("type", .string "boolean")])]),
    ("definitions", .object [("price", .object [("type", .string "object"),
      ("required", .array [.string "amount"]),
      ("properties", .object [("amount", .object [("type", .string "number")])])])])]

theorem compile_self_priced :
    let document := fileAt "/priced.json" (.object pricedSchema)
    let session := Session.ofDocuments [document]
    let price := Shape.record "PricedPrice" false [⟨"amount", true, .scalar .number⟩]
    (session.compile document.url [] {}).toOption.map (·.root) =
        some (.record "Priced" true [⟨"price", true, price⟩, ⟨"sold", false, .scalar .bool⟩]) ∧
      session.compile document.url [Narrowing.selfSegment] {} =
        (session.compile document.url [] {}).map fun whole => { whole with
          path := [Narrowing.selfSegment]
          root := (whole.root.optionalize (whole.url ++ "#")).1 } := by
  intro document session price
  have root : Node.ObjectRoot pricedSchema
      [("price", .object [("$ref", .string "#/definitions/price")]),
        ("sold", .object [("type", .string "boolean")])] := ⟨rfl, rfl, rfl, rfl⟩
  exact ⟨by decide +kernel, (Session.compile_self {} (get?_alone document) root).1⟩

end SchemaShape
