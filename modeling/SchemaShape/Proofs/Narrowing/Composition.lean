import SchemaShape.Proofs.Json.Members
import SchemaShape.Proofs.Narrowing.Path

/-! # One path after another

Narrowing along a path and then along another one is narrowing along both, if the first one ends at an
object schema and the second one leaves it. In between narrowing drops what it does not keep of a root.
But from an object schema it goes by the keywords that are kept, and leaves all others behind with the
first property that it enters; until then every `#` stays at the schema.
-/

namespace SchemaShape
set_option autoImplicit false

namespace Narrowing

variable {schema schema' narrowed : Members} {segment : String} {rest : List String}

/-! ## Well-formed schemas -/

theorem wellFormed_unwrap {item : Members} {items : Option Json}
    (formed : (Json.object schema).wellFormed = true)
    (hitems : ∀ value, items = some value → value.wellFormed = true)
    (h : unwrap segment schema items = .ok item) : (Json.object item).wellFormed = true := by
  fun_induction unwrap segment schema items with
  | case1 schema items hother =>
    cases h
    exact formed
  | case2 schema harray =>
    cases h
    exact formed
  | case3 schema harray =>
    cases h
    exact Json.wellFormed_remove formed
  | case4 schema harray inner ih =>
    have hinner := hitems _ rfl
    exact ih (Json.wellFormed_extend (Json.wellFormed_remove formed)
      (Json.wellFormed_object_iff.mp hinner).2) (fun _ => Json.wellFormed_get? hinner) h
  | case5 => cases h

theorem wellFormed_enterProperty {parent child : Members}
    (hparent : (Json.object parent).wellFormed = true)
    (hchild : (Json.object child).wellFormed = true) :
    (Json.object (enterProperty parent child segment)).wellFormed = true := by
  have hinherit : ∀ {members : Members} (keyword : String),
      (Json.object members).wellFormed = true →
      (Json.object (inherit parent members keyword)).wellFormed = true := by
    intro members keyword formed
    rw [inherit]
    split
    · exact formed
    · split
      · next hvalue => exact Json.wellFormed_set formed (Json.wellFormed_get? hparent hvalue)
      · exact formed
  have happend : ∀ {members : Members} (keyword suffix : String),
      (Json.object members).wellFormed = true →
      (Json.object (appendTo keyword suffix members)).wellFormed = true := by
    intro members keyword suffix formed
    rw [appendTo]
    split
    · exact Json.wellFormed_set formed rfl
    · exact formed
  exact happend _ _ (happend _ _ (hinherit _ (hinherit _ (hinherit _ hchild))))

theorem wellFormed_property {next : Members} (formed : (Json.object schema).wellFormed = true)
    (h : property segment schema = .ok next) : (Json.object next).wellFormed = true := by
  obtain ⟨-, properties, hproperties, ⟨-, rfl⟩ | ⟨-, child, hchild, rfl⟩⟩ := property_ok h
  · exact formed
  · have hproperties' := Json.wellFormed_get? formed hproperties
    exact wellFormed_enterProperty formed (Json.wellFormed_get? hproperties' hchild)

theorem wellFormed_kept {root : Members} (formed : (Json.object root).wellFormed = true) :
    (Json.object (kept root)).wellFormed = true := by
  obtain ⟨distinct, hparts⟩ := Json.wellFormed_object_iff.mp formed
  exact Json.wellFormed_object_iff.mpr ⟨distinct.sublist (List.Sublist.map _ List.filter_sublist),
    fun member mem => hparts member (List.mem_filter.mp mem).1⟩

/-! ## One segment -/

theorem unwrap_flat (h : typeIs schema "array" = false) (items : Option Json) :
    unwrap segment schema items = .ok schema := by
  rw [unwrap.eq_def, h]
  rfl

theorem unwrap_level (h : typeIs schema "array" = true) (inner : Members) :
    unwrap segment schema (some (.object inner)) =
      unwrap segment ((schema.remove "items").extend inner) (inner.get? "items") := by
  rw [unwrap, h]
  rfl

theorem descend_flat (h : typeIs schema "array" = false) :
    descend schema (segment :: rest) = (property segment schema).bind (descend · rest) := by
  rw [descend, h, if_neg Bool.false_ne_true]
  rfl

theorem descend_array (h : typeIs schema "array" = true) :
    descend schema (segment :: rest) =
      (unwrap segment schema (schema.get? "items")).bind fun item =>
        if typeIs item "object" then descend item (segment :: rest) else .ok item := by
  rw [descend, if_pos h]
  cases unwrap segment schema (schema.get? "items") with
  | error failure => rfl
  | ok item =>
    show (if typeIs item "object" = true then _ else _) = if typeIs item "object" = true then _ else _
    split
    · next hobject =>
      rw [descend_flat (not_array_of_object hobject)]
      rfl
    · rfl

/-- How narrowing comes to its result: through arrays and properties to the end of the path, or to the
items of an array that are no objects. -/
inductive Descent : Members → List String → Members → Prop where
  | done (schema : Members) : Descent schema [] (finish schema)
  | property {schema next narrowed : Members} {segment : String} {rest : List String}
      (harray : typeIs schema "array" = false) (hproperty : property segment schema = .ok next)
      (h : Descent next rest narrowed) : Descent schema (segment :: rest) narrowed
  | level {schema item narrowed : Members} {segment : String} {rest : List String}
      (harray : typeIs schema "array" = true)
      (hunwrap : unwrap segment schema (schema.get? "items") = .ok item)
      (hobject : typeIs item "object" = true) (h : Descent item (segment :: rest) narrowed) :
      Descent schema (segment :: rest) narrowed
  | stop {schema item : Members} {segment : String} {rest : List String}
      (harray : typeIs schema "array" = true)
      (hunwrap : unwrap segment schema (schema.get? "items") = .ok item)
      (hobject : typeIs item "object" = false) : Descent schema (segment :: rest) item

theorem descent_of_ok {path : List String} (h : descend schema path = .ok narrowed) :
    Descent schema path narrowed := by
  induction path generalizing schema with
  | nil =>
    rw [descend] at h
    cases h
    exact .done schema
  | cons segment rest ih =>
    have hflat : ∀ {schema : Members}, typeIs schema "array" = false →
        descend schema (segment :: rest) = .ok narrowed →
        Descent schema (segment :: rest) narrowed := by
      intro schema harray h
      rw [descend_flat harray] at h
      cases hproperty : Narrowing.property segment schema with
      | error failure =>
        rw [hproperty] at h
        cases h
      | ok next =>
        rw [hproperty] at h
        exact .property harray hproperty (ih h)
    cases harray : typeIs schema "array" with
    | false => exact hflat harray h
    | true =>
      rw [descend_array harray] at h
      cases hunwrap : unwrap segment schema (schema.get? "items") with
      | error failure =>
        rw [hunwrap] at h
        cases h
      | ok item =>
        rw [hunwrap] at h
        change (if typeIs item "object" = true then _ else _) = Except.ok narrowed at h
        split at h
        · next hobject => exact .level harray hunwrap hobject (hflat (not_array_of_object hobject) h)
        · next hobject =>
          cases h
          exact .stop harray hunwrap (Bool.eq_false_iff.mpr hobject)

theorem finish_of_object (formed : (Json.object schema).wellFormed = true)
    (h : typeIs (finish schema) "object" = true) : finish schema = schema := by
  rw [finish] at h ⊢
  split at h
  · next hstale =>
    rw [Bool.and_eq_true, Bool.not_eq_true'] at hstale
    rw [typeIs_congr (Members.get?_remove_ne (Json.wellFormed_distinct formed) (by decide)),
      hstale.2] at h
    cases h
  · next hkeep => exact if_neg hkeep

/-- A path that ends at an object schema can be gone on from there. -/
theorem descend_append {path : List String} (formed : (Json.object schema).wellFormed = true)
    (h : descend schema path = .ok narrowed) (htype : typeIs narrowed "object" = true) :
    descend schema (path ++ rest) = descend narrowed rest := by
  have hdescent := descent_of_ok h
  clear h
  induction hdescent with
  | done schema => rw [List.nil_append, finish_of_object formed htype]
  | property harray hproperty _ ih =>
    rw [List.cons_append, descend_flat harray, hproperty]
    exact ih (wellFormed_property formed hproperty) htype
  | level harray hunwrap hobject _ ih =>
    have hitem := wellFormed_unwrap formed (fun _ => Json.wellFormed_get? formed) hunwrap
    rw [List.cons_append, descend_array harray, hunwrap, ← List.cons_append, ← ih hitem htype]
    exact if_pos hobject
  | stop _ _ hobject =>
    -- Where a path stops inside an array, it does not end at an object.
    rw [hobject] at htype
    cases htype

/-! ## Schemas that agree in what is kept -/

theorem enterProperty_agree {parent parent' : Members}
    (agree : ∀ keyword ∈ inheritedKeywords, parent.get? keyword = parent'.get? keyword)
    (child : Members) (segment : String) :
    enterProperty parent child segment = enterProperty parent' child segment := by
  have hinherit : ∀ keyword ∈ inheritedKeywords, ∀ members : Members,
      inherit parent members keyword = inherit parent' members keyword := by
    intro keyword mem members
    rw [inherit, inherit, agree keyword mem]
  have hfold : inheritedKeywords.foldl (inherit parent) child =
      inheritedKeywords.foldl (inherit parent') child := by
    simp only [inheritedKeywords, List.foldl_cons, List.foldl_nil, hinherit "$schema" (by decide),
      hinherit "$id" (by decide), hinherit "title" (by decide)]
  rw [enterProperty, enterProperty, hfold]

section

variable (agree : ∀ key ∈ keptKeywords, schema.get? key = schema'.get? key)

include agree

theorem typeText_agree : typeText schema = typeText schema' := by
  rw [typeText, typeText, agree "type" (by decide)]

theorem property_agree (hself : segment ≠ selfSegment) :
    property segment schema = property segment schema' := by
  have hkept : ∀ keyword ∈ inheritedKeywords, keyword ∈ keptKeywords := by decide
  have henter := enterProperty_agree fun keyword mem => agree keyword (hkept keyword mem)
  rw [property, property, typeIs_congr (agree "type" (by decide)), typeText_agree agree,
    agree "properties" (by decide)]
  split
  · rfl
  · split
    · split
      · next child _ => rw [henter child segment]
      · rfl
      · rfl
    · rfl

theorem property_self_agree :
    property selfSegment schema = (property selfSegment schema').map fun _ => schema := by
  rw [property, property, typeIs_congr (agree "type" (by decide)), typeText_agree agree,
    agree "properties" (by decide)]
  split
  · rfl
  · split
    · rw [if_pos rfl, if_pos rfl]
      rfl
    · rfl

/-- From object schemas that agree in what is kept a path leads to the same, unless it stays. -/
theorem descend_agree (htype : typeIs schema "object" = true) (path : List String) :
    descend schema path = descend schema' path ∨ (∀ segment ∈ path, segment = selfSegment) ∧
      descend schema path = .ok schema ∧ descend schema' path = .ok schema' := by
  have htype' : typeIs schema' "object" = true :=
    (typeIs_congr (agree "type" (by decide)) _).symm.trans htype
  have hfinish : ∀ {members : Members}, typeIs members "object" = true → finish members = members := by
    intro members hobject
    rw [finish, hobject, Bool.not_true, Bool.and_false, if_neg Bool.false_ne_true]
  induction path with
  | nil =>
    refine .inr ⟨fun _ mem => absurd mem List.not_mem_nil, ?_, ?_⟩
    · rw [descend, hfinish htype]
    · rw [descend, hfinish htype']
  | cons segment path ih =>
    rw [descend_flat (not_array_of_object htype), descend_flat (not_array_of_object htype')]
    by_cases hself : segment = selfSegment
    · subst hself
      have hself := property_self_agree agree
      have hself' := property_self_agree fun key mem => (agree key mem).symm
      cases hproperty : property selfSegment schema' with
      | error failure =>
        rw [hself, hproperty]
        exact .inl rfl
      | ok next =>
        rw [hproperty] at hself
        rw [hself, hproperty] at hself'
        rw [hself, Except.ok.inj hself']
        exact ih.imp_right fun hstays => ⟨List.forall_mem_cons.mpr ⟨rfl, hstays.1⟩, hstays.2⟩
    · rw [property_agree agree hself]
      exact .inl rfl

end

end Narrowing

open Narrowing

/-- Narrowing along two paths one after another is narrowing along both, with the same failures, if the
first one ends at an object schema and the second one leaves it. -/
theorem narrow_append {schema narrowed : Json} {path rest : List String}
    (formed : schema.wellFormed = true) (h : narrow schema path = .ok narrowed)
    (htype : narrowed.get? "type" = some (.string "object"))
    (hrest : ∃ segment ∈ rest, segment ≠ selfSegment) :
    narrow schema (path ++ rest) = narrow narrowed rest := by
  cases schema with
  | object root =>
    have hnarrow : ∀ path, narrow (.object root) path = (descend (kept root) path).map .object :=
      fun _ => rfl
    rw [hnarrow] at h ⊢
    cases hdescend : descend (kept root) path with
    | error failure =>
      rw [hdescend] at h
      cases h
    | ok result =>
      rw [hdescend] at h
      cases h
      have hobject : typeIs result "object" = true := typeIs_of_get? htype
      have hkept : typeIs (kept result) "object" = true := by
        rw [typeIs_congr (get?_kept (by decide)), hobject]
      rw [descend_append (wellFormed_kept formed) hdescend hobject]
      rcases descend_agree (fun key mem => get?_kept mem) hkept rest with heq | ⟨hstays, -⟩
      · show _ = (descend (kept result) rest).map Json.object
        rw [heq]
      · obtain ⟨segment, mem, hself⟩ := hrest
        exact absurd (hstays segment mem) hself
  | _ => cases h

/-- The schema of a person with a name. -/
def authorSchema : Members :=
  [("type", .string "object"),
    ("properties", .object [("name", .object [("type", .string "string")])])]

/-- A list of books, each with its author. -/
def catalogSchema : Json :=
  .object [("title", .string "Catalog"), ("type", .string "object"),
    ("required", .array [.string "books"]),
    ("properties", .object [("books", .object [("type", .string "array"),
      ("items", .object [("type", .string "object"), ("required", .array [.string "author"]),
        ("properties", .object [("author", .object authorSchema)])])])])]

theorem narrow_append_catalog :
    let author := Json.object (authorSchema ++ [("title", .string "Catalog books author")])
    catalogSchema.wellFormed = true ∧ narrow catalogSchema ["books", "author"] = .ok author ∧
      author.get? "type" = some (.string "object") ∧
      (∃ segment ∈ ["#", "name"], segment ≠ selfSegment) ∧
      narrow catalogSchema (["books", "author"] ++ ["#", "name"]) = narrow author ["#", "name"] := by
  intro author
  have formed : catalogSchema.wellFormed = true := by decide +kernel
  have hauthor : narrow catalogSchema ["books", "author"] = .ok author := by
    -- The books are a list, whose items are looked through before the author is entered.
    show (descend _ _).map Json.object = _
    rw [descend_flat rfl]
    show (descend _ _).map Json.object = _
    rw [descend_array rfl]
    show ((unwrap _ _ (some (.object _))).bind _).map Json.object = _
    rw [unwrap_level rfl, unwrap_flat rfl]
    rfl
  have hleaves : ∃ segment ∈ ["#", "name"], segment ≠ selfSegment := ⟨"name", by simp, by decide⟩
  exact ⟨formed, hauthor, rfl, hleaves, narrow_append formed hauthor rfl hleaves⟩

end SchemaShape
