import SchemaShape.Narrowing
import SchemaShape.Proofs.Json.Parts
import SchemaShape.Proofs.Name

/-! # Narrowing along properties

A path that leads from one object schema to the next through `properties`, where none of the schemas
that it leads to has a title or an identifier of its own, ends in the schema that it leads to, with the
title and the identifier of the root and the path appended to both.
-/

namespace SchemaShape.Narrowing
set_option autoImplicit false

/-- The members of a root schema that narrowing keeps. -/
def kept (root : Members) : Members :=
  root.filter fun (key, _) => keptKeywords.contains key

theorem get?_of_typeIs {schema : Members} {name : String} (h : typeIs schema name = true) :
    schema.get? "type" = some (.string name) := by
  rw [typeIs] at h
  split at h
  · next value hget =>
    rw [hget, beq_iff_eq.mp h]
  · cases h

theorem typeIs_of_get? {schema : Members} {name : String}
    (h : schema.get? "type" = some (.string name)) : typeIs schema name = true := by
  rw [typeIs, h]
  exact beq_self_eq_true name

theorem typeIs_congr {schema schema' : Members} (h : schema.get? "type" = schema'.get? "type")
    (name : String) : typeIs schema name = typeIs schema' name := by
  rw [typeIs, typeIs, h]

theorem not_array_of_object {schema : Members} (h : typeIs schema "object" = true) :
    typeIs schema "array" = false := by
  rw [typeIs, get?_of_typeIs h]
  rfl

/-- The path leads through the properties of object schemas, to schemas that have no title and no
identifier and declare no draft. -/
inductive Leads : Members → List String → Members → Prop where
  | here (schema : Members) : Leads schema [] schema
  | step {schema properties child node : Members} {segment : String} {rest : List String}
      (htype : typeIs schema "object" = true)
      (hproperties : schema.get? "properties" = some (.object properties))
      (hself : segment ≠ selfSegment)
      (hchild : Members.get? properties segment = some (.object child))
      (hbare : ∀ keyword ∈ "id" :: inheritedKeywords, child.get? keyword = none)
      (h : Leads child rest node) : Leads schema (segment :: rest) node

/-! ## Texts along a path -/

/-- A text with the segments of a path appended. -/
def textAlong (separator text : String) (path : List String) : String :=
  path.foldl (fun text segment => text ++ (separator ++ segment)) text

/-- What narrowing makes of a member that carries the path. -/
def along (separator : String) (path : List String) : Json → Json
  | .string text => .string (textAlong separator text path)
  | other => other

theorem along_nil (separator : String) : along separator [] = id := by
  funext value
  cases value <;> rfl

theorem along_concat (separator : String) (path : List String) (segment : String) (value : Json) :
    along separator [segment] (along separator path value) =
      along separator (path ++ [segment]) value := by
  cases value with
  | string text => simp only [along, textAlong, List.foldl_append]
  | _ => rfl

theorem ofTitle_textAlong (title : String) (path : List String) :
    Name.ofTitle (textAlong " " title path) =
      Name.ofTitle title ++ String.join (path.map Name.ofTitle) := by
  induction path generalizing title with
  | nil => rw [textAlong, List.foldl_nil, List.map_nil, String.join_nil, String.append_empty]
  | cons segment rest ih =>
    show Name.ofTitle (textAlong " " (title ++ (" " ++ segment)) rest) = _
    rw [ih, ← String.append_assoc, Name.ofTitle_blank, List.map_cons, String.join_cons,
      String.append_assoc]

/-! ## One segment -/

theorem get?_inherit (parent child : Members) (keyword key : String) :
    (inherit parent child keyword).get? key =
      if key = keyword then (child.get? keyword).or (parent.get? keyword) else child.get? key := by
  rw [inherit, Members.contains_eq]
  cases hchild : child.get? keyword with
  | some value =>
    rw [Option.isSome_some, if_pos rfl, Option.some_or]
    by_cases h : key = keyword
    · rw [if_pos h, h, hchild]
    · rw [if_neg h]
  | none =>
    rw [Option.isSome_none, if_neg Bool.false_ne_true, Option.none_or]
    split
    · next value hparent =>
      rw [Members.get?_set]
      by_cases h : key = keyword
      · rw [if_pos h, if_pos h, hparent]
      · rw [if_neg h, if_neg h]
    · next hparent =>
      by_cases h : key = keyword
      · rw [if_pos h, h, hchild, hparent]
      · rw [if_neg h]

theorem get?_appendTo (schema : Members) (keyword separator segment key : String) :
    (appendTo keyword (separator ++ segment) schema).get? key =
      if key = keyword then (schema.get? keyword).map (along separator [segment])
      else schema.get? key := by
  rw [appendTo]
  split
  · next text htext =>
    rw [Members.get?_set]
    by_cases h : key = keyword
    · rw [if_pos h, if_pos h, htext]
      rfl
    · rw [if_neg h, if_neg h]
  · next hother =>
    by_cases h : key = keyword
    · rw [if_pos h, h]
      cases hvalue : schema.get? keyword with
      | none => rfl
      | some value =>
        cases value with
        | string text => exact absurd hvalue (hother text)
        | _ => rfl
    · rw [if_neg h]

section

variable {parent child : Members} {segment : String}

theorem get?_enterProperty {key : String} (hkey : key ∉ inheritedKeywords) :
    (enterProperty parent child segment).get? key = child.get? key := by
  simp only [inheritedKeywords, List.mem_cons, List.not_mem_nil, or_false, not_or] at hkey
  simp only [enterProperty, inheritedKeywords, List.foldl_cons, List.foldl_nil, get?_appendTo,
    get?_inherit, if_neg hkey.1, if_neg hkey.2.1, if_neg hkey.2.2]

theorem distinct_enterProperty (distinct : (child.map Prod.fst).Nodup) :
    ((enterProperty parent child segment).map Prod.fst).Nodup := by
  have hinherit : ∀ {members : Members} (keyword : String), (members.map Prod.fst).Nodup →
      ((inherit parent members keyword).map Prod.fst).Nodup := by
    intro members keyword distinct
    rw [inherit]
    split
    · exact distinct
    · split
      · exact Members.distinct_set distinct
      · exact distinct
  have happend : ∀ {members : Members} (keyword suffix : String), (members.map Prod.fst).Nodup →
      ((appendTo keyword suffix members).map Prod.fst).Nodup := by
    intro members keyword suffix distinct
    rw [appendTo]
    split
    · exact Members.distinct_set distinct
    · exact distinct
  exact happend _ _ (happend _ _ (hinherit _ (hinherit _ (hinherit _ distinct))))

theorem title_enterProperty (htitle : child.get? "title" = none) :
    (enterProperty parent child segment).get? "title" =
      (parent.get? "title").map (along " " [segment]) := by
  simp [enterProperty, inheritedKeywords, get?_appendTo, get?_inherit, htitle]

variable (hbare : ∀ keyword ∈ inheritedKeywords, child.get? keyword = none)

include hbare

theorem id_enterProperty :
    (enterProperty parent child segment).get? "$id" =
      (parent.get? "$id").map (along "/" [segment]) := by
  have hid := hbare "$id" (by decide)
  simp [enterProperty, inheritedKeywords, get?_appendTo, get?_inherit, hid]

theorem draft_enterProperty :
    (enterProperty parent child segment).get? "$schema" = parent.get? "$schema" := by
  have hschema := hbare "$schema" (by decide)
  simp [enterProperty, inheritedKeywords, get?_appendTo, get?_inherit, hschema]

theorem subset_enterProperty : child ⊆ enterProperty parent child segment := by
  rintro ⟨key, value⟩ mem
  have hkey : key ∉ inheritedKeywords := by
    intro hkey
    have hsome := Members.get?_isSome_of_mem mem
    rw [hbare key hkey] at hsome
    cases hsome
  simp only [inheritedKeywords, List.mem_cons, List.not_mem_nil, or_false, not_or] at hkey
  have hinherit : ∀ {keyword : String} {members : Members}, key ≠ keyword →
      (key, value) ∈ members → (key, value) ∈ inherit parent members keyword := by
    intro keyword members hne mem
    rw [inherit]
    split
    · exact mem
    · split
      · exact Members.mem_set hne mem
      · exact mem
  have happend : ∀ {keyword suffix : String} {members : Members}, key ≠ keyword →
      (key, value) ∈ members → (key, value) ∈ appendTo keyword suffix members := by
    intro keyword suffix members hne mem
    rw [appendTo]
    split
    · exact Members.mem_set hne mem
    · exact mem
  exact happend hkey.2.2 (happend hkey.2.1
    (hinherit hkey.2.2 (hinherit hkey.2.1 (hinherit hkey.1 mem))))

end

theorem property_ok {schema next : Members} {segment : String} (h : property segment schema = .ok next) :
    typeIs schema "object" = true ∧ ∃ properties : Members,
      schema.get? "properties" = some (.object properties) ∧
        (segment = selfSegment ∧ next = schema ∨ segment ≠ selfSegment ∧ ∃ child : Members,
          Members.get? properties segment = some (.object child) ∧
            next = enterProperty schema child segment) := by
  rw [property] at h
  split at h
  · cases h
  · next hobject =>
    refine ⟨by simpa using hobject, ?_⟩
    split at h
    · next properties hproperties =>
      refine ⟨properties, hproperties, ?_⟩
      split at h
      · next hself =>
        cases h
        exact .inl ⟨hself, rfl⟩
      · next hself =>
        split at h
        · next child hchild =>
          cases h
          exact .inr ⟨hself, child, hchild, rfl⟩
        · cases h
        · cases h
    · cases h

/-! ## The keywords that narrowing goes by -/

def structuralKeywords : List String := ["type", "properties"]

section

variable {schema narrowed parent child properties : Members} {segment : String}

theorem property_of_structural
    (structural : ∀ key ∈ structuralKeywords, narrowed.get? key = schema.get? key)
    (htype : typeIs schema "object" = true)
    (hproperties : schema.get? "properties" = some (.object properties))
    (hself : segment ≠ selfSegment)
    (hchild : Members.get? properties segment = some (.object child)) :
    typeIs narrowed "array" = false ∧
      property segment narrowed = .ok (enterProperty narrowed child segment) := by
  have htypes := typeIs_congr (structural "type" (by decide))
  refine ⟨(htypes _).trans (not_array_of_object htype), ?_⟩
  rw [property, htypes, htype, Bool.not_true, if_neg Bool.false_ne_true,
    structural "properties" (by decide), hproperties]
  simp only [if_neg hself, hchild]

theorem structural_enterProperty :
    ∀ key ∈ structuralKeywords, (enterProperty parent child segment).get? key = child.get? key := by
  have hkeys : ∀ key ∈ structuralKeywords, key ∉ inheritedKeywords := by decide
  exact fun key mem => get?_enterProperty (hkeys key mem)

end

/-! ## Whole paths -/

/-- The narrowed schema says what the node says, and carries the path from a schema on. -/
structure Carries (start : Members) (path : List String) (node narrowed : Members) : Prop where
  others : ∀ key ∉ inheritedKeywords, narrowed.get? key = node.get? key
  draft : narrowed.get? "$schema" = start.get? "$schema"
  title : narrowed.get? "title" = (start.get? "title").map (along " " path)
  id : narrowed.get? "$id" = (start.get? "$id").map (along "/" path)

theorem Carries.typeIs_eq {start node narrowed : Members} {path : List String} {name : String}
    (h : Carries start path node narrowed) : typeIs narrowed name = typeIs node name := by
  rw [typeIs, typeIs, h.others "type" (by decide)]

theorem Carries.enter {start schema narrowed properties child : Members} {path : List String}
    {segment : String} (h : Carries start path schema narrowed)
    (htype : typeIs schema "object" = true)
    (hproperties : schema.get? "properties" = some (.object properties))
    (hself : segment ≠ selfSegment)
    (hchild : Members.get? properties segment = some (.object child))
    (hbare : ∀ keyword ∈ inheritedKeywords, child.get? keyword = none) :
    property segment narrowed = .ok (enterProperty narrowed child segment) ∧
      Carries start (path ++ [segment]) child (enterProperty narrowed child segment) := by
  refine ⟨?_, fun key hkey => get?_enterProperty hkey, ?_, ?_, ?_⟩
  · have hobject : typeIs narrowed "object" = true := h.typeIs_eq.trans htype
    rw [property, hobject, Bool.not_true, if_neg Bool.false_ne_true,
      h.others "properties" (by decide), hproperties]
    simp only [if_neg hself, hchild]
  · rw [draft_enterProperty hbare, h.draft]
  · rw [title_enterProperty (hbare "title" (by decide)), h.title, Option.map_map]
    exact congrArg (Option.map · _) (funext (along_concat " " path segment))
  · rw [id_enterProperty hbare, h.id, Option.map_map]
    exact congrArg (Option.map · _) (funext (along_concat "/" path segment))

theorem descend_leads {start schema narrowed node : Members} {before path : List String}
    (h : Leads schema path node) (hcarries : Carries start before schema narrowed)
    (hfinish : (node.get? "properties").isSome → typeIs node "object" = true) :
    ∃ result, descend narrowed path = .ok result ∧ Carries start (before ++ path) node result ∧
      (schema ⊆ narrowed ∨ path ≠ [] → node ⊆ result) := by
  induction h generalizing narrowed before with
  | here schema =>
    have hkeep : finish narrowed = narrowed := by
      rw [finish]
      refine if_neg fun hboth => ?_
      rw [Bool.and_eq_true, Members.contains_eq, hcarries.others "properties" (by decide)] at hboth
      have hobject := hcarries.typeIs_eq.trans (hfinish hboth.1)
      rw [hobject] at hboth
      cases hboth.2
    refine ⟨narrowed, by rw [descend, hkeep], by rwa [List.append_nil], fun hsub => ?_⟩
    exact hsub.resolve_right fun hne => hne rfl
  | @step schema properties child node segment rest htype hproperties hself hchild hbare h ih =>
    have hbare : ∀ keyword ∈ inheritedKeywords, child.get? keyword = none :=
      fun keyword mem => hbare keyword (List.mem_cons_of_mem _ mem)
    obtain ⟨hproperty, hchildCarries⟩ := hcarries.enter htype hproperties hself hchild hbare
    obtain ⟨result, hresult, hresultCarries, hsub⟩ := ih hchildCarries hfinish
    have harray : typeIs narrowed "array" = false :=
      hcarries.typeIs_eq.trans (not_array_of_object htype)
    refine ⟨result, ?_, ?_, fun _ => hsub (.inl (subset_enterProperty hbare))⟩
    · rw [descend, harray, if_neg Bool.false_ne_true, hproperty]
      exact hresult
    · rwa [List.append_assoc] at hresultCarries

theorem get?_kept {root : Members} {key : String} (hkey : key ∈ keptKeywords) :
    (kept root).get? key = root.get? key := by
  induction root with
  | nil => rfl
  | cons member rest ih =>
    obtain ⟨other, value⟩ := member
    simp only [kept, List.filter_cons] at ih ⊢
    split
    · simp only [Members.get?_cons, ih]
    · next hother =>
      have hne : key ≠ other := by
        intro heq
        subst heq
        exact hother (List.contains_iff_mem.mpr hkey)
      simp only [Members.get?_cons, if_neg hne, ih]

/-- Narrowing along such a path gives the members of the schema at its end, and the title and the
identifier of the root with the path appended. -/
theorem narrow_leads {root node : Members} {path : List String} (hpath : path ≠ [])
    (h : Leads root path node)
    (hfinish : (node.get? "properties").isSome → typeIs node "object" = true) :
    ∃ narrowed : Members, narrow (.object root) path = .ok (.object narrowed) ∧
      Carries root path node narrowed ∧ node ⊆ narrowed := by
  have hkept : Leads (kept root) path node := by
    cases h with
    | here => exact absurd rfl hpath
    | step htype hproperties hself hchild hbare h =>
      have htype' : typeIs (kept root) "object" = true := by
        rw [typeIs, get?_kept (by decide)]
        exact htype
      exact .step htype' ((get?_kept (by decide)).trans hproperties) hself hchild hbare h
  have hstart : Carries (kept root) [] (kept root) (kept root) := by
    refine ⟨fun _ _ => rfl, rfl, ?_, ?_⟩
    · rw [along_nil, Option.map_id, id]
    · rw [along_nil, Option.map_id, id]
  obtain ⟨narrowed, hdescend, hcarries, hsub⟩ := descend_leads hkept hstart hfinish
  refine ⟨narrowed, ?_, ⟨hcarries.others, ?_, ?_, ?_⟩, hsub (.inr hpath)⟩
  · show (descend (kept root) path).map Json.object = _
    rw [hdescend]
    rfl
  · rw [hcarries.draft, get?_kept (by decide)]
  · rw [hcarries.title, get?_kept (by decide), List.nil_append]
  · rw [hcarries.id, get?_kept (by decide), List.nil_append]

end SchemaShape.Narrowing
