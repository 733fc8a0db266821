import SchemaShape.Proofs.Compiler.Naming
import SchemaShape.Proofs.Narrowing.Levels
import SchemaShape.Proofs.Narrowing.Visits

/-! # The names of narrowed schemas

Narrowing hands the title of a schema down to properties without one, with a blank and the segment behind
it, and leaves it alone where it looks through an array. A blank is no part of a name, so the name of the
narrowed schema is that of the root and behind it those of the segments. So is the name of a record that a
compile of the whole schema has at that path, if the record does not stand for the whole document.

`Passes schema path nodes` says that narrowing follows the path to its end. Where narrowing succeeds without
that, it has stopped inside an array and gives the same schema for every longer path.
-/

namespace SchemaShape
set_option autoImplicit false

open Compile

namespace Narrowing

/-- Narrowing follows the path to its end, through these schemas: the properties that its segments name,
and the items of the arrays before them. -/
inductive Passes : Members → List String → List Members → Prop where
  | here (schema : Members) : Passes schema [] []
  | property {schema properties child : Members} {segment : String} {rest : List String}
      {nodes : List Members} (htype : typeIs schema "object" = true)
      (hproperties : schema.get? "properties" = some (.object properties))
      (hself : segment ≠ selfSegment)
      (hchild : Members.get? properties segment = some (.object child)) (h : Passes child rest nodes) :
      Passes schema (segment :: rest) (child :: nodes)
  | items {schema item : Members} {segment : String} {rest : List String} {nodes : List Members}
      (htype : typeIs schema "array" = true) (hitems : schema.get? "items" = some (.object item))
      (h : Passes ((schema.remove "items").extend item) (segment :: rest) nodes) :
      Passes schema (segment :: rest) (item :: nodes)

/-- Narrowing has come to a schema, and has this title in hand. -/
structure Titled (title : String) (schema narrowed : Members) : Prop where
  distinct : (narrowed.map Prod.fst).Nodup
  title_eq : narrowed.get? "title" = some (.string title)
  agree : ∀ key ∈ "items" :: structuralKeywords, narrowed.get? key = schema.get? key

section

variable {schema schema' narrowed child item : Members} {title segment : String} {path rest : List String}
variable {nodes : List Members}

/-! ## One level of an array -/

theorem wellFormed_level (formed : (Json.object schema).wellFormed = true)
    (hitem : (Json.object item).wellFormed = true) :
    (Json.object ((schema.remove "items").extend item)).wellFormed = true :=
  Json.wellFormed_extend (Json.wellFormed_remove formed) (Json.wellFormed_object_iff.mp hitem).2

theorem items_level (distinct : (schema.map Prod.fst).Nodup) (distinctItem : (item.map Prod.fst).Nodup) :
    ((schema.remove "items").extend item).get? "items" = item.get? "items" := by
  rw [get?_level distinct distinctItem, if_pos rfl, Option.or_none]

/-! ## Paths to the end -/

theorem Passes.type (h : Passes schema (segment :: rest) nodes) :
    typeIs schema "object" = true ∨ typeIs schema "array" = true := by
  cases h with
  | property htype => exact .inl htype
  | items htype => exact .inr htype

theorem Passes.congr (h : Passes schema path nodes) (formed : (Json.object schema).wellFormed = true)
    (distinct : (schema'.map Prod.fst).Nodup)
    (hagree : ∀ key ∈ "items" :: structuralKeywords, schema'.get? key = schema.get? key) :
    Passes schema' path nodes := by
  induction h generalizing schema' with
  | here => exact .here schema'
  | property htype hproperties hself hchild h =>
    refine .property ?_ ((hagree _ (by decide)).trans hproperties) hself hchild h
    rw [typeIs_congr (hagree "type" (by decide)), htype]
  | @items schema item segment rest nodes htype hitems h ih =>
    have hitem : (Json.object item).wellFormed = true := Json.wellFormed_get? formed hitems
    have distinctLevel : (((schema'.remove "items").extend item).map Prod.fst).Nodup :=
      Members.distinct_extend (Members.distinct_remove distinct)
    refine .items ?_ ((hagree _ (by decide)).trans hitems)
      (ih (wellFormed_level formed hitem) distinctLevel fun key mem => ?_)
    · rw [typeIs_congr (hagree "type" (by decide)), htype]
    · rw [get?_level distinct (Json.wellFormed_distinct hitem),
        get?_level (Json.wellFormed_distinct formed) (Json.wellFormed_distinct hitem), hagree key mem]

theorem passes_of_unwrap {items : Option Json} (hitems : schema.get? "items" = items)
    (formed : (Json.object schema).wellFormed = true) (hobject : typeIs item "object" = true)
    (h : unwrap segment schema items = .ok item) (hpasses : Passes item (segment :: rest) nodes) :
    ∃ nodes, Passes schema (segment :: rest) nodes := by
  fun_induction unwrap segment schema items with
  | case1 =>
    cases h
    exact ⟨nodes, hpasses⟩
  | case2 =>
    cases h
    exact ⟨nodes, hpasses⟩
  | case3 schema harray =>
    cases h
    rw [typeIs_congr (Members.get?_remove_ne (Json.wellFormed_distinct formed) (by decide))] at hobject
    rw [not_array_of_object hobject] at harray
    exact absurd rfl harray
  | case4 schema harray inner ih =>
    have hinner : (Json.object inner).wellFormed = true := Json.wellFormed_get? formed hitems
    obtain ⟨nodes, hpasses⟩ := ih
      (items_level (Json.wellFormed_distinct formed) (Json.wellFormed_distinct hinner))
      (wellFormed_level formed hinner) h
    exact ⟨inner :: nodes, .items (by simpa using harray) hitems hpasses⟩
  | case5 => cases h

theorem passes_of_property {next : Members} (formed : (Json.object schema).wellFormed = true)
    (hself : segment ≠ selfSegment) (h : property segment schema = .ok next)
    (hpasses : Passes next rest nodes) : ∃ nodes, Passes schema (segment :: rest) nodes := by
  have hkeys : ∀ key ∈ "items" :: structuralKeywords, key ∉ inheritedKeywords := by decide
  have hnext := wellFormed_property formed h
  obtain ⟨hobject, properties, hproperties, hcases⟩ := property_ok h
  obtain ⟨child, hchild, rfl⟩ := (hcases.resolve_left fun hstays => hself hstays.1).2
  have hformed : (Json.object child).wellFormed = true :=
    Json.wellFormed_get? (Json.wellFormed_get? formed hproperties) hchild
  exact ⟨child :: nodes, .property hobject hproperties hself hchild (hpasses.congr hnext
    (Json.wellFormed_distinct hformed) fun key mem => (get?_enterProperty (hkeys key mem)).symm)⟩

/-- Narrowing that succeeds has passed the path to its end, or it has stopped at an array, whatever comes
behind. -/
theorem passes_or_stops {result : Members} (formed : (Json.object schema).wellFormed = true)
    (hself : selfSegment ∉ path) (h : descend schema path = .ok result) :
    (∃ nodes, Passes schema path nodes) ∨ ∀ more, descend schema (path ++ more) = .ok result := by
  have hdescent := descent_of_ok h
  clear h
  induction hdescent with
  | done schema => exact .inl ⟨[], .here schema⟩
  | property harray hproperty _ ih =>
    obtain ⟨hsegment, hrest⟩ := not_or.mp (mt List.mem_cons.mpr hself)
    refine (ih (wellFormed_property formed hproperty) hrest).imp ?_ fun hstops more => ?_
    · rintro ⟨nodes, hpasses⟩
      exact passes_of_property formed (Ne.symm hsegment) hproperty hpasses
    · rw [List.cons_append, descend_flat harray, hproperty]
      exact hstops more
  | level harray hunwrap hobject _ ih =>
    have hitem := wellFormed_unwrap formed (fun _ => Json.wellFormed_get? formed) hunwrap
    refine (ih hitem hself).imp ?_ fun hstops more => ?_
    · rintro ⟨nodes, hpasses⟩
      exact passes_of_unwrap rfl formed hobject hunwrap hpasses
    · rw [List.cons_append, descend_array harray, hunwrap]
      exact (if_pos hobject).trans (hstops more)
  | stop harray hunwrap hobject =>
    refine .inr fun more => ?_
    rw [List.cons_append, descend_array harray, hunwrap]
    exact if_neg (ne_true_of_eq_false hobject)

/-- What narrowing gives has been passed to, or it is given for all longer paths too. -/
theorem narrow_passes_or_stops {root : Members} {result : Json}
    (formed : (Json.object root).wellFormed = true) (hself : selfSegment ∉ path)
    (h : narrow (.object root) path = .ok result) :
    (∃ nodes, Passes root path nodes) ∨
      ∀ more, narrow (.object root) (path ++ more) = .ok result := by
  have hkeys : ∀ key ∈ "items" :: structuralKeywords, key ∈ keptKeywords := by decide
  change (descend (kept root) path).map Json.object = _ at h
  cases hdescend : descend (kept root) path with
  | error failure =>
    rw [hdescend] at h
    cases h
  | ok narrowed =>
    rw [hdescend] at h
    refine (passes_or_stops (wellFormed_kept formed) hself hdescend).imp ?_ fun hstops more => ?_
    · rintro ⟨nodes, hpasses⟩
      exact ⟨nodes, hpasses.congr (wellFormed_kept formed) (Json.wellFormed_distinct formed)
        fun key mem => (get?_kept (hkeys key mem)).symm⟩
    · show (descend (kept root) (path ++ more)).map Json.object = _
      rw [hstops more]
      exact h

/-! ## Titles along a path -/

theorem Titled.enter (h : Titled title schema narrowed) (distinct : (child.map Prod.fst).Nodup)
    (htitle : child.get? "title" = none) :
    Titled (title ++ (" " ++ segment)) child (enterProperty narrowed child segment) := by
  have hkeys : ∀ key ∈ "items" :: structuralKeywords, key ∉ inheritedKeywords := by decide
  refine ⟨distinct_enterProperty distinct, ?_, fun key mem => get?_enterProperty (hkeys key mem)⟩
  rw [title_enterProperty htitle, h.title_eq]
  rfl

theorem Titled.level (h : Titled title schema narrowed) (distinct : (schema.map Prod.fst).Nodup)
    (distinctItem : (item.map Prod.fst).Nodup) (htitle : item.get? "title" = none) :
    Titled title ((schema.remove "items").extend item) ((narrowed.remove "items").extend item) := by
  refine ⟨Members.distinct_extend (Members.distinct_remove h.distinct), ?_, fun key mem => ?_⟩
  · rw [get?_level h.distinct distinctItem, htitle, Option.none_or, if_neg (by decide), h.title_eq]
  · rw [get?_level h.distinct distinctItem, get?_level distinct distinctItem, h.agree key mem]

theorem descend_level (distinct : (schema.map Prod.fst).Nodup) (distinctItem : (item.map Prod.fst).Nodup)
    (htype : typeIs schema "array" = true) (hitems : schema.get? "items" = some (.object item))
    (hgoes : typeIs ((schema.remove "items").extend item) "object" = true ∨
      typeIs ((schema.remove "items").extend item) "array" = true) :
    descend schema (segment :: rest) =
      descend ((schema.remove "items").extend item) (segment :: rest) := by
  rw [descend_array htype, hitems, unwrap_level htype]
  rcases hgoes with hobject | harray
  · rw [unwrap_flat (not_array_of_object hobject)]
    exact if_pos hobject
  · rw [descend_array harray, items_level distinct distinctItem]

theorem descend_passes (h : Passes schema path nodes) (formed : (Json.object schema).wellFormed = true)
    (huntitled : ∀ node ∈ nodes, node.get? "title" = none) (htitled : Titled title schema narrowed) :
    ∃ result, descend narrowed path = .ok result ∧
      result.get? "title" = some (.string (textAlong " " title path)) := by
  induction h generalizing title narrowed with
  | here schema =>
    refine ⟨finish narrowed, by rw [descend], ?_⟩
    rw [get?_finish htitled.distinct (by decide)]
    exact htitled.title_eq
  | @property schema properties child segment rest nodes htype hproperties hself hchild _ ih =>
    rw [List.forall_mem_cons] at huntitled
    have hformed : (Json.object child).wellFormed = true :=
      Json.wellFormed_get? (Json.wellFormed_get? formed hproperties) hchild
    obtain ⟨harray, hproperty⟩ := property_of_structural
      (fun key mem => htitled.agree key (List.mem_cons_of_mem _ mem)) htype hproperties hself hchild
    obtain ⟨result, hresult, htitle⟩ := ih hformed huntitled.2
      (htitled.enter (Json.wellFormed_distinct hformed) huntitled.1)
    refine ⟨result, ?_, htitle⟩
    rw [descend_flat harray, hproperty]
    exact hresult
  | @items schema item segment rest nodes htype hitems h ih =>
    rw [List.forall_mem_cons] at huntitled
    have hitem : (Json.object item).wellFormed = true := Json.wellFormed_get? formed hitems
    have distinctItem := Json.wellFormed_distinct hitem
    have hlevel := htitled.level (Json.wellFormed_distinct formed) distinctItem huntitled.1
    obtain ⟨result, hresult, htitle⟩ := ih (wellFormed_level formed hitem) huntitled.2 hlevel
    have htypes : ∀ name, typeIs ((narrowed.remove "items").extend item) name =
        typeIs ((schema.remove "items").extend item) name :=
      typeIs_congr (hlevel.agree "type" (by decide))
    refine ⟨result, ?_, htitle⟩
    rw [descend_level htitled.distinct distinctItem, hresult]
    · rw [typeIs_congr (htitled.agree "type" (by decide)), htype]
    · rw [htitled.agree "items" (by decide), hitems]
    · rw [htypes, htypes]
      exact h.type

theorem narrow_passes {root : Members} (h : Passes root path nodes)
    (formed : (Json.object root).wellFormed = true)
    (huntitled : ∀ node ∈ nodes, node.get? "title" = none)
    (htitle : root.get? "title" = some (.string title)) :
    ∃ narrowed : Members, narrow (.object root) path = .ok (.object narrowed) ∧
      narrowed.get? "title" = some (.string (textAlong " " title path)) := by
  have hkeys : ∀ key ∈ "items" :: structuralKeywords, key ∈ keptKeywords := by decide
  have htitled : Titled title root (kept root) :=
    ⟨Json.wellFormed_distinct (wellFormed_kept formed), (get?_kept (by decide)).trans htitle,
      fun key mem => get?_kept (hkeys key mem)⟩
  obtain ⟨result, hresult, hresultTitle⟩ := descend_passes h formed huntitled htitled
  refine ⟨result, ?_, hresultTitle⟩
  show (descend (kept root) path).map Json.object = _
  rw [hresult]
  rfl

end

end Narrowing

theorem Name.ofSchema_of_title {schema : Members} {title : String}
    (h : schema.get? "title" = some (.string title)) :
    Name.ofSchema (.object schema) = Name.ofTitle title := by
  rw [Name.ofSchema, Json.get?, h]
  rfl

open Narrowing

/-- The name of a title is put together from its parts, and where narrowing succeeds it passes the path or
stops, whatever comes behind. So where it passes schemas without titles, the narrowed schema has the name
of the root and behind it those of the segments, and so has every record that a compile of the whole schema
has behind fields of these keys, unless it stands for the document. -/
theorem narrow_names :
    (∀ front back : String,
      Name.ofTitle (front ++ " " ++ back) = Name.ofTitle front ++ Name.ofTitle back) ∧
    (∀ (root : Members) (path : List String) (narrowed : Json),
      (Json.object root).wellFormed = true → selfSegment ∉ path →
      narrow (.object root) path = .ok narrowed →
      (∃ nodes, Passes root path nodes) ∨
        ∀ more, narrow (.object root) (path ++ more) = .ok narrowed) ∧
    ∀ (root : Members) (title : String) (path : List String) (nodes : List Members),
      (Json.object root).wellFormed = true → root.get? "title" = some (.string title) →
      Passes root path nodes → (∀ node ∈ nodes, node.get? "title" = none) →
      ∃ narrowed, narrow (.object root) path = .ok narrowed ∧
        Name.ofSchema narrowed = Name.ofTitle title ++ String.join (path.map Name.ofTitle) ∧
        ∀ (resolver : Resolver) (draft : Draft) (limit : Nat) (outer : Bool) (shape : Shape)
          (hops : List Hop) (name : String) (flag : Bool) (fields : List (Field Shape)),
          let whole := Name.ofSchema (.object root)
          let run := { Compiler.new resolver draft whole with maxRefDepth := limit }.compile
            (.object root) outer
          run.1 = .ok shape → shape.At hops (.record name flag fields) → Hop.keys hops = path →
          name = Name.ofSchema narrowed ∨ StandsForItself whole run.2.diagnostics name flag fields := by
  refine ⟨Name.ofTitle_blank, fun _ _ _ => narrow_passes_or_stops,
    fun root title path nodes formed htitle hpasses huntitled => ?_⟩
  obtain ⟨narrowed, hnarrow, hnarrowed⟩ := narrow_passes hpasses formed huntitled htitle
  have hname : Name.ofSchema (.object narrowed) =
      Name.ofTitle title ++ String.join (path.map Name.ofTitle) := by
    rw [Name.ofSchema_of_title hnarrowed, ofTitle_textAlong]
  refine ⟨.object narrowed, hnarrow, hname, ?_⟩
  intro resolver draft limit outer shape hops name flag fields whole run hrun hat hkeys
  rcases (Compiler.made_of_new hrun).named hat with ⟨hrecord, -⟩ | hstands
  · refine .inl ?_
    rw [hrecord, hname, List.nil_append, hkeys]
    exact congrArg (· ++ _) (Name.ofSchema_of_title htitle)
  · exact .inr hstands

def readerSchema : Members :=
  [("type", .string "object"), ("properties", .object [("name", .object [("type", .string "string")])])]

def copySchema : Members :=
  [("type", .string "object"), ("properties", .object [("lent to", .object readerSchema)])]

def copiesSchema : Members := [("type", .string "array"), ("items", .object copySchema)]

/-- A book, each of whose copies may be lent to somebody. -/
def bookSchema : Members :=
  [("title", .string "book"), ("type", .string "object"),
    ("properties", .object [("copies", .object copiesSchema)])]

def readerFields : List (Field Shape) := [⟨"name", false, .scalar .string⟩]

def copyFields : List (Field Shape) := [⟨"lent to", false, .record "BookCopiesLentTo" false readerFields⟩]

def bookShape : Shape :=
  .record "Book" true [⟨"copies", false, .list (.record "BookCopies" false copyFields)⟩]

theorem narrow_names_book :
    let path := ["copies", "lent to"]
    let nodes := [copiesSchema, copySchema, readerSchema]
    let hops : List Hop := [.field "copies", .element, .field "lent to"]
    let reader := Shape.record "BookCopiesLentTo" false readerFields
    let resolver : Resolver := { registry := .empty, base := Document.defaultUrl }
    let whole := Name.ofSchema (.object bookSchema)
    let run := (Compiler.new resolver .draft07 whole).compile (.object bookSchema) true
    (Json.object bookSchema).wellFormed = true ∧ Passes bookSchema path nodes ∧
      (∀ node ∈ nodes, node.get? "title" = none) ∧ run.1 = .ok bookShape ∧ bookShape.At hops reader ∧
      Hop.keys hops = path ∧
      selfSegment ∉ path ∧
      ∃ narrowed, narrow (.object bookSchema) path = .ok narrowed ∧
        ((∃ nodes, Passes bookSchema path nodes) ∨
          ∀ more, narrow (.object bookSchema) (path ++ more) = .ok narrowed) ∧
        Name.ofSchema narrowed = Name.ofTitle "book" ++ String.join (path.map Name.ofTitle) ∧
        ("BookCopiesLentTo" = Name.ofSchema narrowed ∨
          StandsForItself whole run.2.diagnostics "BookCopiesLentTo" false readerFields) := by
  intro path nodes hops reader resolver whole run
  have formed : (Json.object bookSchema).wellFormed = true := by decide +kernel
  have hpasses : Passes bookSchema path nodes :=
    .property rfl rfl (by decide) rfl (.items rfl rfl (.property rfl rfl (by decide) rfl (.here _)))
  have huntitled : ∀ node ∈ nodes, node.get? "title" = none := by
    simp only [nodes, List.forall_mem_cons]
    exact ⟨rfl, rfl, rfl, List.forall_mem_nil _⟩
  have hrun : run.1 = .ok bookShape := by decide +kernel
  have hat : bookShape.At hops reader :=
    .inside (.field (List.mem_singleton_self _)) (.inside (.element _)
      (.inside (.field (List.mem_singleton_self _)) (.here reader)))
  have hself : selfSegment ∉ path := by decide
  obtain ⟨-, hstops, hnames⟩ := narrow_names
  obtain ⟨narrowed, hnarrow, hname, hrecords⟩ :=
    hnames bookSchema "book" path nodes formed rfl hpasses huntitled
  exact ⟨formed, hpasses, huntitled, hrun, hat, rfl, hself, narrowed, hnarrow,
    hstops bookSchema path narrowed formed hself hnarrow, hname,
    hrecords resolver .draft07 32 true bookShape hops _ false readerFields hrun hat rfl⟩

def ancestorSchema : Members :=
  [("title", .string "T"), ("type", .string "object"),
    ("properties", .object [("a", .object [("$ref", .string "#")])])]

/-- A record that stands for the document has its name, and not the narrowed schema's. -/
theorem narrow_names_itself :
    let node : Members := [("$ref", .string "#")]
    let registry := Registry.empty.insert ⟨Document.defaultUrl, .object ancestorSchema⟩
    let run := (Compiler.new { registry, base := Document.defaultUrl } .draft07
      (Name.ofSchema (.object ancestorSchema))).compile (.object ancestorSchema) true
    let shape := Shape.record "T" true [⟨"a", false, .record "T" true []⟩]
    (Json.object ancestorSchema).wellFormed = true ∧ Passes ancestorSchema ["a"] [node] ∧
      node.get? "title" = none ∧
      (narrow (.object ancestorSchema) ["a"]).map Name.ofSchema = .ok "TA" ∧
      run.1 = .ok shape ∧ shape.At [.field "a"] (.record "T" true []) ∧ Hop.keys [.field "a"] = ["a"] ∧
      "T" ≠ "TA" := by
  intro node registry run shape
  have hat : shape.At [.field "a"] (.record "T" true []) :=
    .inside (.field (List.mem_singleton_self _)) (.here _)
  exact ⟨by decide +kernel, .property rfl rfl (by decide) rfl (.here _), rfl, by decide +kernel,
    by decide +kernel, hat, rfl, by decide⟩

end SchemaShape
