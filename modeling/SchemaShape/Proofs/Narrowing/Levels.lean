import SchemaShape.Proofs.Narrowing.Composition

/-! # Array levels on a path

Narrowing looks through the arrays on its way. So an object schema can be put into any number of lists,
inside one another, and a path that goes on from there leads to the same, with the same failures. A path
that only stays there with `#` gives the same members in another order.

Each level replaces the array's `items` by the members of the item schema. What an array was handed down
when it was entered stays, and comes to stand in front of the members of the object schema.
-/

namespace SchemaShape
set_option autoImplicit false

namespace Narrowing

/-- The schema of lists of lists, to this many levels, of what a schema describes. -/
def wrapped (node : Members) : (levels : Nat) → Members
  | 0 => node
  | levels + 1 => [("type", .string "array"), ("items", .object (wrapped node levels))]

/-- Both fail alike, or give the same members, in any order. -/
inductive Rearranged : Except Failure Json → Except Failure Json → Prop where
  | failure (failure : Failure) : Rearranged (.error failure) (.error failure)
  | members {members members' : Members} (h : members.Perm members') :
      Rearranged (.ok (.object members)) (.ok (.object members'))

theorem Rearranged.of_eq {result result' : Except Failure Members} (h : result = result') :
    Rearranged (result.map .object) (result'.map .object) := by
  subst h
  cases result with
  | error failure => exact .failure failure
  | ok members => exact .members (.refl members)

/-! ## A schema in place of another -/

/-- The path leads through the properties of object schemas to a node. The second schema is the first
one with another node there. -/
inductive Exchanged (node node' : Members) : List String → Members → Members → Prop where
  | here : Exchanged node node' [] node node'
  | self {schema schema' properties : Members} {rest : List String}
      (htype : typeIs schema "object" = true)
      (hproperties : schema.get? "properties" = some (.object properties))
      (h : Exchanged node node' rest schema schema') :
      Exchanged node node' (selfSegment :: rest) schema schema'
  | property {schema properties child child' : Members} {segment : String} {rest : List String}
      (htype : typeIs schema "object" = true)
      (hproperties : schema.get? "properties" = some (.object properties))
      (hself : segment ≠ selfSegment)
      (hchild : Members.get? properties segment = some (.object child))
      (h : Exchanged node node' rest child child') :
      Exchanged node node' (segment :: rest) schema
        (schema.set "properties" (.object (Members.set segment (.object child') properties)))

/-- An object schema with properties. -/
def IsRecord (schema : Members) : Prop :=
  typeIs schema "object" = true ∧ ∃ properties, schema.get? "properties" = some (.object properties)

section

variable {node node' schema schema' properties : Members} {path rest : List String} {segment : String}

theorem IsRecord.set (htype : typeIs schema "object" = true) (properties : Members) :
    IsRecord (schema.set "properties" (.object properties)) :=
  ⟨(typeIs_congr (Members.get?_set_ne _ _ (by decide)) _).trans htype, properties,
    Members.get?_set_self ..⟩

theorem Exchanged.split (h : Exchanged node node' (path ++ rest) schema schema') :
    ∃ middle middle', Exchanged middle middle' path schema schema' ∧
      Exchanged node node' rest middle middle' := by
  induction path generalizing schema schema' with
  | nil => exact ⟨schema, schema', .here, h⟩
  | cons segment path ih =>
    cases h with
    | self htype hproperties h =>
      obtain ⟨middle, middle', hpath, hrest⟩ := ih h
      exact ⟨middle, middle', .self htype hproperties hpath, hrest⟩
    | property htype hproperties hself hchild h =>
      obtain ⟨middle, middle', hpath, hrest⟩ := ih h
      exact ⟨middle, middle', .property htype hproperties hself hchild hpath, hrest⟩

theorem Exchanged.wellFormed (h : Exchanged node node' path schema schema')
    (formed : (Json.object schema).wellFormed = true) : (Json.object node).wellFormed = true := by
  induction h with
  | here => exact formed
  | self _ _ _ ih => exact ih formed
  | property _ hproperties _ hchild _ ih =>
    exact ih (Json.wellFormed_get? (Json.wellFormed_get? formed hproperties) hchild)

theorem Exchanged.isRecord (h : Exchanged node node' path schema schema') (hnode : IsRecord node') :
    IsRecord schema' := by
  induction h with
  | here => exact hnode
  | self _ _ _ ih => exact ih
  | property htype => exact .set htype _

theorem handed_set_properties (value : Json) : ∀ keyword ∈ inheritedKeywords,
    schema.get? keyword = (schema.set "properties" value).get? keyword := by
  intro keyword mem
  refine (Members.get?_set_ne _ _ ?_).symm
  rintro rfl
  exact absurd mem (by decide)

theorem Exchanged.handed (h : Exchanged node node' path schema schema')
    (hnode : ∀ keyword ∈ inheritedKeywords, node.get? keyword = node'.get? keyword) :
    ∀ keyword ∈ inheritedKeywords, schema.get? keyword = schema'.get? keyword := by
  induction h with
  | here => exact hnode
  | self _ _ _ ih => exact ih
  | property => exact handed_set_properties _

end

/-! ## The way to the exchanged schema -/

/-- Narrowing is at the two schemas and hands the same down from both. -/
structure Beside (schema schema' narrowed narrowed' : Members) : Prop where
  structural : ∀ key ∈ structuralKeywords, narrowed.get? key = schema.get? key
  structural' : ∀ key ∈ structuralKeywords, narrowed'.get? key = schema'.get? key
  handed : ∀ keyword ∈ inheritedKeywords, narrowed.get? keyword = narrowed'.get? keyword

section

variable {schema schema' narrowed narrowed' properties child : Members} {segment : String}

theorem descend_self
    (structural : ∀ key ∈ structuralKeywords, narrowed.get? key = schema.get? key)
    (hrecord : IsRecord schema) (rest : List String) :
    descend narrowed (selfSegment :: rest) = descend narrowed rest := by
  obtain ⟨htype, properties, hproperties⟩ := hrecord
  have htype' := (typeIs_congr (structural "type" (by decide)) _).trans htype
  rw [descend_flat (not_array_of_object htype'), property, htype', Bool.not_true,
    if_neg Bool.false_ne_true, structural "properties" (by decide), hproperties]
  simp only [if_pos]
  rfl

theorem descend_property
    (structural : ∀ key ∈ structuralKeywords, narrowed.get? key = schema.get? key)
    (htype : typeIs schema "object" = true)
    (hproperties : schema.get? "properties" = some (.object properties))
    (hself : segment ≠ selfSegment)
    (hchild : Members.get? properties segment = some (.object child)) (rest : List String) :
    descend narrowed (segment :: rest) = descend (enterProperty narrowed child segment) rest := by
  obtain ⟨harray, hproperty⟩ := property_of_structural structural htype hproperties hself hchild
  rw [descend_flat harray, hproperty]
  rfl

theorem handed_enterProperty {parent parent' child child' : Members}
    (hparent : ∀ keyword ∈ inheritedKeywords, parent.get? keyword = parent'.get? keyword)
    (hchild : ∀ keyword ∈ inheritedKeywords, child.get? keyword = child'.get? keyword) :
    ∀ keyword ∈ inheritedKeywords, (enterProperty parent child segment).get? keyword =
      (enterProperty parent' child' segment).get? keyword := by
  intro keyword mem
  simp only [inheritedKeywords, List.mem_cons, List.not_mem_nil, or_false] at mem
  rcases mem with rfl | rfl | rfl <;>
    simp [enterProperty, inheritedKeywords, get?_appendTo, get?_inherit,
      hparent "$schema" (by decide), hparent "$id" (by decide), hparent "title" (by decide),
      hchild "$schema" (by decide), hchild "$id" (by decide), hchild "title" (by decide)]

/-- Up to the exchanged schemas narrowing goes the same way on both sides. -/
theorem Exchanged.descends {node node' : Members} {path : List String}
    (h : Exchanged node node' path schema schema') (hnode : IsRecord node')
    (hhanded : ∀ keyword ∈ inheritedKeywords, node.get? keyword = node'.get? keyword)
    (hbeside : Beside schema schema' narrowed narrowed') :
    ∃ reached reached', Beside node node' reached reached' ∧
      ∀ rest, descend narrowed (path ++ rest) = descend reached rest ∧
        descend narrowed' (path ++ rest) = descend reached' rest := by
  induction h generalizing narrowed narrowed' with
  | here => exact ⟨narrowed, narrowed', hbeside, fun _ => ⟨rfl, rfl⟩⟩
  | @self schema schema' properties rest htype hproperties h ih =>
    obtain ⟨reached, reached', hreached, hrest⟩ := ih hbeside
    refine ⟨reached, reached', hreached, fun more => ⟨?_, ?_⟩⟩
    · rw [List.cons_append, descend_self hbeside.structural ⟨htype, properties, hproperties⟩]
      exact (hrest more).1
    · rw [List.cons_append, descend_self hbeside.structural' (h.isRecord hnode)]
      exact (hrest more).2
  | @property schema properties child child' segment rest htype hproperties hself hchild h ih =>
    have hentered : Beside child child' (enterProperty narrowed child segment)
        (enterProperty narrowed' child' segment) :=
      ⟨structural_enterProperty, structural_enterProperty,
        handed_enterProperty hbeside.handed (h.handed hhanded)⟩
    obtain ⟨reached, reached', hreached, hrest⟩ := ih hentered
    refine ⟨reached, reached', hreached, fun more => ⟨?_, ?_⟩⟩
    · rw [List.cons_append, descend_property hbeside.structural htype hproperties hself hchild]
      exact (hrest more).1
    · rw [List.cons_append, descend_property hbeside.structural' (IsRecord.set htype _).1
        (Members.get?_set_self ..) hself (Members.get?_set_self ..)]
      exact (hrest more).2

theorem Exchanged.enters {node node' root root' : Members} {before : List String}
    (h : Exchanged node node' (before ++ [segment]) root root') (hself : segment ≠ selfSegment) :
    ∃ reached reached' : Members,
      (∀ keyword ∈ inheritedKeywords, reached.get? keyword = reached'.get? keyword) ∧
      ∀ rest, descend (kept root) (before ++ [segment] ++ rest) =
          descend (enterProperty reached node segment) rest ∧
        descend (kept root') (before ++ [segment] ++ rest) =
          descend (enterProperty reached' node' segment) rest := by
  obtain ⟨parent, parent', hbefore, hlast⟩ := h.split
  cases hlast with
  | self => exact absurd rfl hself
  | property htype hproperties _ hchild hlast =>
    cases hlast
    have hroots : Beside root root' (kept root) (kept root') := by
      have hkept : ∀ keyword ∈ inheritedKeywords, keyword ∈ keptKeywords := by decide
      have hstructural : ∀ key ∈ structuralKeywords, key ∈ keptKeywords := by decide
      refine ⟨fun key mem => get?_kept (hstructural key mem),
        fun key mem => get?_kept (hstructural key mem), ?_⟩
      intro keyword mem
      rw [get?_kept (hkept keyword mem), get?_kept (hkept keyword mem)]
      exact hbefore.handed (handed_set_properties _) keyword mem
    obtain ⟨reached, reached', hreached, hdescend⟩ :=
      hbefore.descends (.set htype _) (handed_set_properties _) hroots
    refine ⟨reached, reached', hreached.handed, fun rest => ⟨?_, ?_⟩⟩
    · rw [List.append_assoc, (hdescend _).1, List.singleton_append,
        descend_property hreached.structural htype hproperties hself hchild]
    · rw [List.append_assoc, (hdescend _).2, List.singleton_append,
        descend_property hreached.structural' (IsRecord.set htype _).1 (Members.get?_set_self ..) hself
          (Members.get?_set_self ..)]

end

/-! ## Looking through the levels -/

section

variable {node schema : Members} {segment : String}

theorem get?_level {inner : Members} (distinct : (schema.map Prod.fst).Nodup)
    (distinctInner : (inner.map Prod.fst).Nodup) (key : String) :
    ((schema.remove "items").extend inner).get? key =
      (inner.get? key).or (if key = "items" then none else schema.get? key) := by
  rw [Members.get?_extend distinctInner, Members.get?_remove distinct]

theorem get?_wrapped_ne {levels : Nat} {key : String} (htype : key ≠ "type") (hitems : key ≠ "items") :
    (wrapped node (levels + 1)).get? key = none := by
  rw [wrapped, Members.get?_cons, Members.get?_cons, if_neg htype, if_neg hitems]
  rfl

/-- All levels are looked through. What there is in the end are the members of the object schema, and
what else there is in the outermost array, apart from its items. -/
theorem unwrap_wrapped (segment : String) (levels : Nat) (hnode : typeIs node "object" = true)
    (distinctNode : (node.map Prod.fst).Nodup) (distinct : (schema.map Prod.fst).Nodup)
    (htype : schema.get? "type" = some (.string "array"))
    (hitems : schema.get? "items" = some (.object (wrapped node levels))) :
    ∃ item, unwrap segment schema (schema.get? "items") = .ok item ∧
      (item.map Prod.fst).Nodup ∧ ∀ key, item.get? key =
        (node.get? key).or (if key = "items" then none else schema.get? key) := by
  -- What a level leaves behind is an array with one level less.
  induction levels generalizing schema with
  | zero =>
    have htype' : ((schema.remove "items").extend node).get? "type" = some (.string "object") := by
      rw [get?_level distinct distinctNode, get?_of_typeIs hnode, Option.some_or]
    have hflat := not_array_of_object (typeIs_of_get? htype')
    refine ⟨(schema.remove "items").extend node, ?_,
      Members.distinct_extend (Members.distinct_remove distinct), get?_level distinct distinctNode⟩
    rw [hitems, unwrap_level (typeIs_of_get? htype), wrapped, unwrap_flat hflat]
  | succ levels ih =>
    have distinctLevel : ((wrapped node (levels + 1)).map Prod.fst).Nodup := by simp [wrapped]
    have hget := get?_level distinct distinctLevel
    obtain ⟨item, hunwrap, hdistinct, hitem⟩ :=
      ih (Members.distinct_extend (Members.distinct_remove distinct)) (hget "type") (hget "items")
    refine ⟨item, ?_, hdistinct, fun key => ?_⟩
    · rw [hitems, unwrap_level (typeIs_of_get? htype), ← hunwrap, hget "items"]
      rfl
    · rw [hitem, hget]
      by_cases hitems : key = "items"
      · rw [if_pos hitems, if_pos hitems]
      · rw [if_neg hitems, if_neg hitems]
        by_cases htypes : key = "type"
        · rw [htypes, htype, wrapped]
          rfl
        · rw [get?_wrapped_ne htypes hitems, Option.none_or]

theorem unwrap_entered {parent parent' : Members} (segment own : String) (levels : Nat)
    (hnode : typeIs node "object" = true) (distinct : (node.map Prod.fst).Nodup)
    (hbare : ∀ keyword ∈ inheritedKeywords, node.get? keyword = none)
    (hparent : ∀ keyword ∈ inheritedKeywords, parent.get? keyword = parent'.get? keyword) :
    let array := enterProperty parent' (wrapped node (levels + 1)) own
    typeIs array "array" = true ∧ ∃ item,
      unwrap segment array (array.get? "items") = .ok item ∧ (item.map Prod.fst).Nodup ∧
      ∀ key, (enterProperty parent node own).get? key = item.get? key := by
  intro array
  have hown : ∀ key ∉ inheritedKeywords, array.get? key = (wrapped node (levels + 1)).get? key :=
    fun key hkey => get?_enterProperty hkey
  have htype : array.get? "type" = some (.string "array") := hown "type" (by decide)
  have hitems : array.get? "items" = some (.object (wrapped node levels)) := hown "items" (by decide)
  have distinctArray : (array.map Prod.fst).Nodup := distinct_enterProperty (by simp [wrapped])
  obtain ⟨item, hunwrap, hdistinct, hitem⟩ :=
    unwrap_wrapped segment levels hnode distinct distinctArray htype hitems
  refine ⟨typeIs_of_get? htype, item, hunwrap, hdistinct, fun key => ?_⟩
  rw [hitem]
  by_cases hkey : key ∈ inheritedKeywords
  · have hne : key ≠ "type" ∧ key ≠ "items" := by
      refine ⟨?_, ?_⟩ <;> rintro rfl <;> exact absurd hkey (by decide)
    have hwrapped : ∀ keyword ∈ inheritedKeywords, node.get? keyword =
        (wrapped node (levels + 1)).get? keyword := by
      intro keyword mem
      rw [hbare keyword mem, get?_wrapped_ne]
      · rintro rfl
        exact absurd mem (by decide)
      · rintro rfl
        exact absurd mem (by decide)
    rw [hbare key hkey, Option.none_or, if_neg hne.2]
    exact handed_enterProperty hparent hwrapped key hkey
  · rw [get?_enterProperty hkey]
    by_cases hitems : key = "items"
    · rw [if_pos hitems, Option.or_none]
    · rw [if_neg hitems, hown key hkey]
      by_cases htypes : key = "type"
      · rw [htypes, get?_of_typeIs hnode, Option.some_or]
      · rw [get?_wrapped_ne htypes hitems, Option.or_none]

end

end Narrowing

open Narrowing

/-- A path that goes on from an object schema, which has nothing that would be handed down, leads to the
same if the schema is put into lists. -/
theorem narrow_wrapped {root root' node : Members} {before after : List String} {segment : String}
    (levels : Nat) (formed : (Json.object root).wellFormed = true) (hself : segment ≠ selfSegment)
    (hafter : after ≠ [])
    (h : Exchanged node (wrapped node (levels + 1)) (before ++ [segment]) root root')
    (hnode : typeIs node "object" = true)
    (hbare : ∀ keyword ∈ inheritedKeywords, node.get? keyword = none) :
    Rearranged (narrow (.object root) (before ++ [segment] ++ after))
      (narrow (.object root') (before ++ [segment] ++ after)) := by
  have distinct := Json.wellFormed_distinct (h.wellFormed formed)
  obtain ⟨first, more, rfl⟩ := List.exists_cons_of_ne_nil hafter
  obtain ⟨reached, reached', hhanded, hdescend⟩ := h.enters hself
  obtain ⟨harray, item, hunwrap, hdistinct, hitem⟩ :=
    unwrap_entered first segment levels hnode distinct hbare hhanded
  have hentered : typeIs (enterProperty reached node segment) "object" = true :=
    (typeIs_congr (get?_enterProperty (by decide)) _).trans hnode
  have hobject : typeIs item "object" = true :=
    (typeIs_congr (hitem "type").symm _).trans hentered
  have hlevels : descend (enterProperty reached' (wrapped node (levels + 1)) segment) (first :: more) =
      descend item (first :: more) := by
    rw [descend_array harray, hunwrap]
    exact if_pos hobject
  show Rearranged ((descend (kept root) _).map Json.object) ((descend (kept root') _).map Json.object)
  rw [(hdescend _).1, (hdescend _).2, hlevels]
  rcases descend_agree (fun key _ => hitem key) hentered (first :: more) with heq | ⟨-, hends, hends'⟩
  · exact .of_eq heq
  · rw [hends, hends']
    exact .members (Members.perm_of_get?_eq (distinct_enterProperty distinct) hdistinct hitem)

/-- The schema of a shelf with the works of one author. -/
def shelfSchema (author : Members) : Members :=
  [("title", .string "Shelf"), ("type", .string "object"),
    ("properties", .object [("author", .object author), ("works", .object [])])]

theorem narrow_wrapped_authors :
    let root := shelfSchema authorSchema
    let root' := shelfSchema (wrapped authorSchema 2)
    (Json.object root).wellFormed = true ∧ "author" ≠ selfSegment ∧ [selfSegment] ≠ [] ∧
      Exchanged authorSchema (wrapped authorSchema 2) (["#"] ++ ["author"]) root root' ∧
      typeIs authorSchema "object" = true ∧
      (∀ keyword ∈ inheritedKeywords, authorSchema.get? keyword = none) ∧
      Rearranged (narrow (.object root) (["#"] ++ ["author"] ++ ["#"]))
        (narrow (.object root') (["#"] ++ ["author"] ++ ["#"])) := by
  intro root root'
  have formed : (Json.object root).wellFormed = true := by decide +kernel
  have hself : "author" ≠ selfSegment := by decide
  have hafter : [selfSegment] ≠ [] := by decide
  have hroot : root' = root.set "properties" (.object (Members.set "author"
      (.object (wrapped authorSchema 2)) [("author", .object authorSchema), ("works", .object [])])) := rfl
  have hexchanged : Exchanged authorSchema (wrapped authorSchema 2) (["#"] ++ ["author"]) root root' := by
    rw [hroot]
    exact .self rfl rfl (.property rfl rfl hself rfl .here)
  have hbare : ∀ keyword ∈ inheritedKeywords, authorSchema.get? keyword = none := by
    simp only [inheritedKeywords, List.forall_mem_cons]
    exact ⟨rfl, rfl, rfl, List.forall_mem_nil _⟩
  exact ⟨formed, hself, hafter, hexchanged, rfl, hbare,
    narrow_wrapped 1 formed hself hafter hexchanged rfl hbare⟩

end SchemaShape
