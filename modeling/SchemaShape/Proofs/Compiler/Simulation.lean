import SchemaShape.Proofs.Compiler.Correspondence

/-! # The rules of a node under a correspondence

At places that correspond the compiler does the same work, rule by rule, given that the schemas inside
the node and its references come to corresponding ends. The two sides may compile different nodes, as
long as their keywords lead to corresponding ends.
-/

namespace SchemaShape
set_option autoImplicit false

open Correspondence

namespace Node

/-- The keywords that a rule reads to choose how to go on. -/
def choosingKeywords : List String := ["type", "enum", "$ref", "default"]

end Node

namespace Correspondence

variable {K : Correspondence} {c c' : Compiler}
variable {inner inner' : Node.Inner} {follow follow' : Node.Follow}
variable {schema schema' : Members} {outer outer' : Bool}

/-- The keywords of two nodes lead to corresponding ends: whatever rule one of them is compiled by, the
other one is compiled by it, too. -/
structure Alike (K : Correspondence) (schema schema' : Members) (inner inner' : Node.Inner) :
    Prop where
  choosing : ∀ key ∈ Node.choosingKeywords, schema.get? key = schema'.get? key
  branches : ∀ keyword ∈ Node.branchKeywords, Option.Rel
    (fun branches branches' => ∀ c c', K.states c c' → K.Matches K.shapes
      (Node.anyOf inner keyword branches) (Node.anyOf inner' keyword branches') c c')
    (schema.get? keyword) (schema'.get? keyword)
  typed : ∀ type outer outer' c c', K.flags outer outer' → K.states c c' →
    K.Matches K.shapes (Node.typed inner type schema outer) (Node.typed inner' type schema' outer')
      c c'

namespace Rules

variable (laws : K.Rules)

include laws

/-! ## Lists of schemas and values -/

theorem eachItem {α α' : Type} {values : α → α' → Prop} {action : Json → Compile α}
    {action' : Json → Compile α'} (keyword : String) (position : Nat) {items items' : List Json}
    (hitems : List.Forall₂ (fun item item' => ∀ c c', K.states c c' →
      K.Matches values (action item) (action' item') c c') items items')
    (h : K.states c c') :
    K.Matches (List.Forall₂ values) (Node.eachItem keyword action position items)
      (Node.eachItem keyword action' position items') c c' := by
  induction hitems generalizing position with
  | nil => exact matches_pure .nil
  | cons hitem _ ih =>
    refine matches_bind (matches_descend (hitem _ _ (laws.below _ h))) fun first first' hfirst => ?_
    refine matches_bind (ih (position + 1)) fun others others' hothers => ?_
    exact matches_pure (.cons hfirst hothers)

theorem literal (value : Json) (h : K.states c c') :
    K.Matches K.shapes (Node.literal value) (Node.literal value) c c' := by
  rw [Node.literal]
  split
  · exact matches_pure (laws.fixed _ rfl)
  · exact laws.matches_warn_then h (matches_pure (laws.fixed _ rfl))

theorem enumeration (values : Json) (h : K.states c c') :
    K.Matches K.shapes (Node.enumeration values) (Node.enumeration values) c c' := by
  cases values with
  | array values =>
    have hvalues : ∀ value ∈ values, ∀ c c', K.states c c' →
        K.Matches K.shapes (Node.literal value) (Node.literal value) c c' :=
      fun value _ _ _ => laws.literal value
    refine matches_bind (laws.eachItem "enum" 0 (List.forall₂_same.mpr hvalues) h)
      fun literals literals' hliterals => ?_
    exact matches_pure (laws.union hliterals)
  | _ => exact laws.matches_malformed h _

theorem filter_isNothing {shapes shapes' : List Shape} (h : List.Forall₂ K.shapes shapes shapes') :
    List.Forall₂ K.shapes (shapes.filter (!·.isNothing)) (shapes'.filter (!·.isNothing)) := by
  refine List.rel_filter ?_ h
  intro shape shape' hshape
  simp only [laws.nothing hshape]

theorem branches {branches branches' : List Json} (keyword : String)
    (hbranches : List.Forall₂ (K.Parts inner inner') branches branches') (h : K.states c c') :
    K.Matches K.shapes (Node.anyOf inner keyword (.array branches))
      (Node.anyOf inner' keyword (.array branches')) c c' := by
  refine matches_bind (laws.eachItem keyword 0 hbranches h) fun shapes shapes' hshapes => ?_
  exact matches_pure (laws.union (laws.filter_isNothing hshapes))

theorem anyOf {keyword : String} {branches : Json} (hkeyword : keyword ∈ Node.branchKeywords)
    (hget : schema.get? keyword = some branches) (hinner : K.Inners schema inner inner')
    (h : K.states c c') :
    K.Matches K.shapes (Node.anyOf inner keyword branches) (Node.anyOf inner' keyword branches)
      c c' := by
  cases branches with
  | array branches =>
    exact laws.branches keyword (List.forall₂_same.mpr fun branch mem =>
      hinner branch (.branch hkeyword hget mem)) h
  | _ => exact laws.matches_malformed h _

/-! ## Objects -/

theorem fields {properties properties' : Members} (required : List String)
    (hproperties : List.Forall₂ (fun member member' => member.1 = member'.1 ∧
      (member.1 ∉ Node.reservedNames → K.Parts inner inner' member.2 member'.2))
      properties properties')
    (h : K.states c c') :
    K.Matches (List.Forall₂ K.Fields) (Node.fields inner required properties)
      (Node.fields inner' required properties') c c' := by
  induction hproperties with
  | nil => exact matches_pure .nil
  | @cons member member' rest rest' hmember _ ih =>
    obtain ⟨key, value⟩ := member
    obtain ⟨key', value'⟩ := member'
    obtain ⟨hkey, hvalue⟩ := hmember
    simp only at hkey hvalue
    subst hkey
    simp only [Node.fields]
    split
    · exact ih
    · next hfree =>
      refine matches_bind (matches_descendProperty (hvalue hfree _ _ (laws.atProperty key h)))
        fun shape shape' hshape => ?_
      refine matches_bind ih fun others others' hothers => matches_pure ?_
      rw [laws.nothing hshape]
      split
      · exact hothers
      · exact .cons ⟨rfl, rfl, hshape⟩ hothers

theorem properties {properties properties' : Members}
    (hget : schema.get? "properties" = some (.object properties))
    (hget' : schema'.get? "properties" = some (.object properties'))
    (hrequired : Node.requiredNames schema = Node.requiredNames schema')
    (hproperties : List.Forall₂ (fun member member' => member.1 = member'.1 ∧
      (member.1 ∉ Node.reservedNames → K.Parts inner inner' member.2 member'.2))
      properties properties')
    (hflags : K.flags outer outer') (h : K.states c c') :
    K.Matches K.shapes (Node.object inner schema outer) (Node.object inner' schema' outer')
      c c' := by
  simp only [Node.object, hget, hget', hrequired]
  refine matches_inspect (fun _ => rfl) (fun _ => rfl) ?_
  refine matches_bind (laws.fields _ hproperties h) fun fields fields' hfields => ?_
  exact matches_pure (laws.record h hflags hfields)

theorem object (hflags : K.flags outer outer') (hinner : K.Inners schema inner inner')
    (h : K.states c c') :
    K.Matches K.shapes (Node.object inner schema outer) (Node.object inner' schema outer')
      c c' := by
  cases hget : schema.get? "properties" with
  | none =>
    simp only [Node.object, hget]
    exact matches_pure (laws.fixed _ rfl)
  | some value =>
    cases value with
    | object properties =>
      exact laws.properties hget hget rfl (List.forall₂_same.mpr fun member mem =>
        ⟨rfl, fun _ => hinner member.2 (.property hget mem)⟩) hflags h
    | _ =>
      simp only [Node.object, hget]
      exact laws.matches_malformed h _

/-! ## Arrays -/

theorem fixedLength (keyword : String) (length : Nat) (h : K.states c c') :
    K.Matches Eq (Node.fixedLength schema keyword length) (Node.fixedLength schema keyword length)
      c c' := by
  simp only [Node.fixedLength]
  split
  · exact matches_pure rfl
  · split
    · split
      · exact matches_pure rfl
      · exact laws.matches_unsupported h _
    · exact laws.matches_unsupported h _

theorem positions_of_bounds {items items' : List Json}
    (hget : schema.get? "items" = some (.array items))
    (hget' : schema'.get? "items" = some (.array items'))
    (hbounds : ∀ keyword ∈ ["minItems", "maxItems"], K.Matches Eq
      (Node.fixedLength schema keyword items.length)
      (Node.fixedLength schema' keyword items'.length) c c')
    (hitems : List.Forall₂ (K.Parts inner inner') items items') (h : K.states c c') :
    K.Matches K.shapes (Node.array inner schema) (Node.array inner' schema') c c' := by
  simp only [Node.array, hget, hget']
  refine matches_bind (hbounds "minItems" (by decide)) fun _ _ _ => ?_
  refine matches_bind (hbounds "maxItems" (by decide)) fun _ _ _ => ?_
  refine matches_bind (laws.eachItem "items" 0 hitems h) fun shapes shapes' hshapes => ?_
  have helements : List.Forall₂ K.shapes (shapes.map Shape.orAny) (shapes'.map Shape.orAny) :=
    List.rel_map (fun _ _ h => laws.orAny h) hshapes
  exact matches_pure (laws.tuple helements)

theorem positions {items items' : List Json} (hget : schema.get? "items" = some (.array items))
    (hget' : schema'.get? "items" = some (.array items'))
    (hbounds : ∀ keyword ∈ ["minItems", "maxItems"], schema.get? keyword = schema'.get? keyword)
    (hitems : List.Forall₂ (K.Parts inner inner') items items') (h : K.states c c') :
    K.Matches K.shapes (Node.array inner schema) (Node.array inner' schema') c c' := by
  refine laws.positions_of_bounds hget hget' (fun keyword mem => ?_) hitems h
  have hsame : Node.fixedLength schema' keyword items'.length =
      Node.fixedLength schema keyword items.length := by
    simp only [Node.fixedLength, hbounds keyword mem, hitems.length_eq]
  rw [hsame]
  exact laws.fixedLength keyword _ h

theorem listOf {item item' : Json} (hitem : K.Parts inner inner' item item') (h : K.states c c') :
    K.Matches K.shapes (do return .list (← Compile.descend ["items"] (inner item)).orAny)
      (do return .list (← Compile.descend ["items"] (inner' item')).orAny) c c' :=
  matches_bind (matches_descend (hitem _ _ (laws.below _ h))) fun _ _ hshape =>
    matches_pure (laws.list (laws.orAny hshape))

theorem array (hinner : K.Inners schema inner inner') (h : K.states c c') :
    K.Matches K.shapes (Node.array inner schema) (Node.array inner' schema) c c' := by
  cases hget : schema.get? "items" with
  | none =>
    simp only [Node.array, hget]
    exact matches_pure (laws.fixed _ rfl)
  | some value =>
    cases value with
    | bool admitted =>
      simp only [Node.array, hget]
      cases admitted with
      | true => exact matches_pure (laws.fixed _ rfl)
      | false => exact laws.matches_unsupported h _
    | array items =>
      exact laws.positions hget hget (fun _ _ => rfl) (List.forall₂_same.mpr fun item mem =>
        hinner item (.position hget mem)) h
    | _ =>
      simp only [Node.array, hget]
      exact laws.listOf (hinner _ (.items hget)) h

/-! ## Types -/

theorem boolean (h : K.states c c') :
    K.Matches K.shapes (Node.boolean schema) (Node.boolean schema) c c' := by
  simp only [Node.boolean]
  split
  · next properties _ =>
    cases hconst : Members.get? properties "const" with
    | some value =>
      have hlast := matches_descend (laws.literal value (laws.below ["properties", "const"] h))
      split
      · exact matches_bind (matches_descend (laws.matches_warn (laws.below _ h) _ _))
          fun _ _ _ => hlast
      · exact hlast
    | none =>
      split
      · exact matches_bind (matches_descend (laws.matches_warn (laws.below _ h) _ _))
          fun _ _ _ => matches_pure (laws.fixed _ rfl)
      · exact matches_pure (laws.fixed _ rfl)
  · exact matches_pure (laws.fixed _ rfl)

theorem integer (h : K.states c c') :
    K.Matches K.shapes Node.integer Node.integer c c' := by
  refine matches_inspect (fun _ => rfl) (fun _ => rfl) ?_
  have hshape : ∀ draft : Draft, (if draft.integersAreExact = true then pure (.scalar .int)
      else pure (.union [.scalar .int, .scalar .number]) : Compile Shape) =
        pure draft.integerShape := by
    intro draft
    rw [Draft.integerShape]
    split
    · rfl
    · rfl
  rw [hshape, hshape]
  exact matches_pure (laws.integers h)

/-- Schemas whose objects, arrays and booleans come to corresponding ends. -/
theorem typed_of (type : TypeName)
    (hobject : K.Matches K.shapes (Node.object inner schema outer)
      (Node.object inner' schema' outer') c c')
    (harray : K.Matches K.shapes (Node.array inner schema) (Node.array inner' schema') c c')
    (hboolean : K.Matches K.shapes (Node.boolean schema) (Node.boolean schema') c c')
    (h : K.states c c') :
    K.Matches K.shapes (Node.typed inner type schema outer)
      (Node.typed inner' type schema' outer') c c' := by
  cases type with
  | object => exact hobject
  | array => exact harray
  | integer => exact laws.integer h
  | boolean => exact hboolean
  | string | number | null | any => exact matches_pure (laws.fixed _ rfl)

theorem alike (hinner : K.Inners schema inner inner') : K.Alike schema schema inner inner' where
  choosing := fun _ _ => rfl
  branches := by
    intro keyword hkeyword
    cases hget : schema.get? keyword with
    | none => exact .none
    | some branches => exact .some fun _ _ h => laws.anyOf hkeyword hget hinner h
  typed := fun type _ _ _ _ hflags h => laws.typed_of type (laws.object hflags hinner h)
    (laws.array hinner h) (laws.boolean h) h

variable (halike : K.Alike schema schema' inner inner')

include halike

theorem named (type : String) (hflags : K.flags outer outer') (h : K.states c c') :
    K.Matches K.shapes (Node.named inner type schema outer)
      (Node.named inner' type schema' outer') c c' := by
  simp only [Node.named, ← halike.choosing "enum" (by decide)]
  split
  · exact laws.enumeration _ h
  · split
    · exact halike.typed _ _ _ _ _ hflags h
    · exact laws.matches_warn_then h (matches_pure (laws.fixed _ rfl))

theorem eachName (types : List String) (hflags : K.flags outer outer') (h : K.states c c') :
    K.Matches (List.Forall₂ K.shapes) (Node.eachName inner schema outer types)
      (Node.eachName inner' schema' outer' types) c c' := by
  induction types with
  | nil => exact matches_pure .nil
  | cons type rest ih =>
    refine matches_bind (laws.named halike type hflags h) fun first first' hfirst => ?_
    refine matches_bind ih fun others others' hothers => ?_
    exact matches_pure (.cons hfirst hothers)

theorem listed (types : List String) (hroot : SameRoot c c' outer outer')
    (hflags : K.flags outer outer') (h : K.states c c') :
    K.Matches K.shapes (Node.listed inner types schema outer)
      (Node.listed inner' types schema' outer') c c' := by
  refine matches_inspect (fun _ => rfl) (fun _ => rfl) ?_
  rw [hroot]
  split
  · split
    · exact laws.matches_warn_then h (laws.named halike _ hflags h)
    · exact matches_ends (Compile.gives_fail fun _ => rfl) (Compile.gives_fail fun _ => rfl)
        (.failure (laws.rootType types h)) .nil
  · refine matches_bind (laws.eachName halike types hflags h) fun shapes shapes' hshapes => ?_
    exact matches_pure (laws.union hshapes)

/-! ## Nodes -/

omit halike in
theorem reference {target : String} (hadmits : K.admits (.object schema))
    (hget : schema.get? "$ref" = some (.string target)) (hflags : K.flags outer outer')
    (hfollow : target ≠ "#" → K.Follows target follow follow') (h : K.states c c') :
    K.Matches K.shapes (Node.reference follow target outer)
      (Node.reference follow' target outer') c c' := by
  simp only [Node.reference]
  split
  · next heq =>
    subst heq
    refine laws.matches_warn_then h (matches_inspect (fun _ => rfl) (fun _ => rfl) ?_)
    exact matches_pure (laws.self hadmits h hget)
  · next hne => exact hfollow hne c c' outer outer' h hflags

theorem untyped (hadmits : K.admits (.object schema)) (hflags : K.flags outer outer')
    (hfollow : K.References follow follow') (h : K.states c c') :
    K.Matches K.shapes (Node.untyped follow inner schema outer)
      (Node.untyped follow' inner' schema' outer') c c' := by
  have hall := halike.branches "allOf" (by decide)
  have hany := halike.branches "anyOf" (by decide)
  have hone := halike.branches "oneOf" (by decide)
  simp only [Node.untyped, ← halike.choosing "$ref" (by decide),
    ← halike.choosing "enum" (by decide), Members.contains_eq, ← halike.choosing "default" (by decide)]
  split
  · next target hget =>
    exact laws.reference hadmits hget hflags (hfollow schema target hadmits hget) h
  · exact laws.matches_malformed h _
  · generalize schema.get? "allOf" = all, schema'.get? "allOf" = all' at hall ⊢
    generalize schema.get? "anyOf" = any, schema'.get? "anyOf" = any' at hany ⊢
    generalize schema.get? "oneOf" = one, schema'.get? "oneOf" = one' at hone ⊢
    cases hall with
    | some hall => exact laws.matches_warn_then h (hall _ _ h)
    | none =>
      cases hany with
      | some hany => exact hany _ _ h
      | none =>
        cases hone with
        | some hone => exact laws.matches_warn_then h (hone _ _ h)
        | none =>
          cases schema.get? "enum" with
          | some values => exact laws.enumeration _ h
          | none =>
            simp only
            split
            · exact laws.matches_warn_then h (matches_pure (laws.fixed _ rfl))
            · exact laws.matches_warn_then h (matches_pure (laws.fixed _ rfl))

theorem members (hadmits : K.admits (.object schema))
    (hroot : ∀ types, schema.get? "type" = some (.array types) → SameRoot c c' outer outer')
    (hflags : K.flags outer outer') (hfollow : K.References follow follow') (h : K.states c c') :
    K.Matches K.shapes (Node.members follow inner schema outer)
      (Node.members follow' inner' schema' outer') c c' := by
  simp only [Node.members, ← halike.choosing "type" (by decide)]
  split
  · exact laws.named halike _ hflags h
  · next hget =>
    split
    · exact laws.listed halike _ (hroot _ hget) hflags h
    · exact laws.matches_malformed h _
  · exact laws.matches_malformed h _
  · exact laws.untyped halike hadmits hflags hfollow h

omit halike in
/-- A schema whose identifier, if it has any, leads to corresponding scopes. -/
theorem shape (schema : Json) (hadmits : K.admits schema)
    (hid : ∀ members, schema = .object members →
      c.draft.idOf? members = c'.draft.idOf? members ∧
        ∀ id, c.draft.idOf? members = some id → K.Enters id c c')
    (hroot : ∀ types, schema.get? "type" = some (.array types) → SameRoot c c' outer outer')
    (hflags : K.flags outer outer')
    (hinner : ∀ members, schema = .object members → K.Inners members inner inner')
    (hfollow : K.References follow follow') (h : K.states c c') :
    K.Matches K.shapes (Node.shape follow inner schema outer)
      (Node.shape follow' inner' schema outer') c c' := by
  cases schema with
  | object schema =>
    obtain ⟨hsame, henters⟩ := hid schema rfl
    have hmembers : ∀ c c',
        (∀ types, Members.get? schema "type" = some (.array types) →
          SameRoot c c' outer outer') →
        K.states c c' → K.Matches K.shapes (Node.members follow inner schema outer)
          (Node.members follow' inner' schema outer') c c' := fun c c' hroot h =>
      laws.members (laws.alike (hinner schema rfl)) hadmits hroot hflags hfollow h
    simp only [Node.shape]
    refine matches_inspect (fun _ => rfl) (fun _ => rfl) ?_
    rw [← hsame]
    split
    · exact hmembers c c' hroot h
    · next id hget => exact laws.matches_inScope h (henters id hget) fun _ _ _ => hmembers _ _ hroot
  | bool value =>
    cases value with
    | true => exact matches_pure (laws.fixed _ rfl)
    | false => exact laws.matches_unsupported h _
  | _ => exact laws.matches_malformed h _

end Rules

end Correspondence

end SchemaShape
