import SchemaShape.Proofs.Compiler.Lockstep

/-! # What a success says

Every action of the compiler comes to an end, and a rule that ends in a shape tells which shape that
is and what its parts were given by. `action.YieldsBelow c added x` says that a part `x` was given further
down from `c`, and that its report is in `added`; `action.Yields draft added x` forgets all of the place but
its draft.
-/

namespace SchemaShape
set_option autoImplicit false

open Correspondence Compile

theorem exists_of_forall₂ {α β : Type} {R : α → β → Prop} {xs : List α} {ys : List β}
    (h : List.Forall₂ R xs ys) {x : α} (mem : x ∈ xs) : ∃ y ∈ ys, R x y := by
  induction h with
  | nil => simp at mem
  | @cons x' y _ ys hhead _ ih =>
    rcases List.mem_cons.mp mem with rfl | hrest
    · exact ⟨y, List.mem_cons_self .., hhead⟩
    · obtain ⟨y', hy', hrel⟩ := ih hrest
      exact ⟨y', List.mem_cons_of_mem _ hy', hrel⟩

namespace Compile

variable {α β : Type}

def Yields (action : Compile α) (draft : Draft) (added : List Diagnostic) (x : α) : Prop :=
  ∃ c reported, c.draft = draft ∧ action.Gives c (.ok x) reported ∧ reported ⊆ added

def YieldsBelow (action : Compile α) (c : Compiler) (added : List Diagnostic) (x : α) : Prop :=
  ∃ tokens reported, action.Gives (c.below tokens) (.ok x) reported ∧ reported ⊆ added

theorem YieldsBelow.mono {action : Compile α} {c : Compiler} {added added' : List Diagnostic} {x : α}
    (h : action.YieldsBelow c added x) (hsub : added ⊆ added') : action.YieldsBelow c added' x := by
  obtain ⟨tokens, reported, hgives, hreported⟩ := h
  exact ⟨tokens, reported, hgives, List.Subset.trans hreported hsub⟩

theorem YieldsBelow.yields {action : Compile α} {c : Compiler} {added : List Diagnostic} {x : α}
    (h : action.YieldsBelow c added x) : action.Yields c.draft added x := by
  obtain ⟨tokens, reported, hgives, hreported⟩ := h
  exact ⟨c.below tokens, reported, rfl, hgives, hreported⟩

theorem tidy_pure (x : α) : (pure x : Compile α).Tidy :=
  fun c => ⟨_, _, gives_pure x c⟩

theorem tidy_bind {action : Compile α} {next : α → Compile β} (h : action.Tidy)
    (hnext : ∀ x, (next x).Tidy) : (action >>= next).Tidy := by
  intro c
  obtain ⟨result, added, hgives⟩ := h c
  cases result with
  | error e => exact ⟨_, _, gives_bind_error hgives⟩
  | ok x =>
    obtain ⟨result', added', hgives'⟩ := hnext x c
    exact ⟨_, _, gives_bind hgives hgives'⟩

theorem tidy_warn (kind : Diagnostic.Kind) (message : String) : (warn kind message).Tidy :=
  fun c => ⟨_, _, gives_warn kind message c⟩

theorem tidy_descend {tokens : List String} {action : Compile α} (h : action.Tidy) :
    (descend tokens action).Tidy := by
  intro c
  obtain ⟨result, added, hgives⟩ := h (c.below tokens)
  exact ⟨_, _, gives_descend hgives⟩

theorem tidy_descendProperty {key : String} {action : Compile α} (h : action.Tidy) :
    (descendProperty key action).Tidy := by
  intro c
  obtain ⟨result, added, hgives⟩ := h (c.atProperty key)
  exact ⟨_, _, gives_descendProperty hgives⟩

theorem tidy_inScope {id : String} {action : Compile α} (h : action.Tidy) :
    (inScope id action).Tidy := by
  intro c
  cases enter : c.resolver.enterId id with
  | error e => exact ⟨_, _, gives_inScope_error enter⟩
  | ok resolver =>
    obtain ⟨result, added, hgives⟩ := h (c.within resolver)
    exact ⟨_, _, gives_inScope enter hgives⟩

theorem Tidy.gives_of_ok {action : Compile α} {c : Compiler} {x : α} (tidy : action.Tidy)
    (h : (action c).1 = .ok x) : ∃ added, action.Gives c (.ok x) added := by
  obtain ⟨result, added, hgives⟩ := tidy c
  rw [hgives.run] at h
  cases h
  exact ⟨added, hgives⟩

theorem Gives.malformed_ok {reason : String} {c : Compiler} {x : α} {added : List Diagnostic}
    (h : (malformed reason : Compile α).Gives c (.ok x) added) : False := by
  cases (h.unique (gives_malformed reason c)).1

theorem Gives.unsupported_ok {reason : String} {c : Compiler} {x : α} {added : List Diagnostic}
    (h : (unsupported reason : Compile α).Gives c (.ok x) added) : False := by
  cases (h.unique (gives_unsupported reason c)).1

theorem Gives.warn_then_ok {kind : Diagnostic.Kind} {message : String} {action : Compile α}
    {c : Compiler} {x : α} {added : List Diagnostic} (tidy : action.Tidy)
    (h : (do warn kind message; action : Compile α).Gives c (.ok x) added) :
    ∃ after, action.Gives c (.ok x) after ∧ added = c.warning kind message :: after := by
  obtain ⟨_, before, after, hwarn, haction, rfl⟩ := h.bind_ok (tidy_warn kind message) fun _ => tidy
  obtain ⟨-, rfl⟩ := hwarn.unique (gives_warn kind message c)
  exact ⟨after, haction, rfl⟩

theorem Gives.inspect_ok {f : Compiler → α} {next : α → Compile β} {c : Compiler} {x : β}
    {added : List Diagnostic} (hf : ∀ prior, f { c with diagnostics := prior } = f c)
    (tidy : ∀ first, (next first).Tidy) (h : (inspect f >>= next).Gives c (.ok x) added) :
    (next (f c)).Gives c (.ok x) added := by
  obtain ⟨result, after, hnext⟩ := tidy (f c) c
  obtain ⟨heq, hadded⟩ := h.unique (gives_bind (gives_inspect hf) hnext)
  rw [heq, hadded]
  exact hnext

end Compile

namespace Node

variable {inner : Inner} {follow : Follow} {schema : Members} {outer : Bool}
variable {c : Compiler} {added : List Diagnostic} {shape : Shape}

/-! ## Every rule comes to an end -/

/-- The schemas inside one are compiled to an end. -/
def TidyInners (schema : Members) (inner : Inner) : Prop :=
  ∀ part, Subschema schema part → (inner part).Tidy

theorem TidyInners.same (h : TidyInners schema inner) :
    Correspondence.same.Inners schema inner inner := by
  rintro part hpart c _ rfl
  exact same_refl (h part hpart) c

theorem TidyInners.alike (h : TidyInners schema inner) :
    Correspondence.same.Alike schema schema inner inner :=
  same_lawful.toRules.alike h.same

theorem tidy_eachItem {α : Type} {action : Json → Compile α} {keyword : String} {position : Nat}
    {items : List Json} (h : ∀ item ∈ items, (action item).Tidy) :
    (eachItem keyword action position items).Tidy := by
  induction items generalizing position with
  | nil => exact tidy_pure _
  | cons item rest ih =>
    refine tidy_bind (tidy_descend (h item (List.mem_cons_self ..))) fun _ => ?_
    exact tidy_bind (ih fun other mem => h other (List.mem_cons_of_mem _ mem)) fun _ => tidy_pure _

theorem tidy_literal (value : Json) : (literal value).Tidy :=
  tidy_of_same fun _ => same_lawful.toRules.literal value rfl

theorem tidy_anyOf {keyword : String} {branches : Json} (hkeyword : keyword ∈ branchKeywords)
    (hget : schema.get? keyword = some branches) (h : TidyInners schema inner) :
    (anyOf inner keyword branches).Tidy :=
  tidy_of_same fun _ => same_lawful.toRules.anyOf hkeyword hget h.same rfl

theorem tidy_fields {required : List String} {properties : Members}
    (h : ∀ key value, (key, value) ∈ properties → (inner value).Tidy) :
    (fields inner required properties).Tidy := by
  refine tidy_of_same fun c => same_lawful.toRules.fields required
    (List.forall₂_same.mpr fun member mem => ⟨rfl, fun _ => ?_⟩) rfl
  rintro c _ rfl
  exact same_refl (h member.1 member.2 mem) c

theorem tidy_object (h : TidyInners schema inner) : (object inner schema outer).Tidy :=
  tidy_of_same fun _ => same_lawful.toRules.object rfl h.same rfl

theorem tidy_named (type : String) (h : TidyInners schema inner) :
    (named inner type schema outer).Tidy :=
  tidy_of_same fun _ => same_lawful.toRules.named h.alike type rfl rfl

theorem tidy_eachName (types : List String) (h : TidyInners schema inner) :
    (eachName inner schema outer types).Tidy :=
  tidy_of_same fun _ => same_lawful.toRules.eachName h.alike types rfl rfl

theorem tidy_fixedLength (keyword : String) (length : Nat) :
    (fixedLength schema keyword length).Tidy :=
  tidy_of_same fun _ => same_lawful.toRules.fixedLength keyword length rfl

theorem tidy_members (depth : Nat) (h : TidyInners schema inner) :
    (members (followUpTo depth) inner schema outer).Tidy :=
  tidy_of_same fun _ => same_lawful.toRules.members h.alike trivial (fun _ _ => rfl) rfl
    (same_lawful.references (.inl rfl)) rfl

/-! ## What the shapes are -/

theorem eachItem_ok {α : Type} {action : Json → Compile α} {keyword : String} {position : Nat}
    {items : List Json} {xs : List α} (tidy : ∀ item ∈ items, (action item).Tidy)
    (h : (eachItem keyword action position items).Gives c (.ok xs) added) :
    List.Forall₂ (fun item x => (action item).YieldsBelow c added x) items xs := by
  induction items generalizing position xs added with
  | nil =>
    obtain ⟨rfl, -⟩ := h.pure_ok
    exact .nil
  | cons item rest ih =>
    have htidy := tidy item (List.mem_cons_self ..)
    have hrest : ∀ other ∈ rest, (action other).Tidy :=
      fun other mem => tidy other (List.mem_cons_of_mem _ mem)
    obtain ⟨first, before, after, hfirst, hthen, rfl⟩ := h.bind_ok (tidy_descend htidy)
      fun _ => tidy_bind (tidy_eachItem hrest) fun _ => tidy_pure _
    obtain ⟨others, between, last, hothers, hlast, rfl⟩ := hthen.bind_ok (tidy_eachItem hrest)
      fun _ => tidy_pure _
    obtain ⟨rfl, rfl⟩ := hlast.pure_ok
    refine .cons ⟨[keyword, toString position], before, hfirst.descend_ok htidy,
      List.subset_append_left ..⟩ ?_
    refine (ih hrest hothers).imp fun _ _ hyields => hyields.mono ?_
    rw [List.append_nil]
    exact List.subset_append_right ..

theorem literal_ok {value : Json} (h : (literal value).Gives c (.ok shape) added) :
    (∃ l, Literal.ofJson? value = some l ∧ shape = .literal l) ∨
      (Literal.ofJson? value = none ∧ shape = .any) := by
  rw [literal] at h
  split at h
  · next l hl =>
    obtain ⟨rfl, -⟩ := h.pure_ok
    exact .inl ⟨l, hl, rfl⟩
  · next hl =>
    obtain ⟨after, hlast, -⟩ := h.warn_then_ok (tidy_pure _)
    obtain ⟨rfl, -⟩ := hlast.pure_ok
    exact .inr ⟨hl, rfl⟩

theorem enumeration_ok {values : Json} (h : (enumeration values).Gives c (.ok shape) added) :
    ∃ items members, values = .array items ∧ shape = .union members ∧
      List.Forall₂ (fun item member => (∃ l, Literal.ofJson? item = some l ∧ member = .literal l) ∨
        (Literal.ofJson? item = none ∧ member = .any)) items members := by
  cases values with
  | array items =>
    obtain ⟨members, before, after, hmembers, hlast, -⟩ :=
      h.bind_ok (tidy_eachItem fun item _ => tidy_literal item) fun _ => tidy_pure _
    obtain ⟨rfl, -⟩ := hlast.pure_ok
    refine ⟨items, members, rfl, rfl, ?_⟩
    refine (eachItem_ok (fun item _ => tidy_literal item) hmembers).imp fun item member hyields => ?_
    obtain ⟨_, _, hgives, -⟩ := hyields
    exact literal_ok hgives
  | _ => exact h.malformed_ok.elim

theorem anyOf_ok {keyword : String} {branches : Json} (hkeyword : keyword ∈ branchKeywords)
    (hget : schema.get? keyword = some branches) (tidy : TidyInners schema inner)
    (h : (anyOf inner keyword branches).Gives c (.ok shape) added) :
    ∃ items members, branches = .array items ∧ shape = .union (members.filter (!·.isNothing)) ∧
      List.Forall₂ (fun item member => (inner item).YieldsBelow c added member) items members := by
  cases branches with
  | array items =>
    have htidy : ∀ item ∈ items, (inner item).Tidy := fun item mem =>
      tidy item (.branch hkeyword hget mem)
    obtain ⟨members, before, after, hmembers, hlast, rfl⟩ :=
      h.bind_ok (tidy_eachItem htidy) fun _ => tidy_pure _
    obtain ⟨rfl, rfl⟩ := hlast.pure_ok
    refine ⟨items, members, rfl, rfl, ?_⟩
    rw [List.append_nil]
    exact eachItem_ok htidy hmembers
  | _ => exact h.malformed_ok.elim

theorem mem_requiredNames_iff {name : String} : name ∈ requiredNames schema ↔
    ∃ names, schema.get? "required" = some (.array names) ∧ Json.string name ∈ names := by
  rw [requiredNames]
  split
  · next names hget =>
    refine ⟨fun mem => ⟨names, hget, ?_⟩, ?_⟩
    · obtain ⟨listed, hlisted, hstring⟩ := List.mem_filterMap.mp mem
      cases listed with
      | string text =>
        cases hstring
        exact hlisted
      | _ => cases hstring
    · rintro ⟨names', hget', mem⟩
      rw [hget] at hget'
      cases hget'
      exact List.mem_filterMap.mpr ⟨_, mem, rfl⟩
  · next hother =>
    refine ⟨fun mem => absurd mem List.not_mem_nil, ?_⟩
    rintro ⟨names, hget, -⟩
    exact absurd hget (hother names)

/-- What a property gives by itself, and what is reported of it. -/
def propertyOutcome (inner : Inner) (c : Compiler) :
    String × Json → Except Failure Shape × List Diagnostic :=
  fun (key, part) =>
    let run := inner part { c.atProperty key with diagnostics := [] }
    (run.1, run.2.diagnostics)

/-- The field of a property, if it has one. The reserved names are no properties. -/
def propertyField? (inner : Inner) (c : Compiler) (required : List String) :
    String × Json → Option (Field Shape) :=
  fun member =>
    if member.1 ∈ reservedNames then none
    else
      match (propertyOutcome inner c member).1 with
      | .ok shape =>
        if shape.isNothing then none else some ⟨member.1, required.contains member.1, shape⟩
      | .error _ => none

def propertyReport (inner : Inner) (c : Compiler) : String × Json → List Diagnostic :=
  fun member => if member.1 ∈ reservedNames then [] else (propertyOutcome inner c member).2

theorem propertyOutcome_eq {key : String} {part : Json} {result : Except Failure Shape}
    (h : (inner part).Gives (c.atProperty key) result added) :
    propertyOutcome inner c (key, part) = (result, added) := by
  simp only [propertyOutcome, h [], List.nil_append]

theorem gives_of_propertyOutcome {key : String} {part : Json} {result : Except Failure Shape}
    (tidy : (inner part).Tidy) (h : (propertyOutcome inner c (key, part)).1 = result) :
    (inner part).Gives (c.atProperty key) result (propertyOutcome inner c (key, part)).2 := by
  obtain ⟨result', added, hgives⟩ := tidy (c.atProperty key)
  rw [propertyOutcome_eq hgives] at h ⊢
  exact h ▸ hgives

theorem propertyField?_eq_some {required : List String} {member : String × Json}
    {field : Field Shape} (h : propertyField? inner c required member = some field) :
    field.key = member.1 ∧ field.required = required.contains member.1 ∧
      member.1 ∉ reservedNames ∧ (propertyOutcome inner c member).1 = .ok field.shape ∧
      field.shape.isNothing = false := by
  simp only [propertyField?] at h
  split at h
  · cases h
  · next hfree =>
    split at h
    · next shape hshape =>
      split at h
      · cases h
      · next hsome =>
        cases h
        exact ⟨rfl, rfl, hfree, hshape, eq_false_of_ne_true hsome⟩
    · cases h

/-- The fields are those of the properties, in their order, and so is the report. -/
theorem fields_eq {required : List String} {properties : Members} {result : List (Field Shape)}
    (tidy : ∀ key value, (key, value) ∈ properties → (inner value).Tidy)
    (h : (fields inner required properties).Gives c (.ok result) added) :
    result = properties.filterMap (propertyField? inner c required) ∧
      added = properties.flatMap (propertyReport inner c) ∧
      ∀ member ∈ properties, member.1 ∉ reservedNames →
        ∃ shape, (propertyOutcome inner c member).1 = .ok shape := by
  induction properties generalizing result added with
  | nil =>
    obtain ⟨rfl, rfl⟩ := h.pure_ok
    exact ⟨rfl, rfl, List.forall_mem_nil _⟩
  | cons member rest ih =>
    obtain ⟨key, part⟩ := member
    have htidy := tidy key part (List.mem_cons_self ..)
    have hrest : ∀ key value, (key, value) ∈ rest → (inner value).Tidy :=
      fun key value mem => tidy key value (List.mem_cons_of_mem _ mem)
    simp only [fields] at h
    split at h
    · next hreserved =>
      obtain ⟨hresult, hadded, hcompiled⟩ := ih hrest h
      refine ⟨?_, ?_, List.forall_mem_cons.mpr ⟨fun hfree => absurd hreserved hfree, hcompiled⟩⟩
      · rw [List.filterMap_cons_none (by simp only [propertyField?, if_pos hreserved]), hresult]
      · rw [List.flatMap_cons, hadded]
        simp only [propertyReport, if_pos hreserved, List.nil_append]
    · next hfree =>
      obtain ⟨shape, before, after, hfirst, hthen, rfl⟩ := h.bind_ok (tidy_descendProperty htidy)
        fun _ => tidy_bind (tidy_fields hrest) fun _ => tidy_pure _
      obtain ⟨others, between, last, hothers, hlast, rfl⟩ := hthen.bind_ok (tidy_fields hrest)
        fun _ => tidy_pure _
      obtain ⟨rfl, rfl⟩ := hlast.pure_ok
      obtain ⟨hresult, hadded, hcompiled⟩ := ih hrest hothers
      have hproperty := propertyOutcome_eq (hfirst.descendProperty_ok htidy)
      refine ⟨?_, ?_, List.forall_mem_cons.mpr ⟨fun _ => ⟨shape, by rw [hproperty]⟩, hcompiled⟩⟩
      · rw [List.filterMap_cons, hresult]
        simp only [propertyField?, if_neg hfree, hproperty]
        split
        · rfl
        · rfl
      · rw [List.flatMap_cons, hadded, List.append_nil]
        simp only [propertyReport, if_neg hfree, hproperty]

theorem fields_ok {required : List String} {properties : Members} {result : List (Field Shape)}
    (tidy : ∀ key value, (key, value) ∈ properties → (inner value).Tidy)
    (h : (fields inner required properties).Gives c (.ok result) added) :
    ∀ field ∈ result, ∃ value reported, (field.key, value) ∈ properties ∧
      field.required = required.contains field.key ∧
      (inner value).Gives (c.atProperty field.key) (.ok field.shape) reported ∧
      reported ⊆ added ∧ field.key ∉ reservedNames ∧ field.shape.isNothing = false := by
  obtain ⟨rfl, rfl, -⟩ := fields_eq tidy h
  intro field mem
  obtain ⟨⟨key, value⟩, hmem, hfield⟩ := List.mem_filterMap.mp mem
  obtain ⟨rfl, hrequired, hfree, hshape, hsome⟩ := propertyField?_eq_some hfield
  have hgives := gives_of_propertyOutcome (tidy _ _ hmem) hshape
  refine ⟨value, _, hmem, hrequired, hgives, fun entry hentry => ?_, hfree, hsome⟩
  exact List.mem_flatMap.mpr ⟨_, hmem, by rwa [propertyReport, if_neg hfree]⟩

theorem fields_each {required : List String} {properties : Members}
    {result : List (Field Shape)} (tidy : ∀ key value, (key, value) ∈ properties → (inner value).Tidy)
    (h : (fields inner required properties).Gives c (.ok result) added) :
    ∀ key value, (key, value) ∈ properties → key ∉ reservedNames →
      ∃ shape reported, (inner value).Gives (c.atProperty key) (.ok shape) reported := by
  intro key value mem hfree
  obtain ⟨shape, hshape⟩ := (fields_eq tidy h).2.2 _ mem hfree
  exact ⟨shape, _, gives_of_propertyOutcome (tidy _ _ mem) hshape⟩

theorem object_fields_ok {properties : Members} (tidy : TidyInners schema inner)
    (hproperties : schema.get? "properties" = some (.object properties))
    (h : (object inner schema outer).Gives c (.ok shape) added) :
    ∃ result, shape = .record c.recordName outer result ∧
      (fields inner (requiredNames schema) properties).Gives c (.ok result) added := by
  have htidy : ∀ key value, (key, value) ∈ properties → (inner value).Tidy :=
    fun key value mem => tidy value (.property hproperties mem)
  simp only [object, hproperties] at h
  have hthen := h.inspect_ok (fun _ => rfl)
    fun _ => tidy_bind (tidy_fields htidy) fun _ => tidy_pure _
  obtain ⟨result, before, after, hfields, hlast, rfl⟩ := hthen.bind_ok (tidy_fields htidy)
    fun _ => tidy_pure _
  obtain ⟨rfl, rfl⟩ := hlast.pure_ok
  rw [List.append_nil]
  exact ⟨result, rfl, hfields⟩

theorem object_ok (tidy : TidyInners schema inner)
    (h : (object inner schema outer).Gives c (.ok shape) added) :
    (schema.get? "properties" = none ∧ shape = .anyMapping) ∨
      ∃ properties result, schema.get? "properties" = some (.object properties) ∧
        shape = .record c.recordName outer result ∧
        ∀ field ∈ result, ∃ value reported, (field.key, value) ∈ properties ∧
          field.required = (requiredNames schema).contains field.key ∧
          (inner value).Gives (c.atProperty field.key) (.ok field.shape) reported ∧
          reported ⊆ added ∧ field.key ∉ reservedNames ∧ field.shape.isNothing = false := by
  cases hget : schema.get? "properties" with
  | none =>
    simp only [object, hget] at h
    exact .inl ⟨rfl, h.pure_ok.1⟩
  | some value =>
    cases value with
    | object properties =>
      obtain ⟨result, rfl, hfields⟩ := object_fields_ok tidy hget h
      exact .inr ⟨properties, result, rfl, rfl,
        fields_ok (fun key value mem => tidy value (.property hget mem)) hfields⟩
    | _ =>
      simp only [object, hget] at h
      exact h.malformed_ok.elim

theorem fixedLength_ok {keyword : String} {length : Nat}
    (h : (fixedLength schema keyword length).Gives c (.ok ()) added) :
    schema.get? keyword = none ∨ ∃ bound, schema.get? keyword = some (.number bound) ∧
      bound.toBinary64.sameNumber (Binary64.ofInt length) = true := by
  simp only [fixedLength] at h
  split at h
  · next hget => exact .inl hget
  · next bound hget =>
    split at h
    · next bound => 
      split at h
      · next hfits => exact .inr ⟨_, hget, hfits⟩
      · exact h.unsupported_ok.elim
    · exact h.unsupported_ok.elim

theorem array_ok (tidy : TidyInners schema inner)
    (h : (array inner schema).Gives c (.ok shape) added) :
    shape = .list .any ∨
      (∃ items elements, schema.get? "items" = some (.array items) ∧
        shape = .tuple (elements.map Shape.orAny) ∧
        (∀ keyword ∈ ["minItems", "maxItems"], schema.get? keyword = none ∨
          ∃ bound, schema.get? keyword = some (.number bound) ∧
            bound.toBinary64.sameNumber (Binary64.ofInt items.length) = true) ∧
        List.Forall₂ (fun item element => (inner item).YieldsBelow c added element)
          items elements) ∨
      ∃ item element, schema.get? "items" = some item ∧ (∀ items, item ≠ .array items) ∧
        shape = .list element.orAny ∧ (inner item).YieldsBelow c added element := by
  simp only [array] at h
  split at h
  · obtain ⟨rfl, -⟩ := h.pure_ok
    exact .inl rfl
  · obtain ⟨rfl, -⟩ := h.pure_ok
    exact .inl rfl
  · exact h.unsupported_ok.elim
  · next items hget =>
    have htidy : ∀ item ∈ items, (inner item).Tidy := fun item mem =>
      tidy item (.position hget mem)
    obtain ⟨_, _, _, hmin, hthen, rfl⟩ := h.bind_ok (tidy_fixedLength _ _)
      fun _ => tidy_bind (tidy_fixedLength _ _) fun _ => tidy_bind (tidy_eachItem htidy)
        fun _ => tidy_pure _
    obtain ⟨_, _, _, hmax, hthen', rfl⟩ := hthen.bind_ok (tidy_fixedLength _ _)
      fun _ => tidy_bind (tidy_eachItem htidy) fun _ => tidy_pure _
    obtain ⟨elements, reported, _, hitems, hlast, rfl⟩ := hthen'.bind_ok (tidy_eachItem htidy)
      fun _ => tidy_pure _
    obtain ⟨rfl, -⟩ := hlast.pure_ok
    refine .inr (.inl ⟨items, elements, hget, rfl, ?_, ?_⟩)
    · intro keyword mem
      simp only [List.mem_cons, List.not_mem_nil, or_false] at mem
      rcases mem with rfl | rfl
      · exact fixedLength_ok hmin
      · exact fixedLength_ok hmax
    · refine (eachItem_ok htidy hitems).imp fun _ _ hyields => hyields.mono ?_
      intro entry mem
      simp [mem]
  · next item hnotrue hnofalse hnoarray hget =>
    have htidy := tidy item (.items hget)
    obtain ⟨element, reported, _, hitem, hlast, rfl⟩ := h.bind_ok (tidy_descend htidy)
      fun _ => tidy_pure _
    obtain ⟨rfl, -⟩ := hlast.pure_ok
    exact .inr (.inr ⟨item, element, hget, hnoarray, rfl, ["items"], reported,
      hitem.descend_ok htidy, List.subset_append_left ..⟩)

theorem boolean_ok (h : (boolean schema).Gives c (.ok shape) added) :
    shape = .scalar .bool ∨
      ∃ properties value, schema.get? "properties" = some (.object properties) ∧
        Members.get? properties "const" = some value ∧
        ((∃ l, Literal.ofJson? value = some l ∧ shape = .literal l) ∨ shape = .any) := by
  simp only [boolean] at h
  split at h
  · next properties hget =>
    cases hconst : Members.get? properties "const" with
    | some value =>
      have htidy : (descend ["properties", "const"] (literal value)).Tidy :=
        tidy_descend (tidy_literal value)
      have hlast : ∃ reported,
          (descend ["properties", "const"] (literal value)).Gives c (.ok shape) reported := by
        simp only [hconst] at h
        split at h
        · obtain ⟨_, _, reported, _, hlast, -⟩ :=
            h.bind_ok (tidy_descend (tidy_warn _ _)) fun _ => htidy
          exact ⟨reported, hlast⟩
        · exact ⟨added, h⟩
      obtain ⟨reported, hlast⟩ := hlast
      refine .inr ⟨properties, value, hget, hconst, ?_⟩
      rcases literal_ok (hlast.descend_ok (tidy_literal value)) with hliteral | ⟨-, hany⟩
      · exact .inl hliteral
      · exact .inr hany
    | none =>
      simp only [hconst] at h
      split at h
      · obtain ⟨_, _, _, _, hlast, -⟩ :=
          h.bind_ok (tidy_descend (tidy_warn _ _)) fun _ => tidy_pure _
        exact .inl hlast.pure_ok.1
      · exact .inl h.pure_ok.1
  · exact .inl h.pure_ok.1

theorem integer_ok (h : integer.Gives c (.ok shape) added) :
    shape = if c.draft.integersAreExact then .scalar .int
      else .union [.scalar .int, .scalar .number] := by
  have hlast := h.inspect_ok (fun _ => rfl) fun exact => by
    cases exact with
    | true => exact tidy_pure _
    | false => exact tidy_pure _
  split at hlast
  · next hexact =>
    rw [if_pos hexact]
    exact hlast.pure_ok.1
  · next hexact =>
    rw [if_neg hexact]
    exact hlast.pure_ok.1

theorem eachName_ok {types : List String} {shapes : List Shape} (tidy : TidyInners schema inner)
    (h : (eachName inner schema outer types).Gives c (.ok shapes) added) :
    List.Forall₂ (fun type shape => ∃ reported,
      (named inner type schema outer).Gives c (.ok shape) reported ∧ reported ⊆ added)
      types shapes := by
  induction types generalizing shapes added with
  | nil =>
    obtain ⟨rfl, -⟩ := h.pure_ok
    exact .nil
  | cons type rest ih =>
    obtain ⟨first, before, after, hfirst, hthen, rfl⟩ := h.bind_ok (tidy_named type tidy)
      fun _ => tidy_bind (tidy_eachName rest tidy) fun _ => tidy_pure _
    obtain ⟨others, between, last, hothers, hlast, rfl⟩ := hthen.bind_ok (tidy_eachName rest tidy)
      fun _ => tidy_pure _
    obtain ⟨rfl, rfl⟩ := hlast.pure_ok
    refine .cons ⟨before, hfirst, List.subset_append_left ..⟩ ?_
    refine (ih hothers).imp fun _ _ hnamed => ?_
    obtain ⟨reported, hgives, hsub⟩ := hnamed
    refine ⟨reported, hgives, ?_⟩
    rw [List.append_nil]
    exact List.Subset.trans hsub (List.subset_append_right ..)

theorem listed_ok {types : List String} (tidy : TidyInners schema inner)
    (h : (listed inner types schema outer).Gives c (.ok shape) added) :
    (outer = true ∧ ∃ reported, (named inner "object" schema outer).Gives c (.ok shape) reported ∧
      reported ⊆ added) ∨
      ∃ shapes, shape = .union shapes ∧ List.Forall₂ (fun type shape => ∃ reported,
        (named inner type schema outer).Gives c (.ok shape) reported ∧ reported ⊆ added)
        types shapes := by
  have hfail : (fail fun c => .unsupportedRootType types c.location.text : Compile Shape).Tidy :=
    fun c => ⟨_, _, gives_fail fun _ => rfl⟩
  have hunion : (do return .union (← eachName inner schema outer types) : Compile Shape).Tidy :=
    tidy_bind (tidy_eachName types tidy) fun _ => tidy_pure _
  have hthen := h.inspect_ok (fun _ => rfl) fun top => by
    split
    · split
      · exact tidy_bind (tidy_warn _ _) fun _ => tidy_named "object" tidy
      · exact hfail
    · exact hunion
  split at hthen
  · next htop =>
    split at hthen
    · obtain ⟨reported, hnamed, rfl⟩ := hthen.warn_then_ok (tidy_named "object" tidy)
      exact .inl ⟨(Bool.and_eq_true_iff.mp htop).1, reported, hnamed, List.subset_cons_self ..⟩
    · cases (hthen.unique (gives_fail fun _ => rfl)).1
  · obtain ⟨shapes, before, after, hshapes, hlast, rfl⟩ :=
      hthen.bind_ok (tidy_eachName types tidy) fun _ => tidy_pure _
    obtain ⟨rfl, rfl⟩ := hlast.pure_ok
    rw [List.append_nil]
    exact .inr ⟨shapes, rfl, eachName_ok tidy hshapes⟩

/-- Where the keywords of a node at `c` are compiled. -/
def Inside (schema : Members) (c place : Compiler) : Prop :=
  match c.draft.idOf? schema with
  | none => place = c
  | some id => ∃ resolver, c.resolver.enterId id = .ok resolver ∧ place = c.within resolver

theorem Inside.draft_eq {place : Compiler} (h : Inside schema c place) : place.draft = c.draft := by
  rw [Inside] at h
  split at h
  · rw [h]
  · obtain ⟨resolver, -, rfl⟩ := h
    rfl

theorem Inside.unique {place place' : Compiler} (h : Inside schema c place)
    (h' : Inside schema c place') : place = place' := by
  rw [Inside] at h h'
  cases hid : c.draft.idOf? schema with
  | none =>
    rw [hid] at h h'
    exact h.trans h'.symm
  | some id =>
    rw [hid] at h h'
    obtain ⟨resolver, henter, rfl⟩ := h
    obtain ⟨resolver', henter', rfl⟩ := h'
    rw [henter] at henter'
    cases henter'
    rfl

theorem gives_shape {place : Compiler} {result : Except Failure Shape}
    (hinside : Inside schema c place)
    (h : (members follow inner schema outer).Gives place result added) :
    (Node.shape follow inner (.object schema) outer).Gives c result added := by
  have hinspect := gives_inspect (c := c) (f := fun c => c.draft.idOf? schema) fun _ => rfl
  have hnext : (match c.draft.idOf? schema with
      | none => members follow inner schema outer
      | some id => inScope id (members follow inner schema outer)).Gives c result added := by
    rw [Inside] at hinside
    cases hid : c.draft.idOf? schema with
    | none =>
      rw [hid] at hinside
      have hplace : place = c := hinside
      rw [← hplace]
      exact h
    | some id =>
      rw [hid] at hinside
      obtain ⟨resolver, henter, rfl⟩ := hinside
      exact gives_inScope henter h
  exact gives_bind hinspect hnext

theorem shape_ok (tidy : (members follow inner schema outer).Tidy)
    (h : (Node.shape follow inner (.object schema) outer).Gives c (.ok shape) added) :
    ∃ place, Inside schema c place ∧
      (members follow inner schema outer).Gives place (.ok shape) added := by
  simp only [Node.shape] at h
  have hthen := h.inspect_ok (fun _ => rfl) fun id => by
    cases id with
    | none => exact tidy
    | some id => exact tidy_inScope tidy
  split at hthen
  · next hid =>
    refine ⟨c, ?_, hthen⟩
    rw [Inside, hid]
  · next id hid =>
    obtain ⟨resolver, henter, hmembers⟩ := hthen.inScope_ok tidy
    refine ⟨c.within resolver, ?_, hmembers⟩
    rw [Inside, hid]
    exact ⟨resolver, henter, rfl⟩

end Node

/-! ## Whole schemas -/

namespace Compile

theorem tidy_nested (depth height : Nat) (schema : Json) (outer : Bool)
    (h : schema.height ≤ height) : (nested (followUpTo depth) height schema outer).Tidy :=
  tidy_of_same fun _ => same_lawful.nested _ _ h h trivial (fun _ _ => rfl) rfl
    (same_lawful.references (.inl rfl)) rfl

/-- A compile comes to an end everywhere. -/
theorem tidy_upTo (depth : Nat) (schema : Json) (outer : Bool) :
    (upTo depth schema outer).Tidy :=
  tidy_of_same fun _ => same_lawful.upTo depth trivial rfl rfl rfl

theorem tidyInners_nested {depth height : Nat} {schema : Members}
    (h : (Json.object schema).height ≤ height + 1) :
    Node.TidyInners schema fun part => nested (followUpTo depth) height part false := by
  intro part hpart
  have hlt := hpart.height_lt
  exact tidy_nested depth height part false (by omega)

theorem Gives.members_ok {depth height : Nat} {schema : Members} {outer : Bool}
    {c : Compiler} {shape : Shape} {added : List Diagnostic}
    (hheight : (Json.object schema).height ≤ height + 1)
    (h : (nested (followUpTo depth) (height + 1) (.object schema) outer).Gives c (.ok shape) added) :
    ∃ place, Node.Inside schema c place ∧
      (Node.members (followUpTo depth) (fun part => nested (followUpTo depth) height part false)
        schema outer).Gives place (.ok shape) added :=
  Node.shape_ok (Node.tidy_members depth (tidyInners_nested hheight)) h

/-- A reference that gives a shape resolves and is not refused, and its target gives that shape. -/
theorem Gives.followUpTo_ok {depth : Nat} {target : String} {outer : Bool} {c : Compiler}
    {shape : Shape} {added : List Diagnostic}
    (h : (followUpTo depth target outer).Gives c (.ok shape) added) :
    ∃ rest url node, depth = rest + 1 ∧ c.resolver.resolve target = .ok (url, node) ∧
      c.refuses url = false ∧ (upTo rest node outer).Gives
        (c.atTarget url (targetLocation c.resolver url)) (.ok shape) added := by
  cases depth with
  | zero => cases (h.unique (gives_refuse target c)).1
  | succ rest =>
    have hfollow : (followTo (upTo rest) target outer).Gives c (.ok shape) added := h
    cases hresolve : c.resolver.resolve target with
    | error e => cases (hfollow.unique (gives_followTo_error hresolve)).1
    | ok found =>
      obtain ⟨url, node⟩ := found
      cases hrefused : c.refuses url with
      | true => cases (hfollow.unique (gives_followTo_refused hresolve hrefused)).1
      | false =>
        obtain ⟨result, reported, htarget⟩ :=
          tidy_upTo rest node outer (c.atTarget url (targetLocation c.resolver url))
        obtain ⟨rfl, rfl⟩ := hfollow.unique (gives_followTo hresolve hrefused htarget)
        exact ⟨rest, url, node, rfl, rfl, hrefused, htarget⟩

end Compile

end SchemaShape
