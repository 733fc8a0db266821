import SchemaShape.Proofs.Compiler.Success
import SchemaShape.Proofs.Shape

/-! # How shapes are made

`Made outerName added origin names outer shape` says how a compile comes to a shape behind these property
names, at the root position if `outer`, while it reports these diagnostics. To follow a reference changes
none of them, so at the end of a chain of references a shape is made as it would be where the chain
starts. A compile that succeeds has made its shape, and what holds of all shapes made is proved by
induction on how they are made.
-/

namespace SchemaShape
set_option autoImplicit false

open Compile

/-- A shape is what the rule of a type gives, or what a whole node gives. -/
inductive Origin where
  | rule
  | node

inductive Made (outerName : String) (added : List Diagnostic) :
    Origin → List String → Bool → Shape → Prop where
  | flat {names : List String} {outer : Bool} {shape : Shape} (h : shape.isFlat = true) :
      Made outerName added .rule names outer shape
  | record {names : List String} {outer : Bool} {fields : List (Field Shape)}
      (hkeys : ∀ field ∈ fields, field.key ∉ Node.reservedNames)
      (hsome : ∀ field ∈ fields, field.shape.isNothing = false)
      (h : ∀ field ∈ fields, Made outerName added .node (names ++ [field.key]) false field.shape) :
      Made outerName added .rule names outer
        (.record (outerName ++ String.join (names.map Name.ofTitle)) outer fields)
  | list {names : List String} {outer : Bool} {element : Shape}
      (h : Made outerName added .node names false element) :
      Made outerName added .rule names outer (.list element.orAny)
  | tuple {names : List String} {outer : Bool} {elements : List Shape}
      (h : ∀ element ∈ elements, Made outerName added .node names false element) :
      Made outerName added .rule names outer (.tuple (elements.map Shape.orAny))
  | typed {names : List String} {outer : Bool} {shape : Shape}
      (h : Made outerName added .rule names outer shape) : Made outerName added .node names outer shape
  | types {names : List String} {outer : Bool} {members : List Shape}
      (h : ∀ member ∈ members, Made outerName added .rule names outer member) :
      Made outerName added .node names outer (.union members)
  | branches {names : List String} {outer : Bool} {members : List Shape}
      (h : ∀ member ∈ members, Made outerName added .node names false member) :
      Made outerName added .node names outer (.union (members.filter (!·.isNothing)))
  | itself {names : List String} {outer : Bool} {entry : Diagnostic} (mem : entry ∈ added)
      (hkind : entry.kind = .selfReference) :
      Made outerName added .node names outer (.record outerName true [])
  | nothing {names : List String} {outer : Bool} {entry : Diagnostic} (mem : entry ∈ added)
      (hkind : entry.kind = .defaultUnsupported) : Made outerName added .node names outer .nothing

variable {outerName : String} {added : List Diagnostic}

theorem Made.mono {origin : Origin} {names : List String} {outer : Bool} {shape : Shape}
    {added' : List Diagnostic} (h : Made outerName added origin names outer shape)
    (hsub : added ⊆ added') : Made outerName added' origin names outer shape := by
  induction h with
  | flat h => exact .flat h
  | record hkeys hsome _ ih => exact .record hkeys hsome ih
  | list _ ih => exact .list ih
  | tuple _ ih => exact .tuple ih
  | typed _ ih => exact .typed ih
  | types _ ih => exact .types ih
  | branches _ ih => exact .branches ih
  | itself mem hkind => exact .itself (hsub mem) hkind
  | nothing mem hkind => exact .nothing (hsub mem) hkind

/-- Wherever the action runs and succeeds, it makes its shape. -/
def Compile.Makes (action : Compile Shape) (outer : Bool) : Prop :=
  ∀ c shape added, action.Gives c (.ok shape) added →
    Made c.outerName added .node c.names outer shape

namespace Node

variable {inner : Inner} {follow : Follow} {schema : Members} {outer : Bool}
variable {c : Compiler} {shape : Shape}

/-- The schemas inside one make their shapes. -/
def MakesInners (schema : Members) (inner : Inner) : Prop :=
  ∀ part, Subschema schema part → (inner part).Makes false

/-! ## Rules of types -/

theorem flat_enumeration {values : Json} (h : (enumeration values).Gives c (.ok shape) added) :
    shape.isFlat = true := by
  obtain ⟨items, members, -, rfl, hmembers⟩ := enumeration_ok h
  refine List.all_eq_true.mpr fun member mem => ?_
  obtain ⟨item, -, ⟨l, -, rfl⟩ | ⟨-, rfl⟩⟩ := exists_of_forall₂ hmembers.flip mem
  · rfl
  · rfl

theorem flat_integer (h : integer.Gives c (.ok shape) added) : shape.isFlat = true := by
  rw [integer_ok h]
  split
  · rfl
  · rfl

theorem flat_boolean (h : (boolean schema).Gives c (.ok shape) added) : shape.isFlat = true := by
  rcases boolean_ok h with rfl | ⟨properties, value, -, -, ⟨l, -, rfl⟩ | rfl⟩
  · rfl
  · rfl
  · rfl

theorem made_below {part : Json} (hpart : (inner part).Makes false)
    (h : (inner part).YieldsBelow c added shape) :
    Made c.outerName added .node c.names false shape := by
  obtain ⟨tokens, reported, hgives, hsub⟩ := h
  exact (hpart (c.below tokens) shape reported hgives).mono hsub

theorem made_object (tidy : TidyInners schema inner) (hinner : MakesInners schema inner)
    (h : (object inner schema outer).Gives c (.ok shape) added) :
    Made c.outerName added .rule c.names outer shape := by
  rcases object_ok tidy h with ⟨-, rfl⟩ | ⟨properties, fields, hget, rfl, hfields⟩
  · exact .flat rfl
  · refine .record ?_ ?_ ?_
    · intro field mem
      obtain ⟨value, reported, -, -, -, -, hkey, -⟩ := hfields field mem
      exact hkey
    · intro field mem
      obtain ⟨value, reported, -, -, -, -, -, hsome⟩ := hfields field mem
      exact hsome
    · intro field mem
      obtain ⟨value, reported, hvalue, -, hgives, hsub, -⟩ := hfields field mem
      exact (hinner value (.property hget hvalue) _ _ _ hgives).mono hsub

theorem made_array (tidy : TidyInners schema inner) (hinner : MakesInners schema inner)
    (h : (array inner schema).Gives c (.ok shape) added) :
    Made c.outerName added .rule c.names outer shape := by
  rcases array_ok tidy h with rfl | ⟨items, elements, hget, rfl, -, helements⟩ |
    ⟨item, element, hget, -, rfl, helement⟩
  · exact .flat rfl
  · refine .tuple fun element mem => ?_
    obtain ⟨item, hitem, helement⟩ := exists_of_forall₂ helements.flip mem
    exact made_below (hinner item (.position hget hitem)) helement
  · exact .list (made_below (hinner item (.items hget)) helement)

theorem made_typed {type : TypeName} (tidy : TidyInners schema inner)
    (hinner : MakesInners schema inner)
    (h : (typed inner type schema outer).Gives c (.ok shape) added) :
    Made c.outerName added .rule c.names outer shape := by
  cases type with
  | object => exact made_object tidy hinner h
  | array => exact made_array tidy hinner h
  | boolean => exact .flat (flat_boolean h)
  | integer => exact .flat (flat_integer h)
  | string | number | null | any =>
    obtain ⟨rfl, -⟩ := h.pure_ok
    exact .flat rfl

theorem made_named {type : String} (tidy : TidyInners schema inner)
    (hinner : MakesInners schema inner)
    (h : (named inner type schema outer).Gives c (.ok shape) added) :
    Made c.outerName added .rule c.names outer shape := by
  simp only [named] at h
  split at h
  · exact .flat (flat_enumeration h)
  · split at h
    · exact made_typed tidy hinner h
    · obtain ⟨_, hlast, -⟩ := h.warn_then_ok (tidy_pure _)
      obtain ⟨rfl, -⟩ := hlast.pure_ok
      exact .flat rfl

/-! ## Nodes -/

theorem made_listed {types : List String} (tidy : TidyInners schema inner)
    (hinner : MakesInners schema inner)
    (h : (listed inner types schema outer).Gives c (.ok shape) added) :
    Made c.outerName added .node c.names outer shape := by
  rcases listed_ok tidy h with ⟨-, reported, hnamed, hsub⟩ | ⟨shapes, rfl, hshapes⟩
  · exact (Made.typed (made_named tidy hinner hnamed)).mono hsub
  · refine .types fun member mem => ?_
    obtain ⟨type, -, reported, hnamed, hsub⟩ := exists_of_forall₂ hshapes.flip mem
    exact (made_named tidy hinner hnamed).mono hsub

theorem made_anyOf {keyword : String} {branches : Json} (hkeyword : keyword ∈ branchKeywords)
    (hget : schema.get? keyword = some branches) (tidy : TidyInners schema inner)
    (hinner : MakesInners schema inner)
    (h : (anyOf inner keyword branches).Gives c (.ok shape) added) :
    Made c.outerName added .node c.names outer shape := by
  obtain ⟨items, members, rfl, rfl, hmembers⟩ := anyOf_ok hkeyword hget tidy h
  refine .branches fun member mem => ?_
  obtain ⟨item, hitem, hmember⟩ := exists_of_forall₂ hmembers.flip mem
  exact made_below (hinner item (.branch hkeyword hget hitem)) hmember

theorem made_reference {target : String} (hfollow : (follow target outer).Makes outer)
    (h : (reference follow target outer).Gives c (.ok shape) added) :
    Made c.outerName added .node c.names outer shape := by
  simp only [reference] at h
  split at h
  · obtain ⟨_, hthen, rfl⟩ := h.warn_then_ok
      (tidy_bind (fun c => ⟨_, _, gives_inspect (c := c) fun _ => rfl⟩) fun _ => tidy_pure _)
    obtain ⟨rfl, -⟩ := (hthen.inspect_ok (fun _ => rfl) fun _ => tidy_pure _).pure_ok
    exact .itself (List.mem_cons_self ..) rfl
  · exact hfollow c shape added h

theorem made_untyped (hfollow : ∀ target, (follow target outer).Makes outer)
    (tidy : TidyInners schema inner) (hinner : MakesInners schema inner)
    (h : (untyped follow inner schema outer).Gives c (.ok shape) added) :
    Made c.outerName added .node c.names outer shape := by
  simp only [untyped] at h
  split at h
  · next target _ => exact made_reference (hfollow target) h
  · exact h.malformed_ok.elim
  · split at h
    · next hget =>
      obtain ⟨_, hunion, rfl⟩ := h.warn_then_ok (tidy_anyOf (by decide) hget tidy)
      exact (made_anyOf (by decide) hget tidy hinner hunion).mono (List.subset_cons_self ..)
    · next hget => exact made_anyOf (by decide) hget tidy hinner h
    · next hget =>
      obtain ⟨_, hunion, rfl⟩ := h.warn_then_ok (tidy_anyOf (by decide) hget tidy)
      exact (made_anyOf (by decide) hget tidy hinner hunion).mono (List.subset_cons_self ..)
    · exact .typed (.flat (flat_enumeration h))
    · split at h
      · obtain ⟨_, hlast, rfl⟩ := h.warn_then_ok (tidy_pure _)
        obtain ⟨rfl, -⟩ := hlast.pure_ok
        exact .nothing (List.mem_cons_self ..) rfl
      · obtain ⟨_, hlast, -⟩ := h.warn_then_ok (tidy_pure _)
        obtain ⟨rfl, -⟩ := hlast.pure_ok
        exact .typed (.flat rfl)

theorem made_members (hfollow : ∀ target, (follow target outer).Makes outer)
    (tidy : TidyInners schema inner) (hinner : MakesInners schema inner)
    (h : (members follow inner schema outer).Gives c (.ok shape) added) :
    Made c.outerName added .node c.names outer shape := by
  simp only [members] at h
  split at h
  · exact .typed (made_named tidy hinner h)
  · split at h
    · exact made_listed tidy hinner h
    · exact h.malformed_ok.elim
  · exact h.malformed_ok.elim
  · exact made_untyped hfollow tidy hinner h

theorem Inside.names_eq {place : Compiler} (h : Inside schema c place) :
    place.outerName = c.outerName ∧ place.names = c.names := by
  rw [Inside] at h
  split at h
  · rw [h]
    exact ⟨rfl, rfl⟩
  · obtain ⟨resolver, -, rfl⟩ := h
    exact ⟨rfl, rfl⟩

/-- A record has the name of the place, and is outer if the position is the root. -/
def NamedBy (c : Compiler) (outer : Bool) : Shape → Prop
  | .record name flag _ => name = c.recordName ∧ flag = outer
  | _ => True

end Node

/-! ## Whole schemas -/

theorem Made.namedBy {c : Compiler} {shape : Shape} (hnames : c.names = [])
    (h : Made c.outerName added .node c.names true shape) : Node.NamedBy c true shape := by
  cases shape with
  | record name flag fields =>
    cases h with
    | typed h =>
      cases h with
      | flat h => cases h
      | record => exact ⟨rfl, rfl⟩
    | itself =>
      refine ⟨?_, rfl⟩
      rw [Compiler.recordName, hnames]
      exact String.append_empty.symm
  | _ => trivial

namespace Compile

theorem makes_nested {depth height : Nat} {schema : Json} {outer : Bool}
    (hfollow : ∀ target outer, (followUpTo depth target outer).Makes outer)
    (hheight : schema.height ≤ height) :
    (nested (followUpTo depth) height schema outer).Makes outer := by
  induction height generalizing schema outer with
  | zero => exact absurd hheight (Nat.not_le.mpr schema.height_pos)
  | succ height ih =>
    intro c shape added h
    cases schema with
    | object schema =>
      obtain ⟨place, hinside, hmembers⟩ := h.members_ok hheight
      obtain ⟨houter, hnames⟩ := hinside.names_eq
      rw [← houter, ← hnames]
      refine Node.made_members (fun target => hfollow target outer) (tidyInners_nested hheight)
        (fun part hpart => ih ?_) hmembers
      have hlt := hpart.height_lt
      omega
    | bool admitted =>
      cases admitted with
      | true =>
        obtain ⟨rfl, -⟩ := h.pure_ok
        exact .typed (.flat rfl)
      | false => exact h.unsupported_ok.elim
    | _ => exact h.malformed_ok.elim

theorem makes_followUpTo (depth : Nat) (target : String) (outer : Bool) :
    (followUpTo depth target outer).Makes outer := by
  induction depth generalizing target outer with
  | zero =>
    intro c shape added h
    obtain ⟨rest, _, _, hdepth, -⟩ := h.followUpTo_ok
    cases hdepth
  | succ depth ih =>
    intro c shape added h
    obtain ⟨rest, url, node, hdepth, -, -, htarget⟩ := h.followUpTo_ok
    obtain rfl := Nat.succ.inj hdepth
    rw [upTo_eq] at htarget
    -- The target is compiled behind the same names.
    exact makes_nested ih (Nat.le_refl _) (c.atTarget url _) shape added htarget

theorem makes_upTo (depth : Nat) (schema : Json) (outer : Bool) :
    (upTo depth schema outer).Makes outer := by
  rw [upTo_eq]
  exact makes_nested (makes_followUpTo depth) (Nat.le_refl _)

end Compile

end SchemaShape
