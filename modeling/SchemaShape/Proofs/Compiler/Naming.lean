import SchemaShape.Proofs.Compiler.Limits
import SchemaShape.Proofs.Compiler.Making

/-! # The names of records

A record is named by the keys of the fields that lead to it, behind the outer name. Hops through unions,
lists, tuples and mappings add nothing to a name, and neither do the references on the way. The records
that stand for the document itself have the outer name wherever they are. Only they are outer strictly
inside a shape, apart from members of a union at the root.
-/

namespace SchemaShape
set_option autoImplicit false

open Compile

/-- What a reference to the document itself becomes, which is reported. -/
structure StandsForItself (outerName : String) (added : List Diagnostic) (name : String) (flag : Bool)
    (fields : List (Field Shape)) : Prop where
  name_eq : name = outerName
  outer : flag = true
  empty : fields = []
  reported : ∃ entry ∈ added, entry.kind = .selfReference

/-- A record at the end of a path is named by the keys on the path, behind the names of the place. It is
outer where a node is made at the root position: all of its shape, or one in a list of types. -/
def NamedAlong (outerName : String) (added : List Diagnostic) (origin : Origin) (names : List String)
    (outer : Bool) (path : List Hop) (name : String) (flag : Bool) (fields : List (Field Shape)) : Prop :=
  name = outerName ++ String.join ((names ++ Hop.keys path).map Name.ofTitle) ∧
      (flag = true → outer = true ∧ (path = [] ∨ origin = .node ∧ path = [.member])) ∨
    StandsForItself outerName added name flag fields

section

variable {outerName : String} {added : List Diagnostic} {origin origin' : Origin}
variable {names names' : List String} {outer : Bool} {path rest : List Hop}
variable {name : String} {flag : Bool} {fields : List (Field Shape)}

theorem NamedAlong.further (h : NamedAlong outerName added origin names false rest name flag fields)
    (hkeys : names ++ Hop.keys rest = names' ++ Hop.keys path) :
    NamedAlong outerName added origin' names' outer path name flag fields := by
  refine h.imp_left fun ⟨hname, houter⟩ => ⟨hkeys ▸ hname, fun hflag => ?_⟩
  cases (houter hflag).1

theorem Made.named {shape : Shape} (h : Made outerName added origin names outer shape)
    (hat : shape.At path (.record name flag fields)) :
    NamedAlong outerName added origin names outer path name flag fields := by
  induction h generalizing path with
  | flat h => cases hat.flat h
  | @record names outer parts _ _ _ ih =>
    cases hat with
    | here =>
      refine .inl ⟨?_, fun hflag => ⟨hflag, .inl rfl⟩⟩
      rw [Hop.keys, List.filterMap_nil, List.append_nil]
    | inside hpart hrest =>
      cases hpart with
      | field mem => exact (ih _ mem hrest).further (List.append_assoc ..)
  | list _ ih =>
    cases hat with
    | inside hpart hrest =>
      cases hpart with
      | element => exact (ih hrest.of_orAny).further rfl
  | tuple _ ih =>
    cases hat with
    | inside hpart hrest =>
      cases hpart with
      | position mem =>
        obtain ⟨element, helement, rfl⟩ := List.mem_map.mp mem
        exact (ih element helement hrest.of_orAny).further rfl
  | typed _ ih =>
    refine (ih hat).imp_left fun ⟨hname, houter⟩ => ⟨hname, fun hflag => ?_⟩
    obtain ⟨hroot, hempty | ⟨horigin, -⟩⟩ := houter hflag
    · exact ⟨hroot, .inl hempty⟩
    · cases horigin
  | types _ ih =>
    cases hat with
    | inside hpart hrest =>
      cases hpart with
      | member mem =>
        refine (ih _ mem hrest).imp_left fun ⟨hname, houter⟩ => ⟨hname, fun hflag => ?_⟩
        obtain ⟨hroot, rfl | ⟨horigin, -⟩⟩ := houter hflag
        · exact ⟨hroot, .inr ⟨rfl, rfl⟩⟩
        · cases horigin
  | branches _ ih =>
    cases hat with
    | inside hpart hrest =>
      cases hpart with
      | member mem => exact (ih _ (List.mem_filter.mp mem).1 hrest).further rfl
  | itself mem hkind =>
    cases hat with
    | here => exact .inr ⟨rfl, rfl, rfl, _, mem, hkind⟩
    | inside hpart =>
      cases hpart with
      | field mem => cases mem
  | nothing =>
    cases hat with
    | inside hpart => cases hpart

end

theorem Compiler.made_of_new {resolver : Resolver} {draft : Draft} {outerName : String} {limit : Nat}
    {schema : Json} {outer : Bool} {shape : Shape}
    (hrun : ({ Compiler.new resolver draft outerName with maxRefDepth := limit }.compile schema
      outer).1 = .ok shape) :
    Made outerName
      ({ Compiler.new resolver draft outerName with maxRefDepth := limit }.compile schema
        outer).2.diagnostics .node [] outer shape := by
  generalize hc : ({ Compiler.new resolver draft outerName with maxRefDepth := limit } : Compiler) = c
    at hrun ⊢
  obtain ⟨result, added, hgives⟩ := tidy_upTo c.remaining schema outer c
  have hcompile : c.compile schema outer =
      (result, { c with diagnostics := c.diagnostics ++ added }) := hgives.run
  rw [hcompile] at hrun ⊢
  subst hrun hc
  exact makes_upTo _ schema outer _ shape added hgives

/-- In what a new compiler gives, a record has the outer name and behind it the names of the keys that
lead to it, and it is outer only at the root or as a member of a union there. The exceptions are the
records that stand for the document itself. -/
theorem Compiler.compile_names (resolver : Resolver) (draft : Draft) (outerName : String) (limit : Nat)
    {schema : Json} {outer : Bool} {shape : Shape} {path : List Hop} {name : String} {flag : Bool}
    {fields : List (Field Shape)}
    (hrun : ({ Compiler.new resolver draft outerName with maxRefDepth := limit }.compile schema
      outer).1 = .ok shape)
    (hat : shape.At path (.record name flag fields)) :
    name = outerName ++ String.join ((Hop.keys path).map Name.ofTitle) ∧
        (flag = true → outer = true ∧ (path = [] ∨ path = [.member])) ∨
      StandsForItself outerName
        ({ Compiler.new resolver draft outerName with maxRefDepth := limit }.compile schema
          outer).2.diagnostics name flag fields := by
  generalize hc : ({ Compiler.new resolver draft outerName with maxRefDepth := limit } : Compiler) = c
    at hrun ⊢
  obtain ⟨result, added, hgives⟩ := tidy_upTo c.remaining schema outer c
  have hcompile : c.compile schema outer =
      (result, { c with diagnostics := c.diagnostics ++ added }) := hgives.run
  rw [hcompile] at hrun ⊢
  subst hrun hc
  refine ((makes_upTo _ schema outer _ shape added hgives).named hat).imp_left
    fun ⟨hname, houter⟩ => ⟨hname, fun hflag => ?_⟩
  exact (houter hflag).imp_right fun hpath => hpath.imp_right fun hmember => hmember.2

/-- A person behind a reference, or null, with friends who know the document. -/
def personSchema : Json :=
  .object [("$ref", .string "#/definitions/person"),
    ("definitions", .object [("person", .object [("type", .array [.string "object", .string "null"]),
      ("properties", .object [("best friends", .object [("type", .string "array"),
        ("items", .object [("type", .string "object"), ("properties", .object [
          ("file", .object [("$ref", .string "#")])])])])])])])]

def personCompiler : Compiler :=
  let registry := Registry.empty.insert ⟨Document.defaultUrl, personSchema⟩
  { Compiler.new { registry, base := Document.defaultUrl } .draft07 "Person" with maxRefDepth := 32 }

def friendFields : List (Field Shape) := [⟨"file", false, .record "Person" true []⟩]

def personFields : List (Field Shape) :=
  [⟨"best friends", false, .list (.record "PersonBestFriends" false friendFields)⟩]

theorem compile_names_person :
    let run := personCompiler.compile personSchema true
    let shape := Shape.union [.record "Person" true personFields, .scalar .null]
    let path : List Hop := [.member, .field "best friends", .element]
    run.1 = .ok shape ∧ shape.At path (.record "PersonBestFriends" false friendFields) ∧
      ("PersonBestFriends" = "Person" ++ String.join ((Hop.keys path).map Name.ofTitle) ∧
          (false = true → true = true ∧ (path = [] ∨ path = [.member])) ∨
        StandsForItself "Person" run.2.diagnostics "PersonBestFriends" false friendFields) := by
  have hfriends : Shape.Part (.record "Person" true personFields) (.field "best friends")
      (.list (.record "PersonBestFriends" false friendFields)) := .field (List.mem_singleton_self _)
  have hat : (Shape.union [.record "Person" true personFields, .scalar .null]).At
      [.member, .field "best friends", .element] (.record "PersonBestFriends" false friendFields) :=
    .inside (.member (List.mem_cons_self ..)) (.inside hfriends (.inside (.element _) (.here _)))
  have hrun : (personCompiler.compile personSchema true).1 =
      .ok (.union [.record "Person" true personFields, .scalar .null]) := by
    decide +kernel
  exact ⟨hrun, hat, Compiler.compile_names _ .draft07 "Person" 32 hrun hat⟩

end SchemaShape
