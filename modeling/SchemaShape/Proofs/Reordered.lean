import SchemaShape.Proofs.Claims
import SchemaShape.Proofs.Compiler.Reordering
import SchemaShape.Proofs.Isolation
import SchemaShape.Proofs.Shape

/-! # Documents with their keys in another order

Compiled alone, a document without identifiers comes to the same in whatever order its keys are, as long
as properties keep theirs, which is the order of the fields.

Without identifiers a document is known under its own URL and nothing else. So a reference leads to the
same node on both sides up to the order of keys, and there the compiler goes on in step.
-/

namespace SchemaShape
set_option autoImplicit false

open Correspondence Compile

section

variable {url : Url} {whole whole' : Json} {c c' : Compiler}

/-! ## Lookups -/

theorem Document.denoted?_anonymous (h : whole.Anonymous) (key : String) :
    denoted? ⟨url, whole⟩ key = if key = url.withoutFragment.text then some [] else none := by
  have hclaims : claims ⟨url, whole⟩ = [] := by
    rw [List.eq_nil_iff_forall_not_mem]
    intro claim mem
    obtain ⟨node, hclaims⟩ := (mem_claims h.keys).mp mem
    have hnode := h.within (Json.within_at? hclaims.at?_eq)
    obtain ⟨_, _, -, hreads⟩ := hclaims
    generalize hclaimed : some claim.key = claimed at hreads
    cases hreads with
    | anonymous | unjoined => cases hclaimed
    | anchor hid | url hid =>
      rw [hnode.idOf?_eq] at hid
      cases hid
  rw [denoted?, claimed?, hclaims]
  rfl

/-- At the same place in a document alone, and in the one with its keys in another order. -/
structure Reorders (url : Url) (whole whole' : Json) (c c' : Compiler) : Prop where
  registry : c.resolver.registry = Registry.empty.insert ⟨url, whole⟩
  reordered : c' = { c with resolver := { c.resolver with
    registry := Registry.empty.insert ⟨url, whole'⟩ } }

theorem reorders_rules : (sameKind (Reorders url whole whole')).Rules := by
  refine rules_of_equal rfl rfl ?_ ?_ ?_ ?_ ?_ ?_ ?_
  · rintro c _ ⟨-, rfl⟩
    exact ⟨rfl, rfl, rfl⟩
  · rintro c _ tokens ⟨hregistry, rfl⟩
    exact ⟨hregistry, rfl⟩
  · rintro c _ key ⟨hregistry, rfl⟩
    exact ⟨hregistry, rfl⟩
  · rintro c _ kind message ⟨-, rfl⟩
    rfl
  · exact fun _ _ => rfl
  · exact fun _ _ => rfl
  · exact fun _ _ => rfl

variable (h : Json.Reordering false whole whole') (hwhole : whole.Anonymous)

include h hwhole

theorem get?_reordering (key : String) :
    Option.Rel (fun node node' => Json.Reordering false node node' ∧ node.Anonymous)
      ((Registry.empty.insert ⟨url, whole⟩).get? key)
      ((Registry.empty.insert ⟨url, whole'⟩).get? key) := by
  rw [Registry.get?_denoted, Registry.get?_denoted, Document.denoted?_anonymous hwhole,
    Document.denoted?_anonymous (h.anonymous hwhole)]
  split
  · exact .some ⟨h, hwhole⟩
  · exact .none

variable (hc : Reorders url whole whole' c c')

include hc

theorem Reorders.target (target : Url) :
    (∃ node node', c.resolver.target target = .ok node ∧ c'.resolver.target target = .ok node' ∧
        Json.Reordering false node node' ∧ node.Anonymous) ∨
      ∃ reason, c.resolver.target target = .error reason ∧
        c'.resolver.target target = .error reason := by
  obtain ⟨hregistry, rfl⟩ := hc
  refine Resolver.target_rel rfl ?_ fun fragment root root' _ hroot => ?_
  · rw [hregistry]
    exact get?_reordering h hwhole _
  · rw [Resolver.fragmentTarget?, Resolver.fragmentTarget?]
    split
    · exact .some hroot
    · rw [Json.pointer?, Json.pointer?]
      cases Pointer.ofText? (String.ofList fragment) with
      | none => exact .none
      | some pointer => exact hroot.1.at? hroot.2 pointer
    · rw [hregistry]
      exact get?_reordering h hwhole _

theorem Reorders.atTarget (target : Url) :
    Reorders url whole whole' (c.atTarget target (targetLocation c.resolver target))
      (c'.atTarget target (targetLocation c'.resolver target)) := by
  have hdenoted (key : String) : Document.denoted? ⟨url, whole'⟩ key =
      Document.denoted? ⟨url, whole⟩ key := by
    rw [Document.denoted?_anonymous hwhole, Document.denoted?_anonymous (h.anonymous hwhole)]
  have hresolver : c'.resolver = { c.resolver with
      registry := Registry.empty.insert ⟨url, whole'⟩ } := by rw [hc.reordered]
  have hanchor := Resolver.locateAnchor?_of_denoted hc.registry hresolver hdenoted target
  refine ⟨hc.registry, ?_⟩
  rw [targetLocation, targetLocation, ← hanchor, hc.reordered]
  rfl

omit hc

/-- Both sides follow their references in step. -/
theorem reorders_references (depth : Nat) : (sameKind (Reorders url whole whole')).References
    (followUpTo depth) (followUpTo depth) := by
  induction depth with
  | zero =>
    intro _ reference _ _ _ c c' _ _ hc _
    exact matches_ends (gives_refuse reference c) (gives_refuse reference c') (.failure rfl) .nil
  | succ depth ih =>
    intro _ reference _ _ _ c c' outer _ hc hflags
    cases hflags
    have hscope : c'.resolver.scope = c.resolver.scope := by
      rw [hc.reordered]
      rfl
    have hfails {reason reason' : String}
        (hresolve : c.resolver.resolve reference =
          .error (.refResolution reference c.resolver.scope.text reason))
        (hresolve' : c'.resolver.resolve reference =
          .error (.refResolution reference c'.resolver.scope.text reason')) :
        (sameKind (Reorders url whole whole')).Matches Eq (followUpTo (depth + 1) reference outer)
          (followUpTo (depth + 1) reference outer) c c' :=
      matches_ends (gives_followTo_error hresolve) (gives_followTo_error hresolve') (.failure rfl) .nil
    cases hjoin : c.resolver.scope.join reference with
    | error e =>
      have hjoin' : c'.resolver.scope.join reference = .error e := hscope ▸ hjoin
      exact hfails (Resolver.resolve_of_no_join hjoin) (Resolver.resolve_of_no_join hjoin')
    | ok target =>
      have hjoin' : c'.resolver.scope.join reference = .ok target := hscope ▸ hjoin
      rcases hc.target h hwhole target with
        ⟨node, node', hfound, hfound', hnode, hanonymous⟩ | ⟨reason, hfound, hfound'⟩
      · refine matches_followTo (Resolver.resolve_of_target hjoin hfound)
          (Resolver.resolve_of_target hjoin' hfound') ?_ rfl fun _ => ?_
        · rw [hc.reordered]
          rfl
        · refine upTo_reordering reorders_rules hnode hanonymous ?_ ih (hc.atTarget h hwhole target)
          simp only [SameRoot, Compiler.atTarget, List.isEmpty_cons, Bool.and_false]
      · exact hfails (Resolver.resolve_of_no_target hjoin hfound)
          (Resolver.resolve_of_no_target hjoin' hfound')

end

/-! ## Sessions -/

namespace Session

variable {url : Url} {document document' : Json}

theorem compile_reordering (options : Options) (hdocument : document.Anonymous)
    (h : Json.Reordering false document document') :
    let compile (schema : Json) := (ofDocuments [⟨url, schema⟩]).compile url [] options
    (compile document).mapError Failure.kind = (compile document').mapError Failure.kind := by
  intro compile
  generalize hcompiler : (ofDocuments [⟨url, document⟩]).compilerFor url.withoutFragment document
    document false options = c
  generalize hcompiler' : (ofDocuments [⟨url, document'⟩]).compilerFor url.withoutFragment document'
    document' false options = c'
  have hc : Reorders url document document' c c' := by
    subst hcompiler
    subst hcompiler'
    refine ⟨rfl, ?_⟩
    simp only [compilerFor, Draft.detectIn, Name.ofSchema, h.text_eq hdocument]
    rfl
  have hremaining : c'.remaining = c.remaining := by
    rw [hc.reordered]
    rfl
  have hroot : SameRoot c c' true true := by
    rw [hc.reordered]
    rfl
  have hends := upTo_reordering reorders_rules h hdocument hroot
    (reorders_references h hdocument c.remaining) hc
  rcases hends with
    ⟨result, added, result', added', hgives, hgives', houtcomes, hadded⟩ | ⟨_, _, _, hcut, -⟩
  · show ((ofDocuments [⟨url, document⟩]).compile url [] options).mapError _ =
      ((ofDocuments [⟨url, document'⟩]).compile url [] options).mapError _
    rw [compile_of_gives (get?_alone ⟨url, document⟩) rfl hcompiler hgives,
      compile_of_gives (get?_alone ⟨url, document'⟩) rfl hcompiler' (hremaining ▸ hgives')]
    obtain rfl : added = added' := List.forall₂_eq_eq_eq ▸ hadded
    cases houtcomes with
    | value heq =>
      rw [heq, hc.reordered]
      rfl
    | failure heq => exact congrArg Except.error heq
  · exact hcut.elim

/-- In whatever order the keys of a document are, it compiles to the same or fails alike, if it has no
identifiers and properties keep their order. -/
theorem compile_reordered (options : Options)
    (hkeys : document.everyObject Members.distinct = true)
    (hanonymous : document.everyObject Members.anonymous = true)
    (h : Json.Reordered document document') :
    let compile (schema : Json) := (ofDocuments [⟨url, schema⟩]).compile url [] options
    (compile document).mapError Failure.kind = (compile document').mapError Failure.kind := by
  intro compile
  have hdocument : document.Anonymous := ⟨hkeys, hanonymous⟩
  induction h with
  | refl => rfl
  | tail hfirst hlast ih =>
    exact ih.trans (compile_reordering options (Json.Reordered.anonymous hfirst hdocument) hlast)

end Session

/-- A document with a definition that a property refers to. -/
def sizedMembers (size : Members) : Members :=
  [("type", .string "object"),
    ("properties", .object [("size", .object [("$ref", .string "#/definitions/size")]),
      ("name", .object [("type", .string "string")])]),
    ("definitions", .object [("size", .object size)])]

theorem compile_reordered_sized :
    let url := Url.ofFilePath "/sized.json"
    let size : Members := [("type", .string "boolean"), ("description", .string "whether it is large")]
    let document : Json := .object (sizedMembers size)
    let document' : Json := .object (sizedMembers size.reverse).reverse
    let compile (schema : Json) := (Session.ofDocuments [⟨url, schema⟩]).compile url [] {}
    document.everyObject Members.distinct = true ∧ document.everyObject Members.anonymous = true ∧
      Json.Reordered document document' ∧
      (compile document).toOption.map (·.root) = some (.record "JSONSchema" true
        [⟨"size", false, .scalar .bool⟩, ⟨"name", false, .scalar .string⟩]) ∧
      (compile document).mapError Failure.kind = (compile document').mapError Failure.kind := by
  intro url size document document' compile
  have hkeys : document.everyObject Members.distinct = true := by decide +kernel
  have hanonymous : document.everyObject Members.anonymous = true := by decide +kernel
  have hinside : Json.Reordering false document (.object (sizedMembers size.reverse)) :=
    @Json.Reordering.member _ [_, _] [] "definitions" _ _
      (@Json.Reordering.member _ [] [] "size" _ _ (.here (List.reverse_perm size).symm))
  have hreordered : Json.Reordered document document' :=
    .tail (.single hinside) (.here (List.reverse_perm _).symm)
  exact ⟨hkeys, hanonymous, hreordered, by decide +kernel,
    Session.compile_reordered {} hkeys hanonymous hreordered⟩

end SchemaShape
