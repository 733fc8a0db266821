import SchemaShape.Proofs.Claims
import SchemaShape.Proofs.Compiler.Reports
import SchemaShape.Proofs.Isolation
import SchemaShape.Proofs.Json.Tokens
import SchemaShape.Proofs.Url.Parser
import SchemaShape.Proofs.Url.Percent

/-! # Where diagnostics point

The location of a diagnostic names a registered document, and the pointer behind it leads to what the
diagnostic speaks of.

The location of a reference's target is read off the text of the fragment, and the target itself is found by
the fragment decoded. So a location is right behind references whose pointers are written as they read. A
blank in a pointer is written `%20`, and stays so in the location.
-/

namespace SchemaShape
set_option autoImplicit false

open Compile

/-! ## Fragments -/

namespace Url

/-- Whether a fragment that reads as a pointer is written as it reads. -/
def isPlain (fragment : Option String) : Bool :=
  match Percent.decode (fragment.getD "").toList with
  | .ok ('/' :: rest) => fragment == some (String.ofList ('/' :: rest))
  | _ => true

def pointsPlainly (url : Url) : Bool := isPlain url.fragment

theorem fragment_of_plain {url : Url} {rest : List Char} (hplain : url.pointsPlainly = true)
    (hdecode : Percent.decode (url.fragment.getD "").toList = .ok ('/' :: rest)) :
    url.fragment = some (String.ofList ('/' :: rest)) := by
  rw [pointsPlainly, isPlain, hdecode] at hplain
  exact eq_of_beq hplain

end Url

/-- Whether the reference of a schema points plainly, if it has any. -/
def refersPlainly (schema : Members) : Bool :=
  match schema.get? "$ref" with
  | some (.string reference) => Url.isPlain (Url.fragmentOf reference)
  | _ => true

/-! ## Registered documents -/

/-- The documents of a session as they are loaded: under keys of their own, at URLs that were read, with
schemas that were read. -/
structure Session.Loaded (documents : List Document) : Prop where
  apart : (documents.map Document.key).Nodup
  formed : ∀ document ∈ documents, document.url.Formed
  distinct : ∀ document ∈ documents, document.schema.everyObject Members.distinct = true

namespace Session.Loaded

variable {documents : List Document} {key : String}

theorem get?_key (loaded : Loaded documents) {document : Document} (hmem : document ∈ documents) :
    (ofDocuments documents).registry.get? document.key = some document.schema := by
  obtain ⟨before, after, rfl⟩ := List.append_of_mem hmem
  have hapart := loaded.apart
  rw [List.map_append, List.map_cons, List.nodup_append, List.nodup_cons] at hapart
  refine get?_own before fun other hother heq => hapart.2.1.1 ?_
  exact List.mem_map.mpr ⟨other, hother, heq⟩

theorem exists_of_locate? {found : Document} {pointer : Pointer}
    (h : (ofDocuments documents).registry.locate? key = some (found, pointer)) :
    ∃ document ∈ documents, found = document.stored := by
  rw [registry_ofDocuments, Registry.locate?, Option.bind_eq_bind, Option.bind_eq_some_iff] at h
  obtain ⟨place, -, hplace⟩ := h
  rw [Option.bind_eq_bind, Option.bind_eq_some_iff] at hplace
  obtain ⟨document, hdocument, hpair⟩ := hplace
  cases hpair
  have hmem := List.mem_of_getElem? hdocument
  rw [Registry.documents_foldl] at hmem
  obtain ⟨stored, hstored, rfl⟩ := List.mem_map.mp (show found ∈ [] ++ _ from hmem)
  exact ⟨stored, hstored, rfl⟩

theorem exists_within {node : Json} (h : (ofDocuments documents).registry.get? key = some node) :
    ∃ document ∈ documents, node.Within document.schema := by
  rw [Registry.get?, Option.bind_eq_bind, Option.bind_eq_some_iff] at h
  obtain ⟨⟨found, pointer⟩, hlocate, hnode⟩ := h
  obtain ⟨document, hmem, rfl⟩ := exists_of_locate? hlocate
  exact ⟨document, hmem, Json.within_at? hnode⟩

end Session.Loaded

theorem Url.Formed.free_document {url : Url} (h : url.Formed) :
    '#' ∉ url.withoutFragment.text.toList := by
  have htext : url.withoutFragment.text = url.withoutFragment.documentText := String.append_empty ..
  rw [htext]
  exact h.withoutFragment.free_documentText.not_mem (List.mem_singleton_self _)

/-! ## Locations -/

/-- The location names a registered document, and provided the condition its pointer leads to a value in
there. -/
structure Location.Names (location : Location) (registry : Registry) (condition : Prop) (value : Json) :
    Prop where
  free : '#' ∉ location.document.toList
  leads : ∃ whole, registry.get? location.document = some whole ∧
    (condition → whole.at? location.tokens = some value)

theorem Location.tokens_of_empty {url : Url} (h : (url.fragment.getD "").toList = []) :
    (Location.ofUrl url).tokens = [] := by
  rw [Location.ofUrl_eq]
  cases hfragment : url.fragment with
  | none => rfl
  | some written =>
    rw [hfragment, Option.getD_some] at h
    obtain rfl : written = "" := String.toList_inj.mp h
    rfl

section

variable {documents : List Document} {registry : Registry} {location : Location}
variable {condition condition' : Prop} {value part : Json}

theorem Location.Names.mono (h : location.Names registry condition value)
    (hcondition : condition' → condition) : location.Names registry condition' value := by
  obtain ⟨hfree, whole, hwhole, hvalue⟩ := h
  exact ⟨hfree, whole, hwhole, fun holds => hvalue (hcondition holds)⟩

theorem Location.Names.descend {tokens : Pointer} (h : location.Names registry condition value)
    (hpart : value.at? tokens = some part) :
    (location.descend tokens).Names registry condition part := by
  obtain ⟨hfree, whole, hwhole, hvalue⟩ := h
  refine ⟨hfree, whole, hwhole, fun holds => ?_⟩
  rw [Location.descend, Json.at?_append, hvalue holds]
  exact hpart

end

/-! ## Targets -/

namespace Resolver

variable {r : Resolver} {url : Url}

theorem locateAnchor?_of_fragment {c : Char} {rest anchor : List Char}
    (hfragment : (url.fragment.getD "").toList = c :: rest) (hslash : c ≠ '/')
    (hdecode : Percent.decode (c :: rest) = .ok anchor) :
    r.locateAnchor? url = (r.registry.locate? (r.documentOf url ++ "#" ++ String.ofList anchor)).map
      fun (found, pointer) => (found.url, pointer) := by
  cases hsome : url.fragment with
  | none =>
    rw [hsome] at hfragment
    cases hfragment
  | some fragment =>
    rw [hsome, Option.getD_some] at hfragment
    have hanchor : (fragment.isEmpty || (c :: rest).head? == some '/') = false := by
      rw [String.isEmpty_eq_false_iff.mpr]
      · simpa using hslash
      · rintro rfl
        cases hfragment
    simp only [locateAnchor?, hsome, Option.bind_eq_bind, Option.bind_some, hfragment, hanchor, hdecode,
      Bool.false_eq_true, if_false, Except.toOption]
    cases r.registry.locate? (r.documentOf url ++ "#" ++ String.ofList anchor) <;> rfl

theorem locateAnchor?_some {place : Url × Pointer} (h : r.locateAnchor? url = some place) :
    ∃ c rest, (url.fragment.getD "").toList = c :: rest ∧ c ≠ '/' := by
  cases hsome : url.fragment with
  | none =>
    rw [locateAnchor?, hsome] at h
    cases h
  | some fragment =>
    rw [Option.getD_some]
    cases htext : fragment.toList with
    | nil =>
      obtain rfl : fragment = "" := String.toList_inj.mp htext
      simp only [locateAnchor?, hsome, Option.bind_eq_bind, Option.bind_some] at h
      cases h
    | cons c rest =>
      refine ⟨c, rest, rfl, ?_⟩
      rintro rfl
      simp only [locateAnchor?, hsome, Option.bind_eq_bind, Option.bind_some, htext, List.head?_cons,
        BEq.rfl, Bool.or_true, if_true, Option.bind_none] at h
      cases h

theorem locateAnchor?_of_decode {anchor : List Char}
    (hdecode : Percent.decode (url.fragment.getD "").toList = .ok anchor) (hnil : anchor ≠ [])
    (hslash : ∀ rest, anchor ≠ '/' :: rest) :
    r.locateAnchor? url = (r.registry.locate? (r.documentOf url ++ "#" ++ String.ofList anchor)).map
      fun (found, pointer) => (found.url, pointer) := by
  cases hfragment : (url.fragment.getD "").toList with
  | nil =>
    rw [hfragment] at hdecode
    cases hdecode
    exact absurd rfl hnil
  | cons c rest =>
    rw [hfragment] at hdecode
    apply locateAnchor?_of_fragment hfragment _ hdecode
    rintro rfl
    obtain ⟨more, rfl⟩ := Percent.decode_slash hdecode
    exact hslash more rfl

end Resolver

section

variable {documents : List Document} {r : Resolver} {url : Url} {node : Json}

theorem names_anchor (loaded : Session.Loaded documents)
    (hregistry : r.registry = (Session.ofDocuments documents).registry) {place : Url × Pointer}
    (hplace : r.locateAnchor? url = some place) (htarget : r.target url = .ok node) :
    ({ document := place.1.text, tokens := place.2 } : Location).Names r.registry
      (url.pointsPlainly = true) node := by
  obtain ⟨fragment, root, hdecode, -, hnode⟩ := Resolver.target_ok htarget
  obtain ⟨c, rest, hfragment, hslash⟩ := Resolver.locateAnchor?_some hplace
  have hread := hfragment ▸ hdecode
  rw [Resolver.locateAnchor?_of_fragment hfragment hslash hread, Option.map_eq_some_iff] at hplace
  obtain ⟨⟨found, pointer⟩, hlocate, rfl⟩ := hplace
  obtain ⟨document, hmem, rfl⟩ := Session.Loaded.exists_of_locate? (hregistry ▸ hlocate)
  refine ⟨(loaded.formed document hmem).free_document, document.schema, ?_, fun hplain => ?_⟩
  · rw [hregistry]
    exact loaded.get?_key hmem
  · rw [Resolver.fragmentTarget?, String.toList_ofList] at hnode
    split at hnode
    · cases Percent.eq_nil_of_decode hread
    · -- What reads as a pointer is written as one, and an anchor is not.
      rw [Url.fragment_of_plain hplain hdecode, Option.getD_some, String.toList_ofList] at hfragment
      cases hfragment
      exact absurd rfl hslash
    · rw [Registry.get?, hlocate] at hnode
      exact hnode

theorem names_pointer (hplain : r.aliases = []) (hurl : url.Formed)
    (hplace : r.locateAnchor? url = none) (htarget : r.target url = .ok node) :
    (Location.ofUrl url).Names r.registry (url.pointsPlainly = true) node := by
  obtain ⟨fragment, root, hdecode, hroot, hnode⟩ := Resolver.target_ok htarget
  have hdocument : r.documentOf url = (Location.ofUrl url).document := Resolver.documentOf_plain hplain url
  refine ⟨hurl.free_document, root, hdocument ▸ hroot, fun hplain => ?_⟩
  rw [Resolver.fragmentTarget?, String.toList_ofList] at hnode
  split at hnode
  · rw [Location.tokens_of_empty (Percent.eq_nil_of_decode hdecode)]
    exact hnode
  · rw [Json.pointer?, Option.bind_eq_some_iff] at hnode
    obtain ⟨pointer, hpointer, hnode⟩ := hnode
    rw [Location.ofUrl_eq, Url.fragment_of_plain hplain hdecode, Option.bind_some, hpointer]
    exact hnode
  · next hnil hslash =>
    rw [Resolver.locateAnchor?_of_decode hdecode hnil hslash, Option.map_eq_none_iff] at hplace
    rw [Registry.get?, hplace] at hnode
    cases hnode

/-- A target stands where the compiler takes it to stand, provided that the URL points plainly. -/
theorem names_target (loaded : Session.Loaded documents)
    (hregistry : r.registry = (Session.ofDocuments documents).registry) (hplain : r.aliases = [])
    (hurl : url.Formed) (htarget : r.target url = .ok node) :
    (targetLocation r url).Names r.registry (url.pointsPlainly = true) node := by
  rw [targetLocation]
  cases hplace : r.locateAnchor? url with
  | some place => exact names_anchor loaded hregistry hplace htarget
  | none => exact names_pointer hplain hurl hplace htarget

end

/-! ## Places -/

theorem Node.HasProperty.get?_eq {schema : Members} {key : String} {part : Json}
    (h : Node.HasProperty schema key part)
    (hkeys : (Json.object schema).everyObject Members.distinct = true) :
    ∃ properties, schema.get? "properties" = some (.object properties) ∧
      Members.get? properties key = some part := by
  obtain ⟨properties, hget, hmem⟩ := h.member
  have hproperties : (Json.object properties).everyObject Members.distinct = true :=
    (Json.Within.member (Members.mem_of_get? hget) (.refl _)).everyObject hkeys
  have hdistinct : (properties.map Prod.fst).Nodup := of_decide_eq_true (Json.everyObject_self hproperties)
  exact ⟨properties, hget, Members.get?_of_mem hdistinct hmem⟩

/-- What is known of a place that a compile gets to, and of the schema there. -/
structure Placed (documents : List Document) (followed : List Url) (c : Compiler) (value : Json) :
    Prop where
  registry_eq : c.resolver.registry = (Session.ofDocuments documents).registry
  aliases_eq : c.resolver.aliases = []
  scope : c.resolver.scope.Formed
  names : c.location.Names c.resolver.registry (∀ url ∈ followed, url.pointsPlainly = true) value
  within : ∃ document ∈ documents, value.Within document.schema

namespace Placed

variable {documents : List Document} {followed : List Url} {c : Compiler} {value : Json}

theorem inside {schema : Members} {place : Compiler} (h : Placed documents followed c (.object schema))
    (hinside : Node.Inside schema c place) : Placed documents followed place (.object schema) := by
  rcases hinside.eq_or_enter with rfl | ⟨id, url, hjoin, rfl⟩
  · exact h
  · exact ⟨h.registry_eq, h.aliases_eq, h.scope.join hjoin, h.names, h.within⟩

theorem below {tokens : Pointer} {part : Json} (h : Placed documents followed c value)
    (hpart : value.at? tokens = some part) : Placed documents followed (c.below tokens) part := by
  obtain ⟨document, hmem, hwithin⟩ := h.within
  exact ⟨h.registry_eq, h.aliases_eq, h.scope, h.names.descend hpart,
    document, hmem, (Json.within_at? hpart).trans hwithin⟩

theorem atProperty {schema : Members} {key : String} {part : Json} (loaded : Session.Loaded documents)
    (h : Placed documents followed c (.object schema)) (hpart : Node.HasProperty schema key part) :
    Placed documents followed (c.atProperty key) part := by
  obtain ⟨document, hdocument, hwithin⟩ := h.within
  obtain ⟨properties, hget, hvalue⟩ :=
    hpart.get?_eq (hwithin.everyObject (loaded.distinct document hdocument))
  have hat : (Json.object schema).at? ["properties", key] = some part := by
    rw [Node.at?_member hget, hvalue]
  obtain ⟨hregistry, haliases, hscope, hnames, hpart⟩ := h.below hat
  exact ⟨hregistry, haliases, hscope, hnames, hpart⟩

theorem atTarget {reference : String} {url : Url} {target : Json} (loaded : Session.Loaded documents)
    (h : Placed documents followed c value) (hresolve : c.resolver.resolve reference = .ok (url, target)) :
    Placed documents (url :: followed) (c.atTarget url (targetLocation c.resolver url)) target := by
  obtain ⟨hjoin, htarget⟩ := Resolver.resolve_ok hresolve
  have hurl := h.scope.join hjoin
  obtain ⟨key, root, -, hroot, hwithin⟩ := Resolver.within_of_target htarget
  obtain ⟨document, hmem, hdocument⟩ := Session.Loaded.exists_within (h.registry_eq ▸ hroot)
  refine ⟨h.registry_eq, h.aliases_eq, hurl, ?_, document, hmem, hwithin.trans hdocument⟩
  refine (names_target loaded h.registry_eq h.aliases_eq hurl htarget).mono fun hplain => ?_
  exact hplain url (List.mem_cons_self ..)

theorem of_compiling {start : Compiler} {root : Json} (loaded : Session.Loaded documents)
    (hstart : Placed documents [] start root) (h : Compiling start root followed c value) :
    Placed documents followed c value := by
  induction h with
  | root => exact hstart
  | part _ hinside hpart ih => exact (ih.inside hinside).below hpart.at?_eq
  | property _ hinside hpart ih => exact (ih.inside hinside).atProperty loaded hpart
  | target _ hinside _ hresolve ih => exact (ih.inside hinside).atTarget loaded hresolve

/-- Where all references in the documents point plainly, those that a compile follows do. -/
theorem followed_plain {start : Compiler} {root : Json} (loaded : Session.Loaded documents)
    (hplain : ∀ document ∈ documents, document.schema.everyObject refersPlainly = true)
    (hstart : Placed documents [] start root) (h : Compiling start root followed c value) :
    ∀ url ∈ followed, url.pointsPlainly = true := by
  induction h with
  | root => exact nofun
  | part _ _ _ ih => exact ih
  | property _ _ _ ih => exact ih
  | @target followed c inside schema reference url target hschema _ href hresolve ih =>
    refine List.forall_mem_cons.mpr ⟨?_, ih⟩
    obtain ⟨document, hmem, hwithin⟩ := (of_compiling loaded hstart hschema).within
    have hrefers := Json.everyObject_self (hwithin.everyObject (hplain document hmem))
    rw [refersPlainly, href.ref] at hrefers
    rw [Url.pointsPlainly, Url.fragment_of_join (Resolver.resolve_ok hresolve).1]
    exact hrefers

theorem start {url : Url} (hurl : url.Formed) {root : Json}
    (hroot : (Session.ofDocuments documents).registry.get? url.withoutFragment.text = some root)
    (options : Options) :
    Placed documents [] ((Session.ofDocuments documents).compilerFor url.withoutFragment root root false
      options) root := by
  have hdocument : (Location.ofUrl url.withoutFragment).document = url.withoutFragment.text :=
    congrArg Url.text (Url.withoutFragment_idem url)
  refine ⟨rfl, rfl, hurl.withoutFragment, ⟨hdocument ▸ hurl.free_document, root, ?_, fun _ => rfl⟩,
    Session.Loaded.exists_within hroot⟩
  show (Session.ofDocuments documents).registry.get? (Location.ofUrl url.withoutFragment).document = _
  rw [hdocument, hroot]

end Placed

/-! ## Whole compiles -/

namespace Session

theorem compile_reported {session : Session} {url : Url} {options : Options} {compilation : Compilation}
    (hrun : session.compile url [] options = .ok compilation) :
    ∃ root, session.registry.get? url.withoutFragment.text = some root ∧
      ∀ d ∈ compilation.diagnostics,
        Reported (session.compilerFor url.withoutFragment root root false options) root d := by
  cases hwhole : session.registry.get? url.withoutFragment.text with
  | none =>
    rw [compile_unregistered hwhole] at hrun
    cases hrun
  | some root =>
    refine ⟨root, rfl, ?_⟩
    generalize hc : session.compilerFor url.withoutFragment root root false options = c
    have hroot : Compiling c root [] c root := .root
    have hnotes : (upTo c.remaining root true).Notes c (Reported c root) := notes_upTo c.remaining hroot
    obtain ⟨result, added, hgives, hadded⟩ := hnotes
    rw [compile_of_gives hwhole rfl hc hgives] at hrun
    cases result with
    | error failure => cases hrun
    | ok shape =>
      cases hrun
      have hnone : c.diagnostics = [] := hc ▸ rfl
      intro d hmem
      rw [report, hnone] at hmem
      exact hadded d hmem

/-- The location of every diagnostic names a registered document. The pointer behind it leads there to what
the diagnostic speaks of, if the references that were followed on the way point plainly. -/
theorem compile_locates {documents : List Document} (loaded : Loaded documents) {url : Url}
    (hurl : url.Formed) {options : Options} {compilation : Compilation}
    (hrun : (ofDocuments documents).compile url [] options = .ok compilation) :
    ∃ root, (ofDocuments documents).registry.get? url.withoutFragment.text = some root ∧
      ∀ d ∈ compilation.diagnostics, ∃ followed c schema tokens value base pointer whole,
        Compiling ((ofDocuments documents).compilerFor url.withoutFragment root root false options) root
          followed c (.object schema) ∧
        d.Speaks c schema tokens value ∧
        d.location = base ++ "#" ++ Pointer.text pointer ∧ '#' ∉ base.toList ∧
        (ofDocuments documents).registry.get? base = some whole ∧
        ((∀ url ∈ followed, url.pointsPlainly = true) →
          whole.pointer? (Pointer.text pointer) = some value) := by
  obtain ⟨root, hroot, hreported⟩ := compile_reported hrun
  refine ⟨root, hroot, fun d hmem => ?_⟩
  obtain ⟨followed, c, schema, tokens, value, hcompiling, hspeaks⟩ := hreported d hmem
  have hplaced := (Placed.of_compiling loaded (.start hurl hroot options) hcompiling).below
    hspeaks.reports.at?_eq
  obtain ⟨hfree, whole, hwhole, hvalue⟩ := hplaced.names
  refine ⟨followed, c, schema, tokens, value, _, (c.below tokens).location.tokens, whole, hcompiling,
    hspeaks, ?_, hfree, hplaced.registry_eq ▸ hwhole, fun hplain => ?_⟩
  · rw [hspeaks.eq_warning]
    rfl
  · rw [Json.pointer?_text]
    exact hvalue hplain

/-- A list of values that stands behind a pointer and an anchor. -/
def winding : Json :=
  .object [("type", .string "object"),
    ("properties", .object [("p", .object [("$ref", .string "#/definitions/a~1b")])]),
    ("definitions", .object [
      ("a/b", .object [("type", .string "array"), ("items", .object [("$ref", .string "#t")])]),
      ("t", .object [("$id", .string "#t"), ("enum", .array [.bool true, .array []])])])]

def windingDocuments : List Document := [⟨Document.defaultUrl, winding⟩]

theorem compile_locates_winding :
    ∃ compilation, (ofDocuments windingDocuments).compile Document.defaultUrl [] {} = .ok compilation ∧
      compilation.diagnostics.map (·.location) = ["file:///schema.json#/definitions/t/enum/1"] ∧
      ∀ d ∈ compilation.diagnostics, ∃ base pointer whole value,
        d.location = base ++ "#" ++ Pointer.text pointer ∧
          (ofDocuments windingDocuments).registry.get? base = some whole ∧
          whole.pointer? (Pointer.text pointer) = some value := by
  have loaded : Loaded windingDocuments :=
    ⟨by decide +kernel, List.forall_mem_singleton.mpr (Url.formed_ofFilePath _), by decide +kernel⟩
  have hplain : ∀ document ∈ windingDocuments,
      document.schema.everyObject refersPlainly = true := by
    decide +kernel
  have hlocations : ((ofDocuments windingDocuments).compile Document.defaultUrl [] {}).toOption.map
      (·.diagnostics.map (·.location)) = some ["file:///schema.json#/definitions/t/enum/1"] := by
    decide +kernel
  cases hrun : (ofDocuments windingDocuments).compile Document.defaultUrl [] {} with
  | error failure =>
    rw [hrun] at hlocations
    cases hlocations
  | ok compilation =>
    rw [hrun] at hlocations
    refine ⟨compilation, rfl, Option.some.inj hlocations, fun d hmem => ?_⟩
    obtain ⟨root, hroot, hlocates⟩ := compile_locates loaded (Url.formed_ofFilePath _) hrun
    obtain ⟨followed, c, schema, tokens, value, base, pointer, whole, hcompiling, -, hlocation, -,
      hwhole, hleads⟩ := hlocates d hmem
    have hstart := Placed.start (Url.formed_ofFilePath _) hroot {}
    exact ⟨base, pointer, whole, value, hlocation, hwhole,
      hleads (Placed.followed_plain loaded hplain hstart hcompiling)⟩

/-- A definition with a blank in its key. -/
def blankKey : Json :=
  .object [("type", .string "object"),
    ("properties", .object [("p", .object [("$ref", .string "#/definitions/with space")])]),
    ("definitions", .object [("with space", .object [])])]

/-- Behind a blank in a pointer locations lead nowhere. -/
theorem compile_mislocates :
    let session := ofDocuments [⟨Document.defaultUrl, blankKey⟩]
    (session.compile Document.defaultUrl [] {}).toOption.map (·.diagnostics.map (·.location)) =
        some ["file:///schema.json#/definitions/with%20space"] ∧
      session.registry.get? "file:///schema.json" = some blankKey ∧
      blankKey.pointer? "/definitions/with%20space" = none ∧
      blankKey.pointer? "/definitions/with space" = some (.object []) :=
  ⟨by decide +kernel, rfl, rfl, rfl⟩

end Session

end SchemaShape
