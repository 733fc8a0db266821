import SchemaShape.Proofs.Compiler.Making
import SchemaShape.Proofs.Compiler.Root
import SchemaShape.Proofs.Narrowing.Scope

/-! # Compiling narrowed documents

Narrowing a document along its properties and compiling the result gives what the whole document's
compile has in the field at that path, up to outer flags.

Both compiles come to the schema at the end of the path. The one of the whole document gets there
property by property, which puts the path into the names of its records; the other one starts there,
with the path in its title.
-/

namespace SchemaShape
set_option autoImplicit false

open Compile Narrowing

/-! ## The field at the path -/

section

variable {schema properties child : Members} {segment : String} {rest : List String}
variable {inner : Node.Inner} {follow : Node.Follow} {outer : Bool} {c : Compiler}
variable {shape target : Shape} {added : List Diagnostic}

theorem field_ok (formed : (Json.object schema).wellFormed = true)
    (tidy : Node.TidyInners schema inner) (htype : typeIs schema "object" = true)
    (hproperties : schema.get? "properties" = some (.object properties))
    (hchild : Members.get? properties segment = some (.object child))
    (h : (Node.members follow inner schema outer).Gives c (.ok shape) added)
    (hfield : shape.FieldAt (segment :: rest) target) :
    ∃ inside reported, (inner (.object child)).Gives (c.atProperty segment) (.ok inside) reported ∧
      inside.FieldAt rest target := by
  have hnamed : (Node.named inner "object" schema outer).Gives c (.ok shape) added := by
    simp only [Node.members, get?_of_typeIs htype] at h
    exact h
  simp only [Node.named] at hnamed
  split at hnamed
  · obtain ⟨items, members, -, rfl, -⟩ := Node.enumeration_ok hnamed
    cases hfield
  · have hobject : (Node.object inner schema outer).Gives c (.ok shape) added := hnamed
    rcases Node.object_ok tidy hobject with ⟨hnone, -⟩ | ⟨properties', fields, hget, rfl, hfields⟩
    · rw [hproperties] at hnone
      cases hnone
    · rw [hproperties] at hget
      cases hget
      cases hfield with
      | field mem hrest =>
        obtain ⟨value, reported, hmem, -, hgives, -⟩ := hfields _ mem
        have hproperties' : (Json.object properties).wellFormed = true :=
          (Json.within_get? hproperties).wellFormed formed
        have hvalue := Members.get?_of_mem (Json.wellFormed_distinct hproperties') hmem
        rw [hchild] at hvalue
        cases hvalue
        exact ⟨_, reported, hgives, hrest⟩

theorem field_leads {depth height : Nat} {node : Members} {path : List String}
    (hleads : Leads schema path node) (formed : (Json.object schema).wellFormed = true)
    (hid : c.draft.idOf? schema = none) (hheight : (Json.object schema).height ≤ height)
    (h : (nested (followUpTo depth) height (.object schema) false).Gives c (.ok shape) added)
    (hfield : shape.FieldAt path target) :
    ∃ height reported, (Json.object node).height ≤ height ∧
      (nested (followUpTo depth) height (.object node) false).Gives
        (path.foldl Compiler.atProperty c) (.ok target) reported := by
  induction hleads generalizing height c shape added with
  | here schema =>
    cases hfield
    exact ⟨height, added, hheight, h⟩
  | @step schema properties child node segment rest htype hproperties hself hchild hbare hleads ih =>
    cases height with
    | zero => exact absurd hheight (Nat.not_le.mpr (Json.height_pos _))
    | succ height =>
      obtain ⟨place, hinside, hmembers⟩ := h.members_ok hheight
      -- Without an identifier the schema is compiled where it stands.
      have hplace := Node.inside_bare hid hinside
      subst hplace
      obtain ⟨inside, reported, hgives, hrest⟩ := field_ok formed (tidyInners_nested hheight) htype
        hproperties hchild hmembers hfield
      have hpart : Node.Subschema schema (.object child) :=
        .property hproperties (Members.mem_of_get? hchild)
      have hlt := hpart.height_lt
      exact ih (hpart.within.wellFormed formed) (idOf?_bare hbare) (by omega) hgives hrest

theorem field_root {depth height : Nat} {root node : Members} {path : List String}
    (hleads : Leads root path node) (hpath : path ≠ []) (formed : (Json.object root).wellFormed = true)
    (hheight : (Json.object root).height ≤ height)
    (h : (nested (followUpTo depth) height (.object root) outer).Gives c (.ok shape) added)
    (hfield : shape.FieldAt path target) :
    ∃ place height reported, Node.Inside root c place ∧
      (Json.object node).height ≤ height + 1 ∧
      (Node.members (followUpTo depth) (fun part => nested (followUpTo depth) height part false)
        node false).Gives (path.foldl Compiler.atProperty place) (.ok target) reported := by
  cases hleads with
  | here => exact absurd rfl hpath
  | @step _ properties child _ segment rest htype hproperties hself hchild hbare hleads =>
    cases height with
    | zero => exact absurd hheight (Nat.not_le.mpr (Json.height_pos _))
    | succ height =>
      obtain ⟨place, hinside, hmembers⟩ := h.members_ok hheight
      obtain ⟨inside, reported, hgives, hrest⟩ := field_ok formed (tidyInners_nested hheight) htype
        hproperties hchild hmembers hfield
      have hpart : Node.Subschema root (.object child) :=
        .property hproperties (Members.mem_of_get? hchild)
      have hlt := hpart.height_lt
      obtain ⟨height', reported', hheight', hnode⟩ := field_leads hleads
        (hpart.within.wellFormed formed) (idOf?_bare hbare) (by omega) hgives hrest
      cases height' with
      | zero => exact absurd hheight' (Nat.not_le.mpr (Json.height_pos _))
      | succ height' =>
        obtain ⟨last, hlast, hmembers'⟩ := hnode.members_ok hheight'
        have hbare' := (Leads.step htype hproperties hself hchild hbare hleads).bare hpath
        have hplace := Node.inside_bare (idOf?_bare hbare') hlast
        subst hplace
        exact ⟨place, height', reported', hinside, hheight', hmembers'⟩

/-- The narrowed schema is compiled at its root as the schema that it comes from is at its path. -/
theorem members_narrowed {registry : Registry} {draft : Draft} {scope scope' : Url}
    {root node narrowed : Members} {path : List String} {depth height height' : Nat}
    {c' : Compiler}
    (hkeeps : ∀ schema, Resolver.Reaches { registry, base := scope } (.object node) (.object schema) →
      KeepsScope draft schema)
    (hcarries : Carries root path node narrowed)
    (htypes : ∀ types, node.get? "type" ≠ some (.array types))
    (hheight : (Json.object node).height ≤ height + 1)
    (hheight' : (Json.object node).height ≤ height' + 1)
    (halongside : Alongside registry draft scope scope' c c')
    (h : (Node.members (followUpTo depth) (fun part => nested (followUpTo depth) height part false)
      node false).Gives c (.ok target) added) :
    ∃ shape added, (Node.members (followUpTo depth)
        (fun part => nested (followUpTo depth) height' part false) narrowed true).Gives c'
        (.ok shape) added ∧ Shape.SameErased target shape := by
  have laws : (sameErased registry draft scope scope' (.object node)).Lawful :=
    sameErased_lawful hkeeps
  have hsame : ∀ key ∈ Node.ruleKeywords, narrowed.get? key = node.get? key := by
    intro key hkey
    apply hcarries.others
    intro hinherited
    simp only [inheritedKeywords, List.mem_cons, List.not_mem_nil, or_false] at hinherited
    rcases hinherited with rfl | rfl | rfl <;> revert hkey <;> decide
  rw [Node.members_congr hsame]
  have hinner : (sameErased registry draft scope scope' (.object node)).Inners node
      (fun part => nested (followUpTo depth) height part false)
      (fun part => nested (followUpTo depth) height' part false) := by
    intro part hpart place place' hplaces
    have hlt := hpart.height_lt
    exact laws.nested height height' (by omega) (by omega) (.part .start hpart) (fun _ _ => rfl)
      trivial (laws.references (.inl rfl)) hplaces
  rcases laws.members (laws.alike hinner) .start
      (fun types htype => absurd htype (htypes types)) trivial (laws.references (.inl rfl))
      halongside with
    ⟨result, reported, result', reported', hgives, hgives', houtcomes, -⟩ | ⟨_, _, _, hcut⟩
  · obtain ⟨rfl, -⟩ := h.unique hgives
    cases houtcomes with
    | value hshape => exact ⟨_, reported', hgives', hshape⟩
  · exact hcut.1.elim

end

/-! ## The two roots -/

theorem foldl_atProperty (c : Compiler) (path : List String) :
    ∃ location, path.foldl Compiler.atProperty c =
      { c with names := c.names ++ path, location } := by
  induction path generalizing c with
  | nil => exact ⟨c.location, by rw [List.append_nil]; rfl⟩
  | cons segment rest ih =>
    obtain ⟨location, hrest⟩ := ih (c.atProperty segment)
    refine ⟨location, ?_⟩
    rw [List.foldl_cons, hrest]
    simp only [Compiler.atProperty, List.append_assoc, List.singleton_append]

/-- The compiler has gone nowhere yet. -/
structure AtRoot (draft : Draft) (title : String) (options : Options) (c : Compiler) : Prop where
  draft_eq : c.draft = draft
  outerName_eq : c.outerName = Name.ofTitle title
  names_eq : c.names = []
  active_eq : c.active = []
  repeats_eq : c.refusesRepeats = true
  remaining_eq : c.remaining = options.maxRefDepth

theorem AtRoot.recordName_eq {draft : Draft} {title : String} {options : Options} {c : Compiler}
    (h : AtRoot draft title options c) : c.recordName = Name.ofTitle title := by
  simp [Compiler.recordName, h.outerName_eq, h.names_eq]

theorem Session.compilerFor_atRoot {session : Session} {base : Url} {whole schema : Json}
    {narrowed : Bool} {options : Options} {title : String} (hname : options.name = none)
    (htitle : schema.get? "title" = some (.string title)) :
    AtRoot (options.draftOf schema) title options
      (session.compilerFor base whole schema narrowed options) := by
  have houter : options.name.getD (Name.ofSchema schema) = Name.ofTitle title := by
    rw [hname, Option.getD_none, Name.ofSchema, htitle]
    rfl
  exact ⟨rfl, houter, rfl, rfl, rfl, Nat.sub_zero _⟩

/-- The root compiled whole and the narrowed root, with the path gone from one and in the name of the
other, are the same place. -/
theorem alongside_roots {registry : Registry} {draft : Draft} {title : String} {options : Options}
    {scope scope' : Url} {path : List String} {c c' : Compiler} {resolver resolver' : Resolver}
    (h : AtRoot draft title options c) (h' : AtRoot draft (textAlong " " title path) options c')
    (hresolvers : SameDocument registry scope scope' resolver resolver') :
    Alongside registry draft scope scope' (path.foldl Compiler.atProperty (c.within resolver))
      (c'.within resolver') := by
  have hname : (c.within resolver).recordName ++ String.join (path.map Name.ofTitle) =
      (c'.within resolver').recordName := by
    have hwhole : (c.within resolver).recordName = Name.ofTitle title := h.recordName_eq
    have hnarrowed : (c'.within resolver').recordName = Name.ofTitle (textAlong " " title path) :=
      h'.recordName_eq
    rw [hwhole, hnarrowed, ofTitle_textAlong]
  obtain ⟨location, hpath⟩ := foldl_atProperty (c.within resolver) path
  refine ⟨?_, ?_, ?_, ?_, [], ?_, ?_⟩
  · rw [hpath]
    exact ⟨h.draft_eq, h'.draft_eq⟩
  · rw [hpath]
    exact h.repeats_eq.trans h'.repeats_eq.symm
  · rw [hpath, ← hname]
    simp [Compiler.recordName, String.join_append, String.append_assoc]
  · rw [hpath]
    exact hresolvers
  · rw [hpath]
    exact h.active_eq
  · exact h'.active_eq

theorem Narrowing.Carries.draftOf_eq {root node narrowed : Members} {path : List String}
    (h : Carries root path node narrowed) (options : Options) :
    options.draftOf (.object narrowed) = options.draftOf (.object root) := by
  have hdetect : Draft.detectIn (.object narrowed) = Draft.detectIn (.object root) := by
    show Draft.detect ((narrowed.get? "$schema").bind Json.asString?) = _
    rw [h.draft]
    rfl
  rw [Options.draftOf, Options.draftOf, hdetect]

theorem gives_narrowed {registry : Registry} {draft : Draft} {title : String} {options : Options}
    {url : Url} {root node narrowed : Members} {path : List String} {c c' : Compiler}
    {shape target : Shape} {added : List Diagnostic}
    (hstart : AtRoot draft title options c)
    (hstart' : AtRoot draft (textAlong " " title path) options c')
    (hresolver : c.resolver = { registry, base := url.withoutFragment })
    (hresolver' : c'.resolver = Session.aliasNarrowed draft (.object root) (.object narrowed)
      { registry, base := url.withoutFragment })
    (formed : (Json.object root).wellFormed = true) (hroot : root.get? "id" = none)
    (hpath : path ≠ []) (hleads : Leads root path node)
    (htypes : ∀ types, node.get? "type" ≠ some (.array types))
    (hcarries : Carries root path node narrowed) (hsub : node ⊆ narrowed)
    (hjoin : ∀ id, draft.idOf? narrowed = some id →
      ∃ joined, url.withoutFragment.join id = .ok joined)
    (hkeeps : ∀ schema, Resolver.Reaches { registry, base := rootScope draft url root }
      (.object node) (.object schema) → KeepsScope draft schema)
    (h : (upTo c.remaining (.object root) true).Gives c (.ok shape) added)
    (hfield : shape.FieldAt path target) :
    ∃ shape' added', (upTo c'.remaining (.object narrowed) true).Gives c' (.ok shape') added' ∧
      Shape.SameErased target shape' ∧ Node.NamedBy c' true shape' := by
  rw [hstart.remaining_eq, upTo_eq] at h
  obtain ⟨place, height, reported, hinside, hheight, hmembers⟩ :=
    field_root hleads hpath formed (Nat.le_refl _) h hfield
  have hid := hcarries.idOf?_eq draft hroot (hleads.bare hpath "id" (by decide))
  obtain ⟨resolver, resolver', scope', rfl, hinside', hresolvers⟩ := sameDocument_roots
    ⟨hstart.draft_eq, hresolver⟩ ⟨hstart'.draft_eq, hresolver'⟩ hid hjoin hinside
  have halongside := alongside_roots hstart hstart' hresolvers
  obtain ⟨height', hsucc⟩ := (Json.object narrowed).height_eq_succ
  have hheight' : (Json.object node).height ≤ height' + 1 := hsucc ▸ Json.height_mono hsub
  obtain ⟨shape', reported', hmembers', hsame⟩ := members_narrowed hkeeps hcarries htypes hheight
    hheight' halongside hmembers
  have hnested : (nested (followUpTo options.maxRefDepth) (Json.object narrowed).height
      (.object narrowed) true).Gives c' (.ok shape') reported' := by
    rw [hsucc]
    exact Node.gives_shape hinside' hmembers'
  have hnamed := (makes_nested (makes_followUpTo options.maxRefDepth) (Nat.le_refl _) _ _ _
    hnested).namedBy hstart'.names_eq
  refine ⟨shape', reported', ?_, hsame, hnamed⟩
  rw [hstart'.remaining_eq, upTo_eq]
  exact hnested

/-- Compiling a document narrowed to a path gives the shape that the whole document has in the field at
that path, up to outer flags. A record is outer then, and the compilation has its name. -/
theorem Session.compile_narrowed {session : Session} {url : Url} {root node : Members}
    {path : List String} {options : Options} {title : String} {whole : Compilation} {target : Shape}
    (formed : (Json.object root).wellFormed = true)
    (hregistered : session.registry.get? url.withoutFragment.text = some (.object root))
    (htitle : root.get? "title" = some (.string title)) (hroot : root.get? "id" = none)
    (hname : options.name = none) (hpath : path ≠ []) (hleads : Leads root path node)
    (htypes : ∀ types, node.get? "type" ≠ some (.array types))
    (hproperties : (node.get? "properties").isSome → typeIs node "object" = true)
    (hjoin : ∀ narrowed id, narrow (.object root) path = .ok narrowed →
      narrowed.get? "$id" = some (.string id) → ∃ joined, url.withoutFragment.join id = .ok joined)
    (hkeeps : ∀ schema, Resolver.Reaches
      { registry := session.registry, base := rootScope (options.draftOf (.object root)) url root }
      (.object node) (.object schema) → KeepsScope (options.draftOf (.object root)) schema)
    (hwhole : session.compile url [] options = .ok whole)
    (hfield : whole.root.FieldAt path target) :
    ∃ narrowed, session.compile url path options = .ok narrowed ∧ narrowed.draft = whole.draft ∧
      narrowed.root.erased = target.erased ∧
      ∀ name outer fields, target = .record name outer fields →
        narrowed.name = name ∧ ∃ fields', narrowed.root = .record name true fields' := by
  obtain ⟨narrowed, hnarrow, hcarries, hsub⟩ := narrow_leads hpath hleads hproperties
  have hnarrowedTitle : narrowed.get? "title" = some (.string (textAlong " " title path)) := by
    rw [hcarries.title, htitle]
    rfl
  have hdraft := hcarries.draftOf_eq options
  have hnoid : narrowed.get? "id" = none :=
    (hcarries.others "id" (by decide)).trans (hleads.bare hpath "id" (by decide))
  have hjoin' : ∀ id, (options.draftOf (.object root)).idOf? narrowed = some id →
      ∃ joined, url.withoutFragment.join id = .ok joined :=
    fun id hown => hjoin _ id hnarrow (get?_of_idOf? hnoid hown)
  have hnonempty : path.isEmpty = false := List.isEmpty_eq_false_iff.mpr hpath
  have hschema : (if path.isEmpty then .ok (.object root) else narrow (.object root) path) =
      .ok (.object narrowed) := by
    rw [hnonempty]
    exact hnarrow
  -- The two compilers, each at the root of what it compiles.
  generalize hc : session.compilerFor url.withoutFragment (.object root) (.object root) false
    options = c
  generalize hc' : session.compilerFor url.withoutFragment (.object root) (.object narrowed)
    (!path.isEmpty) options = c'
  have hstart : AtRoot (options.draftOf (.object root)) title options c :=
    hc ▸ compilerFor_atRoot hname htitle
  have hstart' : AtRoot (options.draftOf (.object root)) (textAlong " " title path) options c' :=
    hdraft ▸ hc' ▸ compilerFor_atRoot hname hnarrowedTitle
  have hresolver : c.resolver = { registry := session.registry, base := url.withoutFragment } := by
    subst hc
    rfl
  have hresolver' : c'.resolver = aliasNarrowed (options.draftOf (.object root)) (.object root)
      (.object narrowed) { registry := session.registry, base := url.withoutFragment } := by
    subst hc'
    rw [← hdraft, hnonempty]
    rfl
  obtain ⟨result, added, hgives⟩ := tidy_upTo c.remaining (.object root) true c
  have hreport : session.compile url [] options = result.map (report url [] c added) :=
    compile_of_gives hregistered rfl hc hgives
  rw [hwhole] at hreport
  cases result with
  | error e => cases hreport
  | ok shape =>
    cases hreport
    obtain ⟨shape', added', hgives', hsame, hnamed⟩ := gives_narrowed hstart hstart' hresolver
      hresolver' formed hroot hpath hleads htypes hcarries hsub hjoin' hkeeps hgives hfield
    refine ⟨_, compile_of_gives hregistered hschema hc' hgives',
      hstart'.draft_eq.trans hstart.draft_eq.symm, hsame.symm, ?_⟩
    rintro name outer fields rfl
    obtain ⟨outer', fields', rfl⟩ := hsame.record_left
    obtain ⟨hrecord, rfl⟩ := hnamed
    refine ⟨?_, fields', rfl⟩
    rw [hrecord, hstart'.recordName_eq]
    exact hstart'.outerName_eq

/-- An item, with the price that its document defines. -/
def itemSchema : Members :=
  [("type", .string "object"),
    ("properties", .object [("price", .object [("$ref", .string "#/definitions/price")])])]

def orderSchema : Members :=
  [("$id", .string "orders.json"), ("title", .string "Order"), ("type", .string "object"),
    ("properties", .object [("item", .object itemSchema)]),
    ("definitions", .object [("price", .object [("type", .string "number")])])]

def orderFile : Document := fileAt "/order.json" (.object orderSchema)

theorem reaches_item {resolver : Resolver} {part : Json}
    (hresolve : ∃ url, resolver.resolve "#/definitions/price" =
      .ok (url, .object [("type", .string "number")]))
    (h : resolver.Reaches (.object itemSchema) part) :
    part = .object itemSchema ∨ part = .object [("$ref", .string "#/definitions/price")] ∨
      part = .object [("type", .string "number")] := by
  obtain ⟨place, hresolve⟩ := hresolve
  induction h with
  | start => exact .inl rfl
  | part h hpart ih =>
    rcases ih with heq | heq | heq <;> cases heq
    · cases hpart with
      | branch hkeyword hget mem =>
        simp only [Node.branchKeywords, List.mem_cons, List.not_mem_nil, or_false] at hkeyword
        rcases hkeyword with rfl | rfl | rfl <;> cases hget
      | property hget mem =>
        cases hget
        simp only [List.mem_singleton, Prod.mk.injEq] at mem
        exact .inr (.inl mem.2)
      | position hget mem => cases hget
      | items hget => cases hget
    all_goals
      cases hpart with
      | branch hkeyword hget mem =>
        simp only [Node.branchKeywords, List.mem_cons, List.not_mem_nil, or_false] at hkeyword
        rcases hkeyword with rfl | rfl | rfl <;> cases hget
      | property hget mem => cases hget
      | position hget mem => cases hget
      | items hget => cases hget
  | target h hget hfound ih =>
    rcases ih with heq | heq | heq <;> cases heq
    · cases hget
    · cases hget
      rw [hresolve] at hfound
      cases hfound
      exact .inr (.inr rfl)
    · cases hget

def orderSession : Session := Session.ofDocuments [orderFile]

def itemShape : Shape := .record "OrderItem" false [⟨"price", false, .scalar .number⟩]

set_option maxRecDepth 1000 in
/-- The item of an order by itself. -/
theorem compile_narrowed_item :
    Leads orderSchema ["item"] itemSchema ∧
      ∃ whole narrowed, orderSession.compile orderFile.url [] {} = .ok whole ∧
        whole.root.FieldAt ["item"] itemShape ∧
        orderSession.compile orderFile.url ["item"] {} = .ok narrowed ∧
        narrowed.root.erased = itemShape.erased ∧ narrowed.name = "OrderItem" := by
  have hleads : Leads orderSchema ["item"] itemSchema :=
    .step rfl rfl (by decide) rfl (by decide +kernel) (.here itemSchema)
  have hresolve : Resolver.resolve
      { registry := orderSession.registry, base := rootScope .draft07 orderFile.url orderSchema }
      "#/definitions/price" =
        .ok (⟨"file", some {}, "/orders.json", none, some "/definitions/price"⟩,
          .object [("type", .string "number")]) := rfl
  have hkeeps : ∀ schema, Resolver.Reaches
      { registry := orderSession.registry, base := rootScope .draft07 orderFile.url orderSchema }
      (.object itemSchema) (.object schema) → KeepsScope .draft07 schema := by
    intro schema h
    rcases reaches_item ⟨_, hresolve⟩ h with heq | heq | heq <;> cases heq
    · exact ⟨rfl, rfl, by rintro ⟨⟩⟩
    · exact ⟨rfl, by decide +kernel, by simp [Members.get?]⟩
    · exact ⟨rfl, rfl, by rintro ⟨⟩⟩
  have hjoin : ∀ narrowed id, narrow (.object orderSchema) ["item"] = .ok narrowed →
      narrowed.get? "$id" = some (.string id) →
      ∃ joined, orderFile.url.withoutFragment.join id = .ok joined := by
    intro narrowed id hnarrow hid
    cases hnarrow
    cases hid
    exact ⟨_, rfl⟩
  have hregistered : orderSession.registry.get? orderFile.url.withoutFragment.text =
      some (.object orderSchema) := rfl
  obtain ⟨whole, hwhole, hfield⟩ : ∃ whole, orderSession.compile orderFile.url [] {} = .ok whole ∧
      whole.root.FieldAt ["item"] itemShape :=
    ⟨_, rfl, .field (List.mem_singleton.mpr rfl) (.here itemShape)⟩
  obtain ⟨narrowed, hnarrowed, -, herased, hrecord⟩ := @Session.compile_narrowed orderSession
    orderFile.url orderSchema itemSchema ["item"] {} "Order" whole itemShape (by decide +kernel)
    hregistered rfl rfl rfl (by decide) hleads (by rintro types ⟨⟩) (fun _ => rfl) hjoin hkeeps
    hwhole hfield
  exact ⟨hleads, whole, narrowed, hwhole, hfield, hnarrowed, herased, (hrecord _ _ _ rfl).1⟩

/-- A document whose identifier is the URL of another one, where its reference leads. -/
def borrowingSchema : Members :=
  [("$id", .string "types.json"), ("title", .string "T"), ("type", .string "object"),
    ("properties", .object [("a", .object [("$ref", .string "#/definitions/t")])])]

def borrowingFile : Document := fileAt "/d.json" (.object borrowingSchema)

def borrowingSession : Session :=
  Session.ofDocuments [
    fileAt "/types.json" (.object [("definitions", .object
      [("t", .object [("$ref", .string "text.json")])])]),
    fileAt "/text.json" (.object [("type", .string "string")]), borrowingFile]

set_option maxRecDepth 1000 in
/-- A reference in the other document is not found through the alias. -/
theorem compile_narrowed_elsewhere :
    borrowingFile.schema.everyObject refersLocally = true ∧
      Leads borrowingSchema ["a"] [("$ref", .string "#/definitions/t")] ∧
      (borrowingSession.compile borrowingFile.url [] {}).map (·.root) =
        .ok (.record "T" true [⟨"a", false, .scalar .string⟩]) ∧
      (borrowingSession.compile borrowingFile.url ["a"] {}).map (·.root) =
        .error (.refResolution "text.json" "file:///types.json/a#/definitions/t"
          "no document is registered as file:///types.json/text.json") :=
  ⟨by decide +kernel, .step rfl rfl (by decide) rfl (by decide +kernel) (.here _), rfl, rfl⟩

end SchemaShape
