import SchemaShape.Proofs.Json.Parts
import SchemaShape.Proofs.Json.Pointer
import SchemaShape.Proofs.Registry
import SchemaShape.Proofs.Url.Fragment

/-! # What the identifiers of a document claim

A document is searched for identifiers node by node, data apart. An identifier is read against the base of
its node, and unless it is an anchor, what it joins to is the base of the nodes inside.

A node that claims a key is among the claims of the document with its pointer, and the claims come in the
order of the text. So the first claim of a key is that of the first node that claims it.
-/

namespace SchemaShape
set_option autoImplicit false

/-- Whether no key occurs twice, as in every object that was read. -/
def Members.distinct (members : Members) : Bool :=
  decide (members.map Prod.fst).Nodup

namespace Claim

/-! ## Identifiers -/

/-- What the identifier of a node says: the base of the nodes inside, and the key that it claims. -/
inductive Reads (draft : Draft) (base : Url) (members : Members) : Url → Option String → Prop where
  | anonymous (hid : draft.idOf? members = none) : Reads draft base members base none
  | unjoined {id : String} {e : UrlError} (hid : draft.idOf? members = some id)
      (hjoin : base.join id = .error e) : Reads draft base members base none
  /-- An anchor is a place in the document of the base. -/
  | anchor {id fragment : String} {joined : Url} (hid : draft.idOf? members = some id)
      (hjoin : base.join id = .ok joined) (hlocal : Url.isLocal id = true)
      (hfragment : joined.fragment = some fragment) (hnonempty : fragment ≠ "") :
      Reads draft base members base (some joined.text)
  | url {id : String} {joined : Url} (hid : draft.idOf? members = some id)
      (hjoin : base.join id = .ok joined)
      (hplain : Url.isLocal id = true → ∀ fragment, joined.fragment = some fragment → fragment = "") :
      Reads draft base members joined.withoutFragment (some joined.withoutFragment.text)

/-- The search gets from a value to a node inside, whose base is then another one. -/
inductive Searched (draft : Draft) : Url → Json → Pointer → Url → Json → Prop where
  | here (base : Url) (value : Json) : Searched draft base value [] base value
  | member {base inner base' : Url} {members : Members} {claimed : Option String} {key : String}
      {value node : Json} {rest : Pointer} (hreads : Reads draft base members inner claimed)
      (hget : members.get? key = some value) (hkey : key ∉ dataKeywords)
      (h : Searched draft inner value rest base' node) :
      Searched draft base (.object members) (key :: rest) base' node
  | item {base base' : Url} {items : List Json} {position : Nat} {value node : Json} {rest : Pointer}
      (hget : items[position]? = some value) (h : Searched draft base value rest base' node) :
      Searched draft base (.array items) (toString position :: rest) base' node

/-- Inside a value, the node at a pointer claims a key. -/
def Claims (draft : Draft) (base : Url) (value : Json) (key : String) (pointer : Pointer)
    (node : Members) : Prop :=
  ∃ base' inner, Searched draft base value pointer base' (.object node) ∧
    Reads draft base' node inner (some key)

section

variable {draft : Draft} {base inner : Url} {members node : Members} {claimed : Option String}
variable {value : Json} {key : String} {pointer rest : Pointer} {position : Nat} {claim : Claim}

theorem Reads.ofNode_eq (h : Reads draft base members inner claimed) (pointer : Pointer) :
    ofNode draft base pointer members = (inner, claimed.toList.map fun key => ⟨key, pointer⟩) := by
  cases h with
  | anonymous hid => simp only [ofNode, hid, Option.toList_none, List.map_nil]
  | unjoined hid hjoin => simp only [ofNode, hid, hjoin, Option.toList_none, List.map_nil]
  | @anchor id fragment joined hid hjoin hlocal hfragment hnonempty =>
    have hanchor : (joined.fragment.any (!·.isEmpty) && id.toList.head? == some '#') = true := by
      rw [hfragment, Bool.and_eq_true]
      exact ⟨by simpa using hnonempty, hlocal⟩
    simp only [ofNode, hid, hjoin, hanchor, if_true, Option.toList_some, List.map_cons, List.map_nil]
  | @url id joined hid hjoin hplain =>
    have hurl : (joined.fragment.any (!·.isEmpty) && id.toList.head? == some '#') = false := by
      rw [Bool.and_eq_false_iff, or_iff_not_imp_right, Bool.not_eq_false]
      intro hlocal
      cases hfragment : joined.fragment with
      | none => rfl
      | some fragment =>
        rw [hplain hlocal fragment hfragment]
        rfl
    simp only [ofNode, hid, hjoin, hurl, Bool.false_eq_true, if_false, Option.toList_some,
      List.map_cons, List.map_nil]

theorem exists_reads (draft : Draft) (base : Url) (members : Members) :
    ∃ inner claimed, Reads draft base members inner claimed := by
  cases hid : draft.idOf? members with
  | none => exact ⟨_, _, .anonymous hid⟩
  | some id =>
    cases hjoin : base.join id with
    | error e => exact ⟨_, _, .unjoined hid hjoin⟩
    | ok joined =>
      by_cases hanchor : Url.isLocal id = true ∧
          ∃ fragment, joined.fragment = some fragment ∧ fragment ≠ ""
      · obtain ⟨hlocal, fragment, hfragment, hnonempty⟩ := hanchor
        exact ⟨_, _, .anchor hid hjoin hlocal hfragment hnonempty⟩
      · refine ⟨_, _, .url hid hjoin fun hlocal fragment hfragment => ?_⟩
        exact by_contra fun hnonempty => hanchor ⟨hlocal, fragment, hfragment, hnonempty⟩

theorem Searched.at?_eq {base' : Url} {found : Json} (h : Searched draft base value pointer base' found) :
    value.at? pointer = some found := by
  induction h with
  | here => rfl
  | member _ hget _ _ ih =>
    rw [Json.at?, Json.child?, hget]
    exact ih
  | item hget _ ih =>
    rw [Json.at?, Json.child?_position, hget]
    exact ih

theorem Searched.trans {middle last : Url} {found part : Json}
    (h : Searched draft base value pointer middle found)
    (h' : Searched draft middle found rest last part) :
    Searched draft base value (pointer ++ rest) last part := by
  induction h with
  | here => exact h'
  | member hreads hget hkey _ ih => exact .member hreads hget hkey (ih h')
  | item hget _ ih => exact .item hget (ih h')

/-! ## The claims in order -/

theorem collectMembers_eq (draft : Draft) (base : Url) (pointer : Pointer) (members : Members) :
    collectMembers draft base pointer members = members.flatMap fun member =>
      if member.1 ∈ dataKeywords then [] else collect draft base (pointer ++ [member.1]) member.2 := by
  induction members with
  | nil => rfl
  | cons member rest ih => rw [collectMembers, ih, List.flatMap_cons]

theorem collectItems_eq (draft : Draft) (base : Url) (pointer : Pointer) (position : Nat)
    (items : List Json) :
    collectItems draft base pointer position items = (items.zipIdx position).flatMap fun item =>
      collect draft base (pointer ++ [toString item.2]) item.1 := by
  induction items generalizing position with
  | nil => rfl
  | cons item rest ih => rw [collectItems, ih, List.zipIdx_cons, List.flatMap_cons]

theorem mem_collect_object (hreads : Reads draft base members inner claimed) :
    claim ∈ collect draft base pointer (.object members) ↔
      (claimed = some claim.key ∧ claim.pointer = pointer) ∨
        ∃ token part, (token, part) ∈ members ∧ token ∉ dataKeywords ∧
          claim ∈ collect draft inner (pointer ++ [token]) part := by
  rw [collect, hreads.ofNode_eq]
  simp only [List.mem_append, collectMembers_eq, List.mem_flatMap, Prod.exists]
  apply or_congr
  · cases claimed <;> cases claim <;> simp [eq_comm]
  · refine exists_congr fun token => exists_congr fun part => and_congr_right fun _ => ?_
    by_cases hkey : token ∈ dataKeywords
    · simp [hkey]
    · simp [hkey]

theorem mem_collect_array {items : List Json} :
    claim ∈ collect draft base pointer (.array items) ↔
      ∃ (position : Nat) (part : Json), items[position]? = some part ∧
        claim ∈ collect draft base (pointer ++ [toString position]) part := by
  simp only [collect, collectItems_eq, List.mem_flatMap, Prod.exists, List.mk_mem_zipIdx_iff_getElem?]
  exact exists_comm

theorem Searched.collect {base' : Url} {found : Json}
    (h : Searched draft base value rest base' found)
    (hclaim : claim ∈ Claim.collect draft base' (pointer ++ rest) found) :
    claim ∈ Claim.collect draft base pointer value := by
  induction h generalizing pointer with
  | here => rwa [List.append_nil] at hclaim
  | member hreads hget hkey _ ih =>
    apply (mem_collect_object hreads).mpr
    refine .inr ⟨_, _, Members.mem_of_get? hget, hkey, ih ?_⟩
    rwa [List.append_assoc]
  | item hget _ ih =>
    apply mem_collect_array.mpr
    refine ⟨_, _, hget, ih ?_⟩
    rwa [List.append_assoc]

theorem exists_claims {value : Json} {base : Url} {pointer : Pointer}
    (hkeys : value.everyObject Members.distinct = true)
    (h : claim ∈ collect draft base pointer value) :
    ∃ rest node, claim.pointer = pointer ++ rest ∧ Claims draft base value claim.key rest node := by
  match value with
  | .object members =>
    have hdistinct : (members.map Prod.fst).Nodup := of_decide_eq_true (Json.everyObject_self hkeys)
    obtain ⟨inner, claimed, hreads⟩ := exists_reads draft base members
    rcases (mem_collect_object hreads).mp h with ⟨rfl, rfl⟩ | ⟨token, part, hmem, hkey, hclaim⟩
    · exact ⟨[], members, (List.append_nil _).symm, base, inner, .here base _, hreads⟩
    · have hpart := (Json.Within.member hmem (.refl part)).everyObject hkeys
      obtain ⟨rest, node, hpointer, base', inner', hsearched, hreads'⟩ := exists_claims hpart hclaim
      refine ⟨token :: rest, node, ?_, base', inner', ?_, hreads'⟩
      · rw [hpointer, List.append_assoc, List.singleton_append]
      · exact .member hreads (Members.get?_of_mem hdistinct hmem) hkey hsearched
  | .array items =>
    obtain ⟨position, part, hget, hclaim⟩ := mem_collect_array.mp h
    have hpart := (Json.Within.item (List.mem_of_getElem? hget) (.refl part)).everyObject hkeys
    obtain ⟨rest, node, hpointer, base', inner', hsearched, hreads'⟩ := exists_claims hpart hclaim
    refine ⟨toString position :: rest, node, ?_, base', inner', .item hget hsearched, hreads'⟩
    rw [hpointer, List.append_assoc, List.singleton_append]
  | .null | .bool _ | .number _ | .string _ => simp [collect] at h
termination_by value.height
decreasing_by
  · exact Json.height_member hmem
  · exact Json.height_item (List.mem_of_getElem? hget)

/-- The claims in a value are those of the nodes in it. -/
theorem mem_collect (hkeys : value.everyObject Members.distinct = true) :
    claim ∈ collect draft base pointer value ↔
      ∃ rest node, claim.pointer = pointer ++ rest ∧ Claims draft base value claim.key rest node := by
  constructor
  · exact exists_claims hkeys
  · rintro ⟨rest, node, hpointer, base', inner', hsearched, hreads⟩
    apply hsearched.collect
    exact (mem_collect_object hreads).mpr (.inl ⟨rfl, hpointer⟩)

/-- One claim before the other, in the order of the nodes that they lead to. -/
def Ordered (value : Json) (pointer : Pointer) (claim later : Claim) : Prop :=
  ∃ rest rest', claim.pointer = pointer ++ rest ∧ later.pointer = pointer ++ rest' ∧
    value.Precedes rest rest'

theorem ordered_parts {parts : List (String × Json)} {claims : String × Json → List Claim}
    (hchild : ∀ part ∈ parts, value.child? part.1 = some part.2)
    (hrank : parts.Pairwise fun part later => value.rank part.1 < value.rank later.1)
    (hinside : ∀ part ∈ parts, ∀ claim ∈ claims part,
      ∃ rest, claim.pointer = pointer ++ part.1 :: rest)
    (hclaims : ∀ part ∈ parts, (claims part).Pairwise (Ordered part.2 (pointer ++ [part.1]))) :
    (parts.flatMap claims).Pairwise (Ordered value pointer) := by
  refine List.pairwise_flatMap.mpr ⟨fun part hpart => ?_, ?_⟩
  · refine (hclaims part hpart).imp ?_
    rintro claim later ⟨rest, rest', hclaim, hlater, hprecedes⟩
    rw [List.append_assoc] at hclaim hlater
    exact ⟨_, _, hclaim, hlater, Json.precedes_within (hchild part hpart) hprecedes⟩
  · refine hrank.imp_of_mem fun {part later} hpart hlater hlt claim hclaim claim' hclaim' => ?_
    obtain ⟨rest, hpointer⟩ := hinside part hpart claim hclaim
    obtain ⟨rest', hpointer'⟩ := hinside later hlater claim' hclaim'
    exact ⟨_, _, hpointer, hpointer', Json.precedes_of_rank hlt rest rest'⟩

theorem collect_inside {value : Json} {base : Url} {token : String}
    (hkeys : value.everyObject Members.distinct = true)
    (h : claim ∈ collect draft base (pointer ++ [token]) value) :
    ∃ rest, claim.pointer = pointer ++ token :: rest := by
  obtain ⟨rest, -, hpointer, -⟩ := (mem_collect hkeys).mp h
  exact ⟨rest, by rw [hpointer, List.append_assoc]; rfl⟩

theorem ordered_object (hkeys : (Json.object members).everyObject Members.distinct = true)
    (h : ∀ base, ∀ member ∈ members, (collect draft base (pointer ++ [member.1]) member.2).Pairwise
      (Ordered member.2 (pointer ++ [member.1]))) :
    (collect draft base pointer (.object members)).Pairwise (Ordered (.object members) pointer) := by
  have hdistinct : (members.map Prod.fst).Nodup := of_decide_eq_true (Json.everyObject_self hkeys)
  obtain ⟨inner, claimed, hreads⟩ := exists_reads draft base members
  have hinside : ∀ member ∈ members, ∀ claim ∈ (if member.1 ∈ dataKeywords then [] else
      collect draft inner (pointer ++ [member.1]) member.2),
      ∃ rest, claim.pointer = pointer ++ member.1 :: rest := by
    intro member hmem claim hclaim
    split at hclaim
    · cases hclaim
    · exact collect_inside ((Json.Within.member hmem (.refl _)).everyObject hkeys) hclaim
  simp only [collect, hreads.ofNode_eq, collectMembers_eq]
  refine List.pairwise_append.mpr ⟨?_, ordered_parts ?_ ?_ hinside ?_, ?_⟩
  · cases claimed <;> simp
  · exact fun member hmem => Members.get?_of_mem hdistinct hmem
  · rw [List.pairwise_iff_getElem]
    intro i j hi hj hlt
    rwa [Json.rank_key hdistinct hi, Json.rank_key hdistinct hj]
  · intro member hmem
    split
    · exact .nil
    · exact h inner member hmem
  · -- The node stands before whatever is in its members.
    intro claim hclaim later hlater
    obtain ⟨member, hmem, hlater⟩ := List.mem_flatMap.mp hlater
    obtain ⟨rest, hrest⟩ := hinside member hmem later hlater
    obtain ⟨key, -, rfl⟩ := List.mem_map.mp hclaim
    exact ⟨[], member.1 :: rest, (List.append_nil _).symm, hrest, Json.precedes_inside _ _ _⟩

theorem ordered_array {items : List Json}
    (hkeys : (Json.array items).everyObject Members.distinct = true)
    (h : ∀ (position : Nat), ∀ item ∈ items,
      (collect draft base (pointer ++ [toString position]) item).Pairwise
        (Ordered item (pointer ++ [toString position]))) :
    (collect draft base pointer (.array items)).Pairwise (Ordered (.array items) pointer) := by
  have hget {item : Json × Nat} (hmem : item ∈ items.zipIdx) : items[item.2]? = some item.1 :=
    List.mk_mem_zipIdx_iff_getElem?.mp hmem
  have hparts : collect draft base pointer (.array items) =
      (items.zipIdx.map fun item => (toString item.2, item.1)).flatMap fun part =>
        collect draft base (pointer ++ [part.1]) part.2 := by
    rw [collect, collectItems_eq, List.flatMap_map]
  rw [hparts]
  apply ordered_parts
  · refine List.forall_mem_map.mpr fun item hmem => ?_
    rw [Json.child?_position, hget hmem]
  · rw [List.pairwise_map, List.pairwise_iff_getElem]
    intro i j hi hj hlt
    rw [Json.rank_position, Json.rank_position, List.getElem_zipIdx, List.getElem_zipIdx]
    omega
  · refine List.forall_mem_map.mpr fun item hmem claim hclaim => ?_
    have hitem := Json.Within.item (List.mem_of_getElem? (hget hmem)) (.refl item.1)
    exact collect_inside (hitem.everyObject hkeys) hclaim
  · exact List.forall_mem_map.mpr fun item hmem => h _ _ (List.mem_of_getElem? (hget hmem))

theorem collect_ordered {value : Json} {base : Url} {pointer : Pointer}
    (hkeys : value.everyObject Members.distinct = true) :
    (collect draft base pointer value).Pairwise (Ordered value pointer) := by
  match value with
  | .object members =>
    apply ordered_object hkeys
    intro base member hmem
    exact collect_ordered ((Json.Within.member hmem (.refl _)).everyObject hkeys)
  | .array items =>
    apply ordered_array hkeys
    intro position item hmem
    exact collect_ordered ((Json.Within.item hmem (.refl _)).everyObject hkeys)
  | .null | .bool _ | .number _ | .string _ => simp [collect]
termination_by value.height
decreasing_by
  · exact Json.height_member (show (member.1, member.2) ∈ members from hmem)
  · exact Json.height_item hmem

end

end Claim

/-! ## The first claim -/

namespace Document

/-- In a document the node at a pointer claims a key. -/
def Claims (document : Document) (key : String) (pointer : Pointer) (node : Members) : Prop :=
  Claim.Claims (Draft.detectIn document.schema) document.url.withoutFragment document.schema key
    pointer node

/-- No node claims the key before the node at the pointer does. -/
def FirstClaims (document : Document) (key : String) (pointer : Pointer) (node : Members) : Prop :=
  document.Claims key pointer node ∧
    ∀ other node', document.Claims key other node' →
      other = pointer ∨ document.schema.Precedes pointer other

variable {document : Document} {key : String} {pointer : Pointer} {node : Members}

theorem Claims.at?_eq (h : document.Claims key pointer node) :
    document.schema.at? pointer = some (.object node) := by
  obtain ⟨_, _, hsearched, -⟩ := h
  exact hsearched.at?_eq

theorem mem_claims (hkeys : document.schema.everyObject Members.distinct = true) {claim : Claim} :
    claim ∈ document.claims ↔ ∃ node, document.Claims claim.key claim.pointer node := by
  rw [claims, Claim.mem_collect hkeys]
  constructor
  · rintro ⟨rest, node, rfl, h⟩
    exact ⟨node, h⟩
  · rintro ⟨node, h⟩
    exact ⟨claim.pointer, node, rfl, h⟩

theorem claimed?_eq_none (hkeys : document.schema.everyObject Members.distinct = true) :
    document.claimed? key = none ↔ ∀ pointer node, ¬ document.Claims key pointer node := by
  rw [claimed?, Option.map_eq_none_iff, List.find?_eq_none]
  constructor
  · intro h pointer node hclaims
    exact h ⟨key, pointer⟩ ((mem_claims hkeys).mpr ⟨node, hclaims⟩) (beq_self_eq_true key)
  · intro h claim hmem hkey
    obtain ⟨node, hclaims⟩ := (mem_claims hkeys).mp hmem
    exact h claim.pointer node (eq_of_beq hkey ▸ hclaims)

/-- The first of the claims of a key in the text is that of the first node that claims it. -/
theorem firstClaims_of_claimed? (hkeys : document.schema.everyObject Members.distinct = true)
    (h : document.claimed? key = some pointer) : ∃ node, document.FirstClaims key pointer node := by
  obtain ⟨claim, hfind, rfl⟩ := Option.map_eq_some_iff.mp h
  obtain ⟨hkey, before, after, hclaims, hnone⟩ := List.find?_eq_some_iff_append.mp hfind
  obtain rfl := eq_of_beq hkey
  obtain ⟨node, hnode⟩ := (mem_claims hkeys).mp (List.mem_of_find?_eq_some hfind)
  refine ⟨node, hnode, fun other node' hother => ?_⟩
  have hmem : ⟨claim.key, other⟩ ∈ document.claims := (mem_claims hkeys).mpr ⟨node', hother⟩
  have hordered : document.claims.Pairwise (Claim.Ordered document.schema []) :=
    Claim.collect_ordered hkeys
  rw [hclaims] at hmem hordered
  rcases List.mem_append.mp hmem with hbefore | hmem
  · have hother := hnone _ hbefore
    rw [beq_self_eq_true, Bool.not_true] at hother
    cases hother
  · rcases List.mem_cons.mp hmem with heq | hafter
    · exact .inl (congrArg Claim.pointer heq)
    · have hlater := List.rel_of_pairwise_cons (List.pairwise_append.mp hordered).2.1 hafter
      obtain ⟨rest, rest', rfl, rfl, hprecedes⟩ := hlater
      exact .inr hprecedes

theorem claimed?_eq_some (hkeys : document.schema.everyObject Members.distinct = true) :
    document.claimed? key = some pointer ↔ ∃ node, document.FirstClaims key pointer node := by
  refine ⟨firstClaims_of_claimed? hkeys, ?_⟩
  rintro ⟨node, hclaims, hfirst⟩
  cases hclaimed : document.claimed? key with
  | none => exact absurd hclaims ((claimed?_eq_none hkeys).mp hclaimed pointer node)
  | some other =>
    obtain ⟨node', hclaims', hfirst'⟩ := firstClaims_of_claimed? hkeys hclaimed
    rcases hfirst _ _ hclaims' with rfl | hbefore
    · rfl
    · rcases hfirst' _ _ hclaims with rfl | hafter
      · rfl
      · exact absurd hafter hbefore.asymm

end Document

end SchemaShape
