import SchemaShape.Proofs.Meaning
import SchemaShape.Proofs.Narrowing.Levels

/-! # What a narrowed schema describes

`value.Reaches path part` says that a path leads from a value to a part of it, through all elements of
the arrays on the way. If narrowing leads along the same path from a schema to a narrowed one, then
the parts that are reached in a valid value are valid for the narrowed schema.

At an array narrowing goes on with one schema that holds what the array and its items say together, and
if that is none of objects it stops there, whatever is left of the path. The objects behind an array are
valid for what its items say, though, and not for what the array itself says. So the items have to back
what narrowing takes from the merged schema: of the property that it goes on to, or, where the path ends,
of objects. They do where a list of objects says itself which properties these have, whatever else the
lists around it say. Where the rest of the path reaches nothing in the objects, nothing is asked of them.
-/

namespace SchemaShape
set_option autoImplicit false

open Narrowing

/-- The path leads from the value to the part. -/
inductive Json.Reaches : Json → List String → Json → Prop where
  | here (value : Json) : Reaches value [] value
  | item {items : List Json} {item part : Json} {segment : String} {rest : List String}
      (mem : item ∈ items) (h : Reaches item (segment :: rest) part) :
      Reaches (array items) (segment :: rest) part
  | self {members : Members} {part : Json} {rest : List String}
      (h : Reaches (object members) rest part) : Reaches (object members) (selfSegment :: rest) part
  | member {members : Members} {value part : Json} {segment : String} {rest : List String}
      (hne : segment ≠ selfSegment) (hget : Members.get? members segment = some value)
      (h : Reaches value rest part) : Reaches (object members) (segment :: rest) part

/-- The keywords that narrowing goes by. -/
def Keyword.structural : List Keyword := [type, properties, required, items]

namespace Narrowing

/-! ## What schemas say -/

def structuralNames : List String := ["type", "properties", "required", "items"]

/-- The `type` of a schema leaves room for a value. -/
def Allows (draft : Draft) (schema value : Json) : Prop :=
  match schema with
  | .bool admitted => admitted = true
  | .object members => ∀ type, ("type", type) ∈ members → typeAdmits draft type value
  | _ => True

/-- The schema says of a property that its values are valid for the part. -/
def Gives (schema : Json) (key : String) (part : Json) : Prop :=
  ∃ members properties, schema = .object members ∧ ("properties", .object properties) ∈ members ∧
    (key, part) ∈ properties

def Requires (schema : Json) (name : String) : Prop :=
  ∃ members names, schema = .object members ∧ ("required", .array names) ∈ members ∧
    .string name ∈ names

/-- The schema of the elements of an array. -/
def elements : Json → Json
  | .object members =>
    match Members.get? members "items" with
    | none => .bool true
    | some (.array _) => .bool true
    | some item => item
  | other => other

/-- The schemas of the objects behind all levels of an array. The empty values stand for all objects and
for all arrays: how they are filled does not matter to a `type`. -/
inductive Behind (draft : Draft) : Json → Json → Prop where
  | here {schema : Json} (h : Allows draft schema (.object [])) : Behind draft schema schema
  | level {schema inner : Json} (hallows : Allows draft schema (.array []))
      (h : Behind draft (elements schema) inner) : Behind draft schema inner

/-- The schema says nothing. -/
def Silent (draft : Draft) (schema : Json) : Prop :=
  ∀ value, schema.Valid Keyword.structural draft value

/-- Whatever the path reaches in objects that are valid for the schema is valid for the part. -/
def Describes (draft : Draft) (schema : Json) (path : List String) (part : Json) : Prop :=
  ∀ own value, schema.Valid Keyword.structural draft (.object own) →
    (Json.object own).Reaches path value → part.Valid Keyword.structural draft value

/-- Whatever the schema gives for a property is valid for the part too. -/
def Implies (draft : Draft) (schema : Json) (key : String) (part : Json) : Prop :=
  ∀ value, (∀ own, Gives schema key own → own.Valid Keyword.structural draft value) →
    part.Valid Keyword.structural draft value

/-- What is taken from the merged schema along the path is said by the schema of the objects too: what it
gives for the property that the path goes on to, or all that it says of objects where the path ends. -/
def Backed (draft : Draft) (path : List String) (merged : Members) (inner : Json) : Prop :=
  match path.find? (· ≠ selfSegment) with
  | some key => typeIs merged "object" = true ∧
      ∀ part, Gives (.object merged) key part → Implies draft inner key part
  | none => Allows draft (.object merged) (.object []) ∧
      (∀ key part, Gives (.object merged) key part → Implies draft inner key part) ∧
      ∀ name, Requires (.object merged) name → Requires inner name

/-- At all arrays along the path what narrowing takes from the merged schema is backed by the schemas of the
objects, unless the rest of the path reaches nothing in these, or nothing but what is valid for the merged
schema where narrowing stops. -/
def Faithful (draft : Draft) (schema : Members) : List String → Prop
  | [] => True
  | segment :: rest =>
    if typeIs schema "array" then
      ∀ item, unwrap segment schema (schema.get? "items") = .ok item →
        (∀ inner, Behind draft (.object schema) inner → Backed draft (segment :: rest) item inner ∨
          Describes draft inner (segment :: rest)
            (if typeIs item "object" then .bool false else .object item)) ∧
        (typeIs item "object" = true →
          ∀ next, property segment item = .ok next → Faithful draft next rest)
    else ∀ next, property segment schema = .ok next → Faithful draft next rest

/-! ## Structural validity -/

section

variable {draft : Draft} {members members' : Members} {schema inner value part : Json} {key : String}
variable {own own' : Members} {items : List Json} {segment : String} {path rest : List String}

theorem valid_structural_iff : (Json.object members).Valid Keyword.structural draft value ↔
    Allows draft (.object members) value ∧
      (∀ key part, Gives (.object members) key part → ∀ inner, value.get? key = some inner →
        part.Valid Keyword.structural draft inner) ∧
      (∀ name, Requires (.object members) name → ∀ own, value = .object own →
        (Members.get? own name).isSome) ∧
      ∀ item, ("items", item) ∈ members → ∀ values, value = .array values → ∀ inner ∈ values,
        (∀ items, item ≠ .array items) → item.Valid Keyword.structural draft inner := by
  constructor
  · intro h
    refine ⟨fun type => h.type (by decide), ?_, ?_, ?_⟩
    · rintro key part ⟨_, properties, ⟨⟩, mem, hpart⟩ inner hget
      exact h.property (by decide) mem hpart hget
    · rintro name ⟨_, names, ⟨⟩, mem, hname⟩ own rfl
      exact h.required (by decide) mem hname
    · rintro item mem values rfl inner hinner hitem
      exact h.item (by decide) mem hitem hinner
  · rintro ⟨htype, hproperties, hrequired, hitems⟩
    rw [Json.Valid]
    refine ⟨fun _ => htype, fun hread => absurd hread (by decide),
      fun _ properties mem key part hpart => hproperties key part ⟨_, properties, rfl, mem, hpart⟩,
      fun _ names mem name hname => hrequired name ⟨_, names, rfl, mem, hname⟩, fun _ => hitems,
      fun hread => absurd hread (by decide), fun hread => absurd hread (by decide),
      fun hread => absurd hread (by decide), fun hread => absurd hread (by decide),
      fun hread => absurd hread (by decide)⟩

theorem valid_of_subset
    (hsub : ∀ key ∈ structuralNames, ∀ part, (key, part) ∈ members' → (key, part) ∈ members)
    (h : (Json.object members).Valid Keyword.structural draft value) :
    (Json.object members').Valid Keyword.structural draft value := by
  obtain ⟨htype, hproperties, hrequired, hitems⟩ := valid_structural_iff.mp h
  refine valid_structural_iff.mpr ⟨fun type mem => htype type (hsub _ (by decide) _ mem), ?_, ?_,
    fun item mem => hitems item (hsub _ (by decide) _ mem)⟩
  · rintro key part ⟨_, properties, ⟨⟩, mem, hpart⟩
    exact hproperties key part ⟨_, properties, rfl, hsub _ (by decide) _ mem, hpart⟩
  · rintro name ⟨_, names, ⟨⟩, mem, hname⟩
    exact hrequired name ⟨_, names, rfl, hsub _ (by decide) _ mem, hname⟩

theorem valid_of_gives (h : schema.Valid Keyword.structural draft value) (hgives : Gives schema key part)
    (hget : value.get? key = some inner) : part.Valid Keyword.structural draft inner := by
  obtain ⟨members, properties, rfl, mem, hpart⟩ := hgives
  exact h.property (by decide) mem hpart hget

theorem valid_of_implies (h : Implies draft schema key part)
    (hvalid : schema.Valid Keyword.structural draft value) (hget : value.get? key = some inner) :
    part.Valid Keyword.structural draft inner :=
  h inner fun _ hgives => valid_of_gives hvalid hgives hget

theorem implies_of_gives (h : Gives schema key part) : Implies draft schema key part :=
  fun _ hvalid => hvalid part h

theorem allows_of_valid (h : schema.Valid Keyword.structural draft value) :
    Allows draft schema value := by
  cases schema with
  | bool admitted =>
    rw [Json.Valid] at h
    exact h
  | object members => exact fun type mem => h.type (by decide) mem
  | _ => trivial

theorem typeAdmits_congr {type value value' : Json}
    (h : ∀ type : TypeName, type.Admits draft value ↔ type.Admits draft value') :
    typeAdmits draft type value ↔ typeAdmits draft type value' := by
  cases type <;> simp only [typeAdmits, nameAdmits, h]

theorem allows_congr {value value' : Json}
    (h : ∀ type : TypeName, type.Admits draft value ↔ type.Admits draft value') :
    Allows draft schema value ↔ Allows draft schema value' := by
  cases schema <;> simp only [Allows, typeAdmits_congr h]

theorem allows_object : Allows draft schema (.object own) ↔ Allows draft schema (.object own') :=
  allows_congr fun type => by cases type <;> rfl

theorem allows_array {items' : List Json} :
    Allows draft schema (.array items) ↔ Allows draft schema (.array items') :=
  allows_congr fun type => by cases type <;> rfl

/-! ## Looking through arrays -/

theorem valid_elements (h : schema.Valid Keyword.structural draft (.array items))
    (mem : value ∈ items) : (elements schema).Valid Keyword.structural draft value := by
  cases schema with
  | object members =>
    rw [elements]
    split
    · rw [Json.Valid]
    · rw [Json.Valid]
    · next item hlist hitem =>
      refine h.item (by decide) (Members.mem_of_get? hitem) ?_ mem
      rintro schemas rfl
      exact hlist schemas rfl
  | bool admitted => simpa [elements, Json.Valid] using h
  | _ => simp [elements, Json.Valid]

/-- What a path reaches in a valid value it reaches in an object, and that is valid for the schema of one
of the objects behind all arrays. -/
theorem reaches_behind
    (hvalid : schema.Valid Keyword.structural draft value)
    (hreach : value.Reaches (segment :: rest) part) :
    ∃ inner own, Behind draft schema inner ∧ inner.Valid Keyword.structural draft (.object own) ∧
      (Json.object own).Reaches (segment :: rest) part := by
  generalize hpath : segment :: rest = path at hreach
  induction hreach generalizing schema with
  | here => cases hpath
  | item mem _ ih =>
    obtain ⟨inner, own, hbehind, hrest⟩ := ih (valid_elements hvalid mem) hpath
    exact ⟨inner, own, .level (allows_array.mp (allows_of_valid hvalid)) hbehind, hrest⟩
  | @self members part rest h _ =>
    exact ⟨schema, members, .here (allows_object.mp (allows_of_valid hvalid)), hvalid, .self h⟩
  | @member members _ part _ rest hne hget h _ =>
    exact ⟨schema, members, .here (allows_object.mp (allows_of_valid hvalid)), hvalid,
      .member hne hget h⟩

theorem valid_of_backed (hpath : ∀ segment ∈ path, segment = selfSegment)
    (h : Backed draft path members inner)
    (hvalid : inner.Valid Keyword.structural draft (.object own)) :
    (Json.object members).Valid Keyword.structural draft (.object own) := by
  have hnone : path.find? (· ≠ selfSegment) = none := by simpa using hpath
  rw [Backed, hnone] at h
  obtain ⟨hallows, hgives, hrequires⟩ := h
  refine valid_structural_iff.mpr ⟨allows_object.mp hallows,
    fun key part hpart value hget => valid_of_implies (hgives key part hpart) hvalid hget, ?_, ?_⟩
  · rintro name hname _ ⟨⟩
    obtain ⟨members, names, rfl, mem, hname⟩ := hrequires name hname
    exact hvalid.required (by decide) mem hname
  · rintro item mem values ⟨⟩

/-- Where narrowing stops early, a path that ends is all that can be backed. -/
theorem Backed.ends (h : Backed draft path members inner) (hobject : typeIs members "object" = false) :
    ∀ segment ∈ path, segment = selfSegment := by
  rw [Backed] at h
  split at h
  · exact absurd h.1 (ne_true_of_eq_false hobject)
  · next hnone => simpa using hnone

theorem reaches_self (hpath : ∀ segment ∈ path, segment = selfSegment)
    (h : (Json.object own).Reaches path part) : part = .object own := by
  generalize hvalue : Json.object own = value at h
  induction h with
  | here => rfl
  | item => cases hvalue
  | self _ ih => exact ih (fun segment mem => hpath segment (List.mem_cons_of_mem _ mem)) hvalue
  | member hne => exact absurd (hpath _ (List.mem_cons_self ..)) hne

theorem Backed.describes (h : Backed draft path members inner)
    (hobject : typeIs members "object" = false) : Describes draft inner path (.object members) := by
  intro own value hvalid hreach
  have hends := h.ends hobject
  rw [reaches_self hends hreach]
  exact valid_of_backed hends h hvalid

/-! ## Lists of objects -/

/-- A list of objects that are described by the item schema, or a list of such lists. -/
inductive ListOf (item : Members) : Members → Prop where
  | items {list : Members} (hlist : typeIs list "array" = true)
      (hitems : list.get? "items" = some (.object item)) (hobject : typeIs item "object" = true) :
      ListOf item list
  | level {list inner : Members} (hlist : typeIs list "array" = true)
      (hitems : list.get? "items" = some (.object inner)) (h : ListOf item inner) : ListOf item list

section

variable {item list acc merged : Members} {value : Json}

theorem ListOf.typed (h : ListOf item list) : typeIs list "array" = true := by
  cases h with
  | items hlist => exact hlist
  | level hlist => exact hlist

theorem ListOf.object (h : ListOf item list) : typeIs item "object" = true := by
  induction h with
  | items _ _ hobject => exact hobject
  | level _ _ _ ih => exact ih

theorem not_allows {name : String} {type : TypeName} (h : typeIs members name = true)
    (hname : TypeName.ofString? name = some type) (hvalue : ¬ type.Admits draft value) :
    ¬ Allows draft (.object members) value :=
  fun hallows => hvalue (hallows _ (Members.mem_of_get? (get?_of_typeIs h)) type hname)

theorem elements_object (h : list.get? "items" = some (.object item)) :
    elements (.object list) = .object item := by
  rw [elements, h]

theorem ListOf.behind (h : ListOf item list) (hbehind : Behind draft (.object list) inner) :
    inner = .object item := by
  induction h with
  | items hlist hitems hobject =>
    cases hbehind with
    | here hallows => exact absurd hallows (not_allows hlist rfl id)
    | level _ hbehind =>
      rw [elements_object hitems] at hbehind
      cases hbehind with
      | here => rfl
      | level hallows => exact absurd hallows (not_allows hobject rfl id)
  | level hlist hitems _ ih =>
    cases hbehind with
    | here hallows => exact absurd hallows (not_allows hlist rfl id)
    | level _ hbehind =>
      rw [elements_object hitems] at hbehind
      exact ih hbehind

theorem ListOf.merges (segment : String) (h : ListOf item list)
    (formed : (Json.object list).wellFormed = true) (distinct : (acc.map Prod.fst).Nodup)
    (harray : typeIs acc "array" = true) :
    ∃ merged, unwrap segment acc (list.get? "items") = .ok merged ∧
      (merged.map Prod.fst).Nodup ∧
      ∀ key value, item.get? key = some value → merged.get? key = some value := by
  -- What is left of a level is an array again, until the objects are reached.
  induction h generalizing acc with
  | items _ hitems hobject =>
    have distinctItem := (Json.wellFormed_object_iff.mp (Json.wellFormed_get? formed hitems)).1
    have hget := get?_level distinct distinctItem
    have htype : typeIs ((acc.remove "items").extend item) "object" = true :=
      typeIs_of_get? (by rw [hget, get?_of_typeIs hobject, Option.some_or])
    refine ⟨(acc.remove "items").extend item, ?_,
      Members.distinct_extend (Members.distinct_remove distinct), fun key value hvalue => ?_⟩
    · rw [hitems, unwrap_level harray, unwrap_flat (not_array_of_object htype)]
    · rw [hget, hvalue, Option.some_or]
  | @level _ inner _ hitems h ih =>
    have formedInner := Json.wellFormed_get? formed hitems
    have htype : typeIs ((acc.remove "items").extend inner) "array" = true := by
      refine typeIs_of_get? ?_
      rw [get?_level distinct (Json.wellFormed_object_iff.mp formedInner).1,
        get?_of_typeIs h.typed, Option.some_or]
    rw [hitems, unwrap_level harray]
    exact ih formedInner (Members.distinct_extend (Members.distinct_remove distinct)) htype

/-- A list of objects that says itself which properties these have backs every path to one of them. -/
theorem ListOf.backed {key : String} (h : ListOf item list)
    (formed : (Json.object list).wellFormed = true)
    (hunwrap : unwrap segment list (list.get? "items") = .ok merged)
    (hown : item.get? "properties" = some value)
    (hpath : path.find? (· ≠ selfSegment) = some key)
    (hbehind : Behind draft (.object list) inner) : Backed draft path merged inner := by
  obtain ⟨merged', hmerged, distinct, hget⟩ := h.merges segment formed
    (Json.wellFormed_object_iff.mp formed).1 h.typed
  rw [hunwrap] at hmerged
  cases hmerged
  rw [h.behind hbehind, Backed, hpath]
  refine ⟨typeIs_of_get? (hget _ _ (get?_of_typeIs h.object)), ?_⟩
  rintro part ⟨_, properties, ⟨⟩, mem, hpart⟩
  have hproperties := hget _ _ hown
  rw [Members.get?_of_mem distinct mem] at hproperties
  cases hproperties
  exact implies_of_gives ⟨item, properties, rfl, Members.mem_of_get? hown, hpart⟩

end

/-! ## Paths -/

theorem mem_of_mem_inherit {parent child : Members} {keyword key : String} {value : Json}
    (hne : key ≠ keyword) (h : (key, value) ∈ inherit parent child keyword) :
    (key, value) ∈ child := by
  rw [inherit] at h
  split at h
  · exact h
  · split at h
    · exact Members.mem_of_mem_set hne h
    · exact h

theorem mem_of_mem_appendTo {schema : Members} {keyword suffix key : String} {value : Json}
    (hne : key ≠ keyword) (h : (key, value) ∈ appendTo keyword suffix schema) :
    (key, value) ∈ schema := by
  rw [appendTo] at h
  split at h
  · exact Members.mem_of_mem_set hne h
  · exact h

theorem mem_of_mem_enterProperty {parent child : Members} {segment key : String} {value : Json}
    (hkey : key ∉ inheritedKeywords) (h : (key, value) ∈ enterProperty parent child segment) :
    (key, value) ∈ child := by
  simp only [inheritedKeywords, List.mem_cons, List.not_mem_nil, or_false, not_or] at hkey
  rw [enterProperty] at h
  have hinherited := mem_of_mem_appendTo hkey.2.1 (mem_of_mem_appendTo hkey.2.2 h)
  exact mem_of_mem_inherit hkey.1
    (mem_of_mem_inherit hkey.2.1 (mem_of_mem_inherit hkey.2.2 hinherited))

theorem valid_finish (h : (Json.object members).Valid Keyword.structural draft value) :
    (Json.object (finish members)).Valid Keyword.structural draft value := by
  rw [finish]
  split
  · exact valid_of_subset (fun _ _ _ mem => Members.mem_of_mem_remove mem) h
  · exact h

/-- Narrowing has come to a schema that the value is valid for, or to a merged one of which all that the
rest of the path takes is backed by what the value is valid for. -/
def Meets (draft : Draft) (path : List String) (members : Members) (value : Json) : Prop :=
  (Json.object members).Valid Keyword.structural draft value ∨
    typeIs members "object" = true ∧ ∃ inner own, value = .object own ∧
      inner.Valid Keyword.structural draft value ∧ Backed draft path members inner

theorem Meets.gives {child : Members} {properties : Members}
    (h : Meets draft (segment :: rest) members value) (hself : segment ≠ selfSegment)
    (hproperties : Members.get? members "properties" = some (.object properties))
    (hchild : Members.get? properties segment = some (.object child))
    (hget : value.get? segment = some inner) :
    (Json.object child).Valid Keyword.structural draft inner := by
  have hgives : Gives (.object members) segment (.object child) :=
    ⟨members, properties, rfl, Members.mem_of_get? hproperties, Members.mem_of_get? hchild⟩
  rcases h with hvalid | ⟨-, schema, own, -, hvalid, hbacked⟩
  · exact valid_of_gives hvalid hgives hget
  · rw [Backed, List.find?_cons_of_pos (by simpa using hself)] at hbacked
    exact valid_of_implies (hbacked.2 _ hgives) hvalid hget

theorem Meets.step {next : Members} (h : Meets draft (segment :: rest) members value)
    (hnext : property segment members = .ok next) (hreach : value.Reaches (segment :: rest) part)
    (harray : ∀ items, value ≠ .array items) :
    ∃ inner, Meets draft rest next inner ∧ inner.Reaches rest part := by
  obtain ⟨-, properties, hproperties, ⟨rfl, rfl⟩ | ⟨hself, child, hchild, rfl⟩⟩ := property_ok hnext
  · cases hreach with
    | item => exact absurd rfl (harray _)
    | self hreach =>
      refine ⟨_, h.imp_right ?_, hreach⟩
      rintro ⟨hobject, inner, own, hown, hvalid, hbacked⟩
      rw [Backed, List.find?_cons_of_neg (by simp)] at hbacked
      exact ⟨hobject, inner, own, hown, hvalid, hbacked⟩
    | member hne => exact absurd rfl hne
  · cases hreach with
    | item => exact absurd rfl (harray _)
    | self => exact absurd rfl hself
    | @member _ inner _ _ _ _ hget hreach =>
      have hkeys : ∀ key ∈ structuralNames, key ∉ inheritedKeywords := by decide
      exact ⟨inner, .inl (valid_of_subset (fun key hkey _ => mem_of_mem_enterProperty (hkeys key hkey))
        (h.gives hself hproperties hchild hget)), hreach⟩

theorem Meets.not_array (h : Meets draft path members value) (hobject : typeIs members "object" = true) :
    ∀ items, value ≠ .array items := by
  rintro items rfl
  rcases h with hvalid | ⟨-, _, _, ⟨⟩, _⟩
  exact hvalid.type (by decide) (Members.mem_of_get? (get?_of_typeIs hobject)) .object rfl

theorem Meets.valid (h : Meets draft path members value) (harray : typeIs members "array" = true) :
    (Json.object members).Valid Keyword.structural draft value := by
  refine h.resolve_right fun hmerged => ?_
  rw [not_array_of_object hmerged.1] at harray
  cases harray

theorem descend_describes {narrowed : Members} (h : descend members path = .ok narrowed)
    (hfaithful : Faithful draft members path) (hmeets : Meets draft path members value)
    (hreach : value.Reaches path part) :
    (Json.object narrowed).Valid Keyword.structural draft part := by
  -- Down the path the schema and the value move together: through arrays, and then to a member.
  have hdescent := descent_of_ok h
  clear h
  induction hdescent generalizing value with
  | done schema =>
    cases hreach
    rcases hmeets with hvalid | ⟨-, inner, own, rfl, hvalid, hbacked⟩
    · exact valid_finish hvalid
    · exact valid_finish (valid_of_backed (fun _ mem => absurd mem List.not_mem_nil) hbacked hvalid)
  | property harray hproperty _ ih =>
    rw [Faithful, if_neg (ne_true_of_eq_false harray)] at hfaithful
    obtain ⟨inner, hinner, hrest⟩ :=
      hmeets.step hproperty hreach (hmeets.not_array (property_ok hproperty).1)
    exact ih (hfaithful _ hproperty) hinner hrest
  | level harray hunwrap hobject _ ih =>
    rw [Faithful, if_pos harray] at hfaithful
    obtain ⟨hinners, hnext⟩ := hfaithful _ hunwrap
    obtain ⟨inner, own, hbehind, hinner, hreach⟩ := reaches_behind (hmeets.valid harray) hreach
    rcases hinners inner hbehind with hbacked | hnothing
    · refine ih ?_ (.inr ⟨hobject, inner, own, rfl, hinner, hbacked⟩) hreach
      rw [Faithful, if_neg (ne_true_of_eq_false (not_array_of_object hobject))]
      exact hnext hobject
    · have hfalse := hnothing own part hinner hreach
      rw [if_pos hobject, Json.Valid] at hfalse
      cases hfalse
  | stop harray hunwrap hobject =>
    rw [Faithful, if_pos harray] at hfaithful
    obtain ⟨inner, own, hbehind, hinner, hreach⟩ := reaches_behind (hmeets.valid harray) hreach
    have hdescribes := (hfaithful _ hunwrap).1 inner hbehind
    rw [if_neg (ne_true_of_eq_false hobject)] at hdescribes
    exact hdescribes.elim (·.describes hobject) id own part hinner hreach

end

end Narrowing

/-- A narrowed schema describes the parts that its path leads to, if at all arrays on the way the items back
what narrowing takes from the merged schema, or if it is left with nothing to say. -/
theorem narrow_describes {draft : Draft} {schema narrowed value part : Json} {path : List String}
    (h : narrow schema path = .ok narrowed)
    (hfaithful : (∀ root, schema = .object root → Faithful draft (kept root) path) ∨ Silent draft narrowed)
    (hvalid : schema.Valid Keyword.structural draft value) (hreach : value.Reaches path part) :
    narrowed.Valid Keyword.structural draft part := by
  cases schema with
  | object root =>
    rw [narrow] at h
    change (descend (kept root) path).map Json.object = .ok narrowed at h
    cases hdescend : descend (kept root) path with
    | error e =>
      rw [hdescend] at h
      cases h
    | ok result =>
      rw [hdescend] at h
      cases h
      rcases hfaithful with hfaithful | hsilent
      · have hkept : (Json.object (kept root)).Valid Keyword.structural draft value :=
          valid_of_subset (fun _ _ _ mem => (List.mem_filter.mp mem).1) hvalid
        exact descend_describes hdescend (hfaithful root rfl) (.inl hkept) hreach
      · exact hsilent part
  | _ => cases h

/-- An object of the given type, with a number `a`. -/
def recordSchema (type : Json) : Members :=
  [("type", type), ("properties", .object [("a", .object [("type", .string "number")])])]

/-- A list of such objects. What it requires is of no account to a list, but it is to objects. -/
def listSchema (type : Json) : Members :=
  [("type", .string "array"), ("required", .array [.string "b"]), ("items", .object (recordSchema type))]

def ownerSchema (type : Json) : Json :=
  .object [("type", .string "object"), ("properties", .object [("list", .object (listSchema type))])]

def mergedSchema (type : Json) : Members :=
  [("type", type), ("required", .array [.string "b"]),
    ("properties", .object [("a", .object [("type", .string "number")])])]

def record : Json := .object [("a", .number (.integer 1))]

def owner : Json := .object [("list", .array [record])]

theorem valid_typed {type value : Json} (h : typeAdmits .draft07 type value) :
    (Json.object [("type", type)]).Valid Keyword.structural .draft07 value := by
  refine valid_structural_iff.mpr ⟨?_, ?_, ?_, ?_⟩
  · intro type' mem
    obtain rfl : type' = type := by simpa using mem
    exact h
  · rintro key part ⟨_, properties, ⟨⟩, mem, -⟩
    simp at mem
  · rintro name ⟨_, names, ⟨⟩, mem, -⟩
    simp at mem
  · rintro item mem
    simp at mem

theorem valid_property {type part value : Json} {key : String}
    (h : typeAdmits .draft07 type (.object [(key, value)]))
    (hvalue : part.Valid Keyword.structural .draft07 value) :
    (Json.object [("type", type), ("properties", .object [(key, part)])]).Valid Keyword.structural
      .draft07 (.object [(key, value)]) := by
  refine valid_structural_iff.mpr ⟨?_, ?_, ?_, ?_⟩
  · intro type' mem
    obtain rfl : type' = type := by simpa using mem
    exact h
  · rintro key' part' ⟨_, properties, ⟨⟩, mem, hpart⟩ inner hget
    obtain rfl : properties = [(key, part)] := by simpa using mem
    cases List.mem_singleton.mp hpart
    rw [Json.get?, Members.get?_cons, if_pos rfl] at hget
    cases hget
    exact hvalue
  · rintro name ⟨_, names, ⟨⟩, mem, -⟩
    simp at mem
  · rintro item mem values ⟨⟩

theorem valid_owner {type : Json} (h : typeAdmits .draft07 type record) :
    (ownerSchema type).Valid Keyword.structural .draft07 owner := by
  have hnumber : typeAdmits .draft07 (.string "number") (.number (.integer 1)) := by
    rintro type ⟨⟩
    trivial
  have hrecord : (Json.object (recordSchema type)).Valid Keyword.structural .draft07 record :=
    valid_property h (valid_typed hnumber)
  have hlist : (Json.object (listSchema type)).Valid Keyword.structural .draft07 (.array [record]) := by
    refine valid_structural_iff.mpr ⟨?_, ?_, ?_, ?_⟩
    · intro type' mem
      obtain rfl : type' = .string "array" := by simpa [listSchema] using mem
      rintro type ⟨⟩
      trivial
    · rintro key part ⟨_, properties, ⟨⟩, mem, -⟩
      simp [listSchema] at mem
    · rintro name - own ⟨⟩
    · rintro item mem values ⟨⟩ inner hinner -
      obtain rfl : item = .object (recordSchema type) := by simpa [listSchema] using mem
      cases List.mem_singleton.mp hinner
      exact hrecord
  refine valid_property ?_ hlist
  rintro type ⟨⟩
  trivial

theorem unwrap_listSchema {type : Json} {segment : String}
    (h : typeIs (mergedSchema type) "array" = false) :
    unwrap segment (listSchema type) ((listSchema type).get? "items") = .ok (mergedSchema type) := by
  have harray : typeIs (listSchema type) "array" = true := rfl
  show unwrap segment (listSchema type) (some (.object (recordSchema type))) = _
  rw [unwrap_level harray]
  exact unwrap_flat h _

theorem narrow_owner {type : Json} {segment : String}
    (h : typeIs (mergedSchema type) "array" = false) :
    narrow (ownerSchema type) ["list", segment] =
      (if typeIs (mergedSchema type) "object" then descend (mergedSchema type) [segment]
        else .ok (mergedSchema type)).map Json.object := by
  have harray : typeIs (listSchema type) "array" = true := rfl
  show (descend (listSchema type) [segment]).map Json.object = _
  rw [descend_array harray, unwrap_listSchema h]
  rfl

/-- What the list requires is left behind where the path goes on to a property of its elements. -/
theorem narrow_describes_list :
    let schema := ownerSchema (.string "object")
    let narrowed := Json.object [("type", .string "number")]
    narrow schema ["list", "a"] = .ok narrowed ∧
      ((∀ root, schema = .object root → Faithful .draft07 (kept root) ["list", "a"]) ∨
        Silent .draft07 narrowed) ∧
      schema.Valid Keyword.structural .draft07 owner ∧
      owner.Reaches ["list", "a"] (.number (.integer 1)) ∧
      narrowed.Valid Keyword.structural .draft07 (.number (.integer 1)) := by
  intro schema narrowed
  have hnarrow : narrow schema ["list", "a"] = .ok narrowed := by
    rw [narrow_owner rfl]
    rfl
  have hlist : ListOf (recordSchema (.string "object")) (listSchema (.string "object")) :=
    .items rfl rfl rfl
  have hfaithful : ∀ root, schema = .object root → Faithful .draft07 (kept root) ["list", "a"] := by
    intro root hroot
    cases Json.object.inj hroot
    rw [Faithful, if_neg (by decide)]
    intro next hnext
    cases hnext
    show Faithful .draft07 (listSchema (.string "object")) ["a"]
    rw [Faithful, if_pos (by decide)]
    exact fun item hitem => ⟨fun inner hinner => .inl (hlist.backed (by decide) hitem rfl rfl hinner),
      fun _ _ _ => by rw [Faithful]; trivial⟩
  have hvalid : schema.Valid Keyword.structural .draft07 owner := valid_owner fun type h => by
    cases h
    trivial
  have hreach : owner.Reaches ["list", "a"] (.number (.integer 1)) :=
    .member (by decide) rfl (.item (List.mem_singleton.mpr rfl) (.member (by decide) rfl (.here _)))
  exact ⟨hnarrow, .inl hfaithful, hvalid, hreach, narrow_describes hnarrow (.inl hfaithful) hvalid hreach⟩

/-- Inside a list of objects that may be missing narrowing stops, and what it gives describes the elements
of the list and not what the path leads to. Where the path ends at the elements of a list, they have to have
what the list requires. -/
theorem narrow_strays :
    let either := Json.array [.string "object", .string "null"]
    let single := Json.string "object"
    let part := Json.number (.integer 1)
    (narrow (ownerSchema either) ["list", "a"] = .ok (.object (mergedSchema either)) ∧
      (ownerSchema either).Valid Keyword.structural .draft07 owner ∧
      owner.Reaches ["list", "a"] part ∧
      ¬ (Json.object (mergedSchema either)).Valid Keyword.structural .draft07 part) ∧
    narrow (ownerSchema single) ["list", "#"] = .ok (.object (mergedSchema single)) ∧
      (ownerSchema single).Valid Keyword.structural .draft07 owner ∧
      owner.Reaches ["list", "#"] record ∧
      ¬ (Json.object (mergedSchema single)).Valid Keyword.structural .draft07 record := by
  intro either single part
  refine ⟨⟨?_, ?_, ?_, ?_⟩, ?_, ?_, ?_, ?_⟩
  · rw [narrow_owner rfl]
    rfl
  · refine valid_owner ?_
    rintro names ⟨⟩
    refine ⟨"object", by simp, ?_⟩
    rintro type ⟨⟩
    trivial
  · exact .member (by decide) rfl
      (.item (List.mem_singleton.mpr rfl) (.member (by decide) rfl (.here part)))
  · intro hvalid
    obtain ⟨name, hname, hadmits⟩ := hvalid.type (by decide) (List.mem_cons_self ..) _ rfl
    have hcases : name = "object" ∨ name = "null" := by simpa using hname
    rcases hcases with rfl | rfl
    · exact hadmits .object rfl
    · exact hadmits .null rfl
  · rw [narrow_owner rfl]
    rfl
  · refine valid_owner fun type h => ?_
    cases h
    trivial
  · exact .member (by decide) rfl (.item (List.mem_singleton.mpr rfl) (.self (.here record)))
  · intro hvalid
    have hrequired := hvalid.required (by decide)
      (List.mem_cons_of_mem _ (List.mem_cons_self ..)) (List.mem_singleton.mpr rfl)
    cases hrequired

end SchemaShape
