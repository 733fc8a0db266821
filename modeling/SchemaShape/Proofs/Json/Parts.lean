import SchemaShape.Json.Pointer

/-! # Parts of a value

`part.Within whole` says that a value occurs somewhere in another one, at any depth. Pointers lead to
parts, parts of parts are parts, and a proper part is less high than the whole, which is what
inductions on the nesting of schemas go by.

`Json.wellFormed` is what a reader guarantees of the values it gives: integers fit 64 bits, keys of an
object are distinct, and lists are shorter than `2 ^ 53`, which no memory reaches.
-/

namespace SchemaShape
set_option autoImplicit false

/-! ## Members -/

namespace Members

theorem get?_cons (key other : String) (value : Json) (rest : Members) :
    Members.get? ((other, value) :: rest) key =
      if key = other then some value else Members.get? rest key := by
  simp only [Members.get?, List.lookup_cons]
  by_cases h : key = other
  · simp [h]
  · rw [beq_eq_false_iff_ne.mpr h, if_neg h]

theorem mem_of_get? {members : Members} {key : String} {value : Json}
    (h : members.get? key = some value) : (key, value) ∈ members := by
  induction members with
  | nil => simp [Members.get?] at h
  | cons member rest ih =>
    obtain ⟨other, first⟩ := member
    rw [get?_cons] at h
    split at h
    · next heq =>
      simp only [Option.some.injEq] at h
      subst heq
      subst h
      exact List.mem_cons_self ..
    · exact List.mem_cons_of_mem _ (ih h)

theorem get?_isSome_of_mem {members : Members} {key : String} {value : Json}
    (h : (key, value) ∈ members) : (members.get? key).isSome := by
  induction members with
  | nil => simp at h
  | cons member rest ih =>
    obtain ⟨other, first⟩ := member
    rw [get?_cons]
    split
    · rfl
    · next hne =>
      rcases List.mem_cons.mp h with heq | hrest
      · exact absurd (congrArg Prod.fst heq) hne
      · exact ih hrest

theorem contains_eq (members : Members) (key : String) :
    members.contains key = (members.get? key).isSome := by
  induction members with
  | nil => rfl
  | cons member rest ih =>
    obtain ⟨other, first⟩ := member
    rw [get?_cons]
    simp only [Members.contains, List.any_cons] at ih ⊢
    by_cases h : key = other
    · simp [h]
    · have h' : (other == key) = false := beq_eq_false_iff_ne.mpr fun heq => h heq.symm
      rw [if_neg h, h', Bool.false_or, ih]

theorem get?_of_mem {members : Members} {key : String} {value : Json}
    (distinct : (members.map Prod.fst).Nodup) (h : (key, value) ∈ members) :
    members.get? key = some value := by
  induction members with
  | nil => simp at h
  | cons member rest ih =>
    obtain ⟨other, first⟩ := member
    rw [List.map_cons, List.nodup_cons] at distinct
    rw [get?_cons]
    rcases List.mem_cons.mp h with heq | hrest
    · simp only [Prod.mk.injEq] at heq
      rw [if_pos heq.1, heq.2]
    · have hne : key ≠ other := by
        rintro rfl
        exact distinct.1 (List.mem_map.mpr ⟨(key, value), hrest, rfl⟩)
      rw [if_neg hne]
      exact ih distinct.2 hrest

theorem mem_of_mem_remove {members : Members} {key removed : String} {value : Json}
    (h : (key, value) ∈ members.remove removed) : (key, value) ∈ members := by
  induction members with
  | nil => simp [remove] at h
  | cons member rest ih =>
    obtain ⟨other, first⟩ := member
    rw [remove] at h
    split at h
    · split at h
      · simp at h
      · next last hlast =>
        rcases List.mem_cons.mp h with heq | hrest
        · exact List.mem_cons_of_mem _ (heq ▸ List.mem_of_getLast? hlast)
        · exact List.mem_cons_of_mem _ (List.dropLast_subset rest hrest)
    · rcases List.mem_cons.mp h with heq | hrest
      · exact heq ▸ List.mem_cons_self ..
      · exact List.mem_cons_of_mem _ (ih hrest)

theorem mem_remove {members : Members} {key removed : String} {value : Json}
    (hne : key ≠ removed) (h : (key, value) ∈ members) : (key, value) ∈ members.remove removed := by
  induction members with
  | nil => simp at h
  | cons member rest ih =>
    obtain ⟨other, first⟩ := member
    rw [remove]
    rcases List.mem_cons.mp h with heq | hrest
    · simp only [Prod.mk.injEq] at heq
      rw [if_neg fun heq' => hne (heq.1.trans heq'), heq.1, heq.2]
      exact List.mem_cons_self ..
    · split
      · -- The last member is in front now.
        split
        · next hnone =>
          rw [List.getLast?_eq_none_iff.mp hnone] at hrest
          simp at hrest
        · next last hlast =>
          obtain ⟨front, rfl⟩ := List.getLast?_eq_some_iff.mp hlast
          rw [List.dropLast_concat, List.mem_cons]
          exact (List.mem_append.mp hrest).symm.imp_left List.mem_singleton.mp
      · exact List.mem_cons_of_mem _ (ih hrest)

theorem get?_remove_ne {members : Members} {key removed : String}
    (distinct : (members.map Prod.fst).Nodup) (hne : key ≠ removed) :
    (members.remove removed).get? key = members.get? key := by
  have hback : ∀ value, (members.remove removed).get? key = some value →
      members.get? key = some value :=
    fun value h => get?_of_mem distinct (mem_of_mem_remove (mem_of_get? h))
  cases hleft : (members.remove removed).get? key with
  | some value => exact (hback value hleft).symm
  | none =>
    cases hright : members.get? key with
    | none => rfl
    | some value =>
      have hsome := get?_isSome_of_mem (mem_remove hne (mem_of_get? hright))
      rw [hleft] at hsome
      cases hsome

theorem get?_set (members : Members) (key other : String) (value : Json) :
    (members.set key value).get? other = if other = key then some value else members.get? other := by
  induction members with
  | nil => rw [set, get?_cons]
  | cons member rest ih =>
    obtain ⟨first, value'⟩ := member
    rw [set]
    by_cases hfirst : first = key
    · rw [if_pos hfirst, get?_cons, get?_cons, hfirst]
      by_cases h : other = key
      · rw [if_pos h, if_pos h]
      · rw [if_neg h, if_neg h, if_neg h]
    · rw [if_neg hfirst, get?_cons, get?_cons, ih]
      by_cases h : other = first
      · rw [if_pos h, if_pos h, if_neg fun heq => hfirst (h ▸ heq)]
      · rw [if_neg h, if_neg h]

theorem get?_set_self (members : Members) (key : String) (value : Json) :
    (members.set key value).get? key = some value := by
  rw [get?_set, if_pos rfl]

theorem get?_set_ne (members : Members) {key other : String} (value : Json) (h : other ≠ key) :
    (members.set key value).get? other = members.get? other := by
  rw [get?_set, if_neg h]

theorem mem_set {members : Members} {key other : String} {value value' : Json}
    (hne : key ≠ other) (h : (key, value) ∈ members) : (key, value) ∈ members.set other value' := by
  induction members with
  | nil => simp at h
  | cons member rest ih =>
    obtain ⟨first, value''⟩ := member
    rw [set]
    rcases List.mem_cons.mp h with heq | hrest
    · simp only [Prod.mk.injEq] at heq
      rw [if_neg fun heq' => hne (heq.1.trans heq'), heq.1, heq.2]
      exact List.mem_cons_self ..
    · split
      · exact List.mem_cons_of_mem _ hrest
      · exact List.mem_cons_of_mem _ (ih hrest)

theorem mem_of_mem_set {members : Members} {key other : String} {value value' : Json}
    (hne : key ≠ other) (h : (key, value) ∈ members.set other value') : (key, value) ∈ members := by
  induction members with
  | nil =>
    simp only [set, List.mem_singleton, Prod.mk.injEq] at h
    exact absurd h.1 hne
  | cons member rest ih =>
    obtain ⟨first, value''⟩ := member
    rw [set] at h
    split at h
    · rcases List.mem_cons.mp h with heq | hrest
      · exact absurd (congrArg Prod.fst heq) hne
      · exact List.mem_cons_of_mem _ hrest
    · rcases List.mem_cons.mp h with heq | hrest
      · exact heq ▸ List.mem_cons_self ..
      · exact List.mem_cons_of_mem _ (ih hrest)

theorem distinct_set {members : Members} {key : String} {value : Json}
    (distinct : (members.map Prod.fst).Nodup) : ((members.set key value).map Prod.fst).Nodup := by
  induction members with
  | nil => simp [set]
  | cons member rest ih =>
    obtain ⟨other, first⟩ := member
    rw [List.map_cons, List.nodup_cons] at distinct
    rw [set]
    by_cases h : other = key
    · rw [if_pos h, List.map_cons, List.nodup_cons, ← h]
      exact distinct
    · rw [if_neg h, List.map_cons, List.nodup_cons]
      refine ⟨fun hmem => distinct.1 ?_, ih distinct.2⟩
      obtain ⟨⟨found, value'⟩, hmem, hfound⟩ := List.mem_map.mp hmem
      simp only at hfound
      rw [hfound] at hmem
      exact List.mem_map.mpr ⟨_, mem_of_mem_set h hmem, rfl⟩

end Members

namespace Json

/-! ## Height -/

theorem height_pos (value : Json) : 0 < value.height := by
  cases value <;> simp [height]

theorem height_eq_succ (value : Json) : ∃ rest, value.height = rest + 1 :=
  Nat.exists_eq_succ_of_ne_zero (Nat.ne_of_gt value.height_pos)

theorem height_le_items {item : Json} {items : List Json} (h : item ∈ items) :
    item.height ≤ heightItems items := by
  induction items with
  | nil => simp at h
  | cons first rest ih =>
    rw [heightItems]
    rcases List.mem_cons.mp h with rfl | hrest
    · exact Nat.le_max_left ..
    · exact Nat.le_trans (ih hrest) (Nat.le_max_right ..)

theorem height_le_members {key : String} {value : Json} {members : Members}
    (h : (key, value) ∈ members) : value.height ≤ heightMembers members := by
  induction members with
  | nil => simp at h
  | cons first rest ih =>
    obtain ⟨other, other'⟩ := first
    rw [heightMembers]
    rcases List.mem_cons.mp h with heq | hrest
    · simp only [Prod.mk.injEq] at heq
      rw [heq.2]
      exact Nat.le_max_left ..
    · exact Nat.le_trans (ih hrest) (Nat.le_max_right ..)

theorem height_mono {members members' : Members} (h : members ⊆ members') :
    (object members).height ≤ (object members').height := by
  have hle : heightMembers members ≤ heightMembers members' := by
    induction members with
    | nil => exact Nat.zero_le _
    | cons member rest ih =>
      obtain ⟨key, value⟩ := member
      rw [heightMembers]
      exact Nat.max_le.mpr ⟨height_le_members (h (List.mem_cons_self ..)),
        ih fun other mem => h (List.mem_cons_of_mem _ mem)⟩
  rw [height, height]
  omega

theorem height_item {item : Json} {items : List Json} (h : item ∈ items) :
    item.height < (array items).height := by
  have := height_le_items h
  rw [height]
  omega

theorem height_member {key : String} {value : Json} {members : Members}
    (h : (key, value) ∈ members) : value.height < (object members).height := by
  have := height_le_members h
  rw [height]
  omega

theorem height_itemOf {key : String} {item : Json} {items : List Json} {members : Members}
    (h : (key, array items) ∈ members) (mem : item ∈ items) :
    item.height < (object members).height :=
  Nat.lt_trans (height_item mem) (height_member h)

theorem height_memberOf {key name : String} {value : Json} {inner members : Members}
    (h : (key, object inner) ∈ members) (mem : (name, value) ∈ inner) :
    value.height < (object members).height :=
  Nat.lt_trans (height_member mem) (height_member h)

/-! ## Parts -/

/-- A value that occurs in another one, or is it. -/
inductive Within : Json → Json → Prop where
  | refl (value : Json) : Within value value
  | item {part item : Json} {items : List Json} (mem : item ∈ items) (h : Within part item) :
      Within part (array items)
  | member {part value : Json} {key : String} {members : Members}
      (mem : (key, value) ∈ members) (h : Within part value) : Within part (object members)

theorem Within.trans {part middle whole : Json} (h : part.Within middle) (h' : middle.Within whole) :
    part.Within whole := by
  induction h' with
  | refl => exact h
  | item mem _ ih => exact .item mem ih
  | member mem _ ih => exact .member mem ih

theorem within_get? {key : String} {value : Json} {members : Members}
    (h : members.get? key = some value) : value.Within (object members) :=
  .member (Members.mem_of_get? h) (.refl value)

theorem within_child? {value part : Json} {token : String} (h : value.child? token = some part) :
    part.Within value := by
  cases value with
  | object members => exact within_get? h
  | array items =>
    simp only [child?, Option.bind_eq_some_iff] at h
    obtain ⟨position, -, hitem⟩ := h
    exact .item (List.mem_of_getElem? hitem) (.refl part)
  | null => simp [child?] at h
  | bool => simp [child?] at h
  | number => simp [child?] at h
  | string => simp [child?] at h

theorem within_at? {value part : Json} {pointer : Pointer} (h : value.at? pointer = some part) :
    part.Within value := by
  induction pointer generalizing value with
  | nil =>
    simp only [at?, Option.some.injEq] at h
    subst h
    exact .refl value
  | cons token rest ih =>
    simp only [at?, Option.bind_eq_some_iff] at h
    obtain ⟨child, hchild, hrest⟩ := h
    exact (ih hrest).trans (within_child? hchild)

theorem at?_append (value : Json) (pointer rest : Pointer) :
    value.at? (pointer ++ rest) = (value.at? pointer).bind (·.at? rest) := by
  induction pointer generalizing value with
  | nil => rfl
  | cons token more ih =>
    rw [List.cons_append, at?, at?]
    cases value.child? token with
    | none => rfl
    | some child => exact ih child

theorem within_pointer? {value part : Json} {text : String} (h : value.pointer? text = some part) :
    part.Within value := by
  simp only [pointer?, Option.bind_eq_some_iff] at h
  obtain ⟨pointer, -, hpart⟩ := h
  exact within_at? hpart

/-! ## Every object in a value -/

mutual

/-- Whether every object that occurs in a value passes a test. -/
def everyObject (test : Members → Bool) : Json → Bool
  | array items => everyObjectItems test items
  | object members => test members && everyObjectMembers test members
  | _ => true

def everyObjectItems (test : Members → Bool) : List Json → Bool
  | [] => true
  | item :: rest => item.everyObject test && everyObjectItems test rest

def everyObjectMembers (test : Members → Bool) : List (String × Json) → Bool
  | [] => true
  | (_, value) :: rest => value.everyObject test && everyObjectMembers test rest

end

theorem everyObject_item {test : Members → Bool} {item : Json} {items : List Json}
    (h : everyObjectItems test items = true) (mem : item ∈ items) :
    item.everyObject test = true := by
  induction items with
  | nil => simp at mem
  | cons first rest ih =>
    rw [everyObjectItems, Bool.and_eq_true] at h
    rcases List.mem_cons.mp mem with rfl | hrest
    · exact h.1
    · exact ih h.2 hrest

theorem everyObject_member {test : Members → Bool} {key : String} {value : Json}
    {members : Members} (h : everyObjectMembers test members = true)
    (mem : (key, value) ∈ members) : value.everyObject test = true := by
  induction members with
  | nil => simp at mem
  | cons first rest ih =>
    obtain ⟨other, other'⟩ := first
    rw [everyObjectMembers, Bool.and_eq_true] at h
    rcases List.mem_cons.mp mem with heq | hrest
    · simp only [Prod.mk.injEq] at heq
      rw [heq.2]
      exact h.1
    · exact ih h.2 hrest

theorem Within.everyObject {test : Members → Bool} {part whole : Json} (h : part.Within whole)
    (hwhole : whole.everyObject test = true) : part.everyObject test = true := by
  induction h with
  | refl => exact hwhole
  | item mem _ ih =>
    rw [Json.everyObject] at hwhole
    exact ih (everyObject_item hwhole mem)
  | member mem _ ih =>
    rw [Json.everyObject, Bool.and_eq_true] at hwhole
    exact ih (everyObject_member hwhole.2 mem)

theorem everyObject_self {test : Members → Bool} {members : Members}
    (h : (object members).everyObject test = true) : test members = true := by
  rw [everyObject, Bool.and_eq_true] at h
  exact h.1

/-! ## Well-formed values -/

mutual

/-- A value as a reader gives it. -/
def wellFormed : Json → Bool
  | number (.integer value) => decide (-0x8000000000000000 ≤ value ∧ value < 0x10000000000000000)
  | array items => decide (items.length < 0x20000000000000) && wellFormedItems items
  | object members => decide (members.map Prod.fst).Nodup && wellFormedMembers members
  | _ => true

def wellFormedItems : List Json → Bool
  | [] => true
  | item :: rest => item.wellFormed && wellFormedItems rest

def wellFormedMembers : List (String × Json) → Bool
  | [] => true
  | (_, value) :: rest => value.wellFormed && wellFormedMembers rest

end

theorem wellFormed_item {item : Json} {items : List Json} (h : wellFormedItems items = true)
    (mem : item ∈ items) : item.wellFormed = true := by
  induction items with
  | nil => simp at mem
  | cons first rest ih =>
    rw [wellFormedItems, Bool.and_eq_true] at h
    rcases List.mem_cons.mp mem with rfl | hrest
    · exact h.1
    · exact ih h.2 hrest

theorem wellFormed_member {key : String} {value : Json} {members : Members}
    (h : wellFormedMembers members = true) (mem : (key, value) ∈ members) :
    value.wellFormed = true := by
  induction members with
  | nil => simp at mem
  | cons first rest ih =>
    obtain ⟨other, other'⟩ := first
    rw [wellFormedMembers, Bool.and_eq_true] at h
    rcases List.mem_cons.mp mem with heq | hrest
    · simp only [Prod.mk.injEq] at heq
      rw [heq.2]
      exact h.1
    · exact ih h.2 hrest

theorem Within.wellFormed {part whole : Json} (h : part.Within whole)
    (formed : whole.wellFormed = true) : part.wellFormed = true := by
  induction h with
  | refl => exact formed
  | item mem _ ih =>
    rw [Json.wellFormed, Bool.and_eq_true] at formed
    exact ih (wellFormed_item formed.2 mem)
  | member mem _ ih =>
    rw [Json.wellFormed, Bool.and_eq_true] at formed
    exact ih (wellFormed_member formed.2 mem)

theorem wellFormed_distinct {members : Members} (formed : (object members).wellFormed = true) :
    (members.map Prod.fst).Nodup := by
  rw [wellFormed, Bool.and_eq_true, decide_eq_true_eq] at formed
  exact formed.1

end Json

end SchemaShape
