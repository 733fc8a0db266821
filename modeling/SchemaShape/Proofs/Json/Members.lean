import Mathlib.Data.List.Nodup
import SchemaShape.Proofs.Json.Parts

/-! # Removing and adding members

With distinct keys an object is known, up to the order of its members, by what its keys look up.
Removing a member and adding others keep an object well-formed, and what a key looks up afterwards is
what was added, or else what was there before.
-/

namespace SchemaShape
set_option autoImplicit false

namespace Members

variable {members members' added : Members} {key other : String} {value : Json}

theorem get?_eq_none (h : key ∉ members.map Prod.fst) : members.get? key = none := by
  cases hget : members.get? key with
  | none => rfl
  | some value => exact absurd (List.mem_map.mpr ⟨_, mem_of_get? hget, rfl⟩) h

/-! ## Order -/

theorem perm_cons_remove (h : members.get? key = some value) :
    members.Perm ((key, value) :: members.remove key) := by
  induction members with
  | nil => cases h
  | cons member rest ih =>
    obtain ⟨other, first⟩ := member
    rw [get?_cons] at h
    rw [remove]
    by_cases heq : other = key
    · rw [if_pos heq.symm] at h
      cases h
      rw [if_pos heq, heq]
      refine List.Perm.cons _ ?_
      split
      · next hnone =>
        rw [List.getLast?_eq_none_iff.mp hnone]
      · next last hlast =>
        obtain ⟨front, rfl⟩ := List.getLast?_eq_some_iff.mp hlast
        rw [List.dropLast_concat]
        exact List.perm_append_singleton last front
    · rw [if_neg fun heq' => heq heq'.symm] at h
      rw [if_neg heq]
      exact ((ih h).cons (other, first)).trans (List.Perm.swap ..)

/-- Objects whose keys look up the same have the same members. -/
theorem perm_of_get?_eq (distinct : (members.map Prod.fst).Nodup)
    (distinct' : (members'.map Prod.fst).Nodup)
    (h : ∀ key, members.get? key = members'.get? key) : members.Perm members' := by
  refine (List.perm_ext_iff_of_nodup (List.Nodup.of_map _ distinct)
    (List.Nodup.of_map _ distinct')).mpr fun member => ?_
  obtain ⟨key, value⟩ := member
  constructor
  · intro mem
    exact mem_of_get? ((h key).symm.trans (get?_of_mem distinct mem))
  · intro mem
    exact mem_of_get? ((h key).trans (get?_of_mem distinct' mem))

/-! ## Removing -/

theorem remove_of_get?_none (h : members.get? key = none) : members.remove key = members := by
  induction members with
  | nil => rfl
  | cons member rest ih =>
    obtain ⟨other, first⟩ := member
    rw [get?_cons] at h
    split at h
    · cases h
    · next hne =>
      rw [remove, if_neg fun heq => hne heq.symm, ih h]

theorem distinct_cons_remove (distinct : (members.map Prod.fst).Nodup) :
    (key :: (members.remove key).map Prod.fst).Nodup := by
  cases hget : members.get? key with
  | none =>
    rw [remove_of_get?_none hget, List.nodup_cons]
    refine ⟨fun mem => ?_, distinct⟩
    obtain ⟨⟨other, value⟩, hmem, rfl⟩ := List.mem_map.mp mem
    have hsome := get?_isSome_of_mem hmem
    rw [hget] at hsome
    cases hsome
  | some value => exact ((perm_cons_remove hget).map Prod.fst).nodup_iff.mp distinct

theorem distinct_remove (distinct : (members.map Prod.fst).Nodup) :
    ((members.remove key).map Prod.fst).Nodup :=
  (List.nodup_cons.mp (distinct_cons_remove distinct)).2

theorem get?_remove (distinct : (members.map Prod.fst).Nodup) :
    (members.remove key).get? other = if other = key then none else members.get? other := by
  by_cases h : other = key
  · subst h
    rw [if_pos rfl]
    exact get?_eq_none (List.nodup_cons.mp (distinct_cons_remove distinct)).1
  · rw [if_neg h, get?_remove_ne distinct h]

/-! ## Adding -/

theorem extend_cons (member : String × Json) :
    members.extend (member :: added) = (members.set member.1 member.2).extend added := rfl

theorem distinct_extend (distinct : (members.map Prod.fst).Nodup) :
    ((members.extend added).map Prod.fst).Nodup := by
  induction added generalizing members with
  | nil => exact distinct
  | cons member rest ih => exact ih (distinct_set distinct)

theorem get?_extend (distinct : (added.map Prod.fst).Nodup) :
    (members.extend added).get? key = (added.get? key).or (members.get? key) := by
  induction added generalizing members with
  | nil => rfl
  | cons member rest ih =>
    obtain ⟨first, value⟩ := member
    rw [List.map_cons, List.nodup_cons] at distinct
    rw [extend_cons, ih distinct.2, get?_set, get?_cons]
    by_cases h : key = first
    · rw [if_pos h, if_pos h, Option.some_or, h, get?_eq_none distinct.1, Option.none_or]
    · rw [if_neg h, if_neg h]

end Members

/-! ## Well-formed objects -/

namespace Json

variable {members added : Members} {key : String} {value : Json}

theorem wellFormed_object_iff : (object members).wellFormed = true ↔
    (members.map Prod.fst).Nodup ∧ ∀ member ∈ members, member.2.wellFormed = true := by
  have hmembers : wellFormedMembers members = true ↔
      ∀ member ∈ members, member.2.wellFormed = true := by
    induction members with
    | nil => simp [wellFormedMembers]
    | cons member rest ih =>
      obtain ⟨first, part⟩ := member
      rw [wellFormedMembers, Bool.and_eq_true, ih, List.forall_mem_cons]
  rw [wellFormed, Bool.and_eq_true, decide_eq_true_eq, hmembers]

theorem wellFormed_get? (formed : (object members).wellFormed = true)
    (h : members.get? key = some value) : value.wellFormed = true :=
  (wellFormed_object_iff.mp formed).2 _ (Members.mem_of_get? h)

theorem wellFormed_set (formed : (object members).wellFormed = true)
    (hvalue : value.wellFormed = true) : (object (members.set key value)).wellFormed = true := by
  obtain ⟨distinct, hparts⟩ := wellFormed_object_iff.mp formed
  refine wellFormed_object_iff.mpr ⟨Members.distinct_set distinct, fun ⟨other, part⟩ mem => ?_⟩
  by_cases h : other = key
  · have hpart := Members.get?_of_mem (Members.distinct_set distinct) mem
    rw [h, Members.get?_set_self] at hpart
    cases hpart
    exact hvalue
  · exact hparts _ (Members.mem_of_mem_set h mem)

theorem wellFormed_remove (formed : (object members).wellFormed = true) :
    (object (members.remove key)).wellFormed = true := by
  obtain ⟨distinct, hparts⟩ := wellFormed_object_iff.mp formed
  exact wellFormed_object_iff.mpr ⟨Members.distinct_remove distinct,
    fun _ mem => hparts _ (Members.mem_of_mem_remove mem)⟩

theorem wellFormed_extend (formed : (object members).wellFormed = true)
    (hadded : ∀ member ∈ added, member.2.wellFormed = true) :
    (object (members.extend added)).wellFormed = true := by
  induction added generalizing members with
  | nil => exact formed
  | cons member rest ih =>
    rw [List.forall_mem_cons] at hadded
    exact ih (wellFormed_set formed hadded.1) hadded.2

end Json

end SchemaShape
