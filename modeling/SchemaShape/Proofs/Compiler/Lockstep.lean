import SchemaShape.Proofs.Compiler.Moments

/-! # Two compiles in lockstep

From the rules of a node it follows by induction on the nesting that two compiles do corresponding work
on a schema, and then by induction on the references inside one another that they do so on everything the
schema leads to. What is known of two places may depend on how many references may still be followed from
them.

How deep a schema is allowed to nest makes no difference from its height on. The first side may be
watched, if its alarm counts as a cut. The second side may follow more references inside one another, if
all goes well where the first one has none left.
-/

namespace SchemaShape
set_option autoImplicit false

open Compile

namespace Correspondence

variable {K : Correspondence} {c c' : Compiler} {watch : Watch}
variable {follow follow' : Node.Follow} {outer outer' : Bool}

/-! ## Schemas -/

/-- What two places have to agree on for whole schemas, references apart, where the first side is
watched. -/
structure Watched (K : Correspondence) (watch : Watch) : Prop extends K.Rules where
  part : ∀ {schema part}, K.admits (.object schema) → Node.Subschema schema part → K.admits part
  passes : ∀ {schema c c'} outer, K.admits schema → K.states c c' →
    watch.Passes (.schema schema outer) c ∨ ¬ K.resumes ∧ K.cut watch.alarm
  ids : ∀ {schema : Members} {c c' outer}, K.admits (.object schema) → K.states c c' →
    watch.Passes (.schema (.object schema) outer) c →
    c.draft.idOf? schema = c'.draft.idOf? schema
  enters : ∀ {schema : Members} {c c' id}, K.admits (.object schema) → K.states c c' →
    c.draft.idOf? schema = some id → K.Enters id c c'

theorem Scoped.watched (laws : K.Scoped) : K.Watched .idle where
  toRules := laws.toRules
  part := laws.part
  passes := fun _ _ _ => .inl rfl
  ids := fun hadmits h _ => laws.ids hadmits h
  enters := laws.enters

theorem matches_guard {action action' : Compile Shape} {values : Shape → Shape → Prop}
    {moment : Moment} (hpasses : watch.Passes moment c ∨ ¬ K.resumes ∧ K.cut watch.alarm)
    (h : watch.Passes moment c → K.Matches values action action' c c') :
    K.Matches values (watch.guard moment action) action' c c' := by
  by_cases hmoment : watch.Passes moment c
  · exact matches_of_gives (fun _ _ => Watch.gives_guard hmoment) (fun _ _ hgives => hgives)
      (h hmoment)
  · obtain ⟨hresumes, hcut⟩ := hpasses.resolve_left hmoment
    exact matches_cut (Watch.gives_alarm hmoment) hcut fun hgoes => absurd hgoes hresumes

theorem Watched.nested (laws : K.Watched watch) {schema : Json} (height height' : Nat)
    (hheight : schema.height ≤ height) (hheight' : schema.height ≤ height')
    (hadmits : K.admits schema)
    (hroot : ∀ types, schema.get? "type" = some (.array types) → SameRoot c c' outer outer')
    (hflags : K.flags outer outer') (hfollow : K.References follow follow') (h : K.states c c') :
    K.Matches K.shapes (watch.nested follow height schema outer)
      (Compile.nested follow' height' schema outer') c c' := by
  induction height generalizing height' schema c c' outer outer' with
  | zero => exact absurd hheight (Nat.not_le.mpr schema.height_pos)
  | succ height ih =>
    cases height' with
    | zero => exact absurd hheight' (Nat.not_le.mpr schema.height_pos)
    | succ height' =>
      refine matches_guard (laws.passes outer hadmits h) fun hpasses => ?_
      refine laws.shape schema hadmits ?_ hroot hflags ?_ hfollow h
      · rintro members rfl
        exact ⟨laws.ids hadmits h hpasses, fun id hid => laws.enters hadmits h hid⟩
      -- From the second level on no position is the root, so there the flags agree by themselves.
      · rintro members rfl part hpart c c' h
        have hlt := hpart.height_lt
        exact ih height' (by omega) (by omega) (laws.part hadmits hpart) (fun _ _ => rfl) laws.inner h

theorem Scoped.nested (laws : K.Scoped) {schema : Json} (height height' : Nat)
    (hheight : schema.height ≤ height) (hheight' : schema.height ≤ height')
    (hadmits : K.admits schema)
    (hroot : ∀ types, schema.get? "type" = some (.array types) → SameRoot c c' outer outer')
    (hflags : K.flags outer outer') (hfollow : K.References follow follow') (h : K.states c c') :
    K.Matches K.shapes (Compile.nested follow height schema outer)
      (Compile.nested follow' height' schema outer') c c' := by
  have hmatches := laws.watched.nested height height' hheight hheight' hadmits hroot hflags hfollow h
  rwa [Watch.nested_idle] at hmatches

/-! ## References -/

theorem matches_followTo {compile compile' : Json → Bool → Compile Shape}
    {values : Shape → Shape → Prop} {reference : String} {url url' : Url} {target target' : Json}
    (hresolve : c.resolver.resolve reference = .ok (url, target))
    (hresolve' : c'.resolver.resolve reference = .ok (url', target'))
    (hrefuses : c.refuses url = c'.refuses url')
    (hcycle : K.failures (.refCycle reference c.location.text c.active.length)
      (.refCycle reference c'.location.text c'.active.length))
    (h : c.refuses url = false → K.Matches values (compile target outer) (compile' target' outer')
      (c.atTarget url (targetLocation c.resolver url))
      (c'.atTarget url' (targetLocation c'.resolver url'))) :
    K.Matches values (followTo compile reference outer) (followTo compile' reference outer') c c' := by
  cases hrefused : c.refuses url with
  | true =>
    have hrefused' : c'.refuses url' = true := by rw [← hrefuses, hrefused]
    exact matches_ends (gives_followTo_refused hresolve hrefused)
      (gives_followTo_refused hresolve' hrefused') (.failure hcycle) .nil
  | false =>
    have hallowed : c'.refuses url' = false := by rw [← hrefuses, hrefused]
    exact matches_of_gives (fun _ _ => gives_followTo hresolve hrefused)
      (fun _ _ => gives_followTo hresolve' hallowed) (h hrefused)

/-- What two places have to agree on for whole compiles, where `depth` references may still be followed
inside one another by the first side. -/
structure Lockstep (K : Correspondence) (watch : Watch)
    (states : Nat → Compiler → Compiler → Prop) : Prop where
  watched : ∀ depth, (K.withStates (states depth)).Watched watch
  resolves : ∀ {depth} {schema : Members} {c c' reference}, K.admits (.object schema) →
    states (depth + 1) c c' → schema.get? "$ref" = some (.string reference) → reference ≠ "#" →
    K.ResolvesTo (states depth) reference c c'
  refCycle : ∀ {depth c c'} reference, states depth c c' → K.failures
    (.refCycle reference c.location.text c.active.length)
    (.refCycle reference c'.location.text c'.active.length)
  repeated : ∀ {depth c c'} reference, states (depth + 1) c c' → c.repeats reference = true →
    watch.Passes (.repeated reference) c ∨ ¬ K.resumes ∧ K.cut watch.alarm

theorem Lawful.lockstep (laws : K.Lawful) : K.Lockstep .idle fun _ => K.states where
  watched := fun _ => laws.toScoped.watched
  resolves := laws.resolves
  refCycle := laws.refCycle
  repeated := fun _ _ _ => .inl rfl

namespace Lockstep

variable {states : Nat → Compiler → Compiler → Prop} (laws : K.Lockstep watch states)

include laws

theorem followTo {depth depth' : Nat} {compile : Json → Bool → Compile Shape}
    (hcompile : ∀ schema c c' outer outer', K.admits schema → SameRoot c c' outer outer' →
      K.flags outer outer' → states depth c c' →
      K.Matches K.shapes (compile schema outer) (upTo depth' schema outer') c c') :
    (K.withStates (states (depth + 1))).References (Compile.followTo compile)
      (Compile.followTo (upTo depth')) := by
  intro members reference hadmits hget hne c c' outer outer' h hflags
  have hresolves := laws.resolves hadmits h hget hne
  rw [ResolvesTo] at hresolves
  split at hresolves
  · next url target url' target' hresolve hresolve' =>
    obtain ⟨hsame, htarget, hrefuses, hstates⟩ := hresolves
    rcases hrefuses with heq | ⟨hrefused, hcuts⟩
    · refine matches_followTo hresolve hresolve' heq (laws.refCycle reference h) fun hallowed => ?_
      have hroot : SameRoot (c.atTarget url (targetLocation c.resolver url))
          (c'.atTarget url' (targetLocation c'.resolver url')) outer outer' := by
        simp only [SameRoot, Compiler.atTarget, List.isEmpty_cons, Bool.and_false]
      rw [← hsame depth' outer']
      exact hcompile target _ _ outer outer' htarget hroot hflags (hstates hallowed)
    · exact matches_cut (gives_followTo_refused hresolve hrefused) (hcuts.2 _ _ _)
        fun hgoes => absurd hgoes hcuts.1
  · next hresolve hresolve' =>
    exact matches_ends (gives_followTo_error hresolve) (gives_followTo_error hresolve')
      (.failure hresolves) .nil
  · next hresolve _ =>
    exact matches_cut (gives_followTo_error hresolve) hresolves.2 fun hgoes => absurd hgoes hresolves.1
  · exact hresolves.elim

theorem watchedFollow {depth depth' : Nat} {compile : Json → Bool → Compile Shape}
    (hcompile : ∀ schema c c' outer outer', K.admits schema → SameRoot c c' outer outer' →
      K.flags outer outer' → states depth c c' →
      K.Matches K.shapes (compile schema outer) (upTo depth' schema outer') c c') :
    (K.withStates (states (depth + 1))).References (watch.follow compile)
      (Compile.followTo (upTo depth')) := by
  intro members reference hadmits hget hne c c' outer outer' h hflags
  have hplain : K.Matches K.shapes (Compile.followTo compile reference outer)
      (Compile.followTo (upTo depth') reference outer') c c' :=
    laws.followTo hcompile members reference hadmits hget hne c c' outer outer' h hflags
  cases hrepeats : c.repeats reference with
  | true =>
    exact matches_of_gives (fun _ _ => Watch.gives_follow_repeated hrepeats)
      (fun _ _ hgives => hgives) (matches_guard (laws.repeated reference h hrepeats) fun _ => hplain)
  | false =>
    exact matches_of_gives (fun _ _ => Watch.gives_follow hrepeats) (fun _ _ hgives => hgives) hplain

/-- If all goes well where the first side has no references left and the second one `more`, then it
does where the first one has some left. -/
theorem references {more : Nat}
    (hlast : (K.withStates (states 0)).References (fun reference _ => refuse reference)
      (Compile.followUpTo more)) (depth : Nat) :
    (K.withStates (states depth)).References (watch.followUpTo depth)
      (Compile.followUpTo (more + depth)) := by
  -- A target may be higher than the schema that refers to it. What shrinks is how many references
  -- may still be followed.
  induction depth with
  | zero => exact hlast
  | succ depth ih =>
    refine laws.watchedFollow fun schema c c' outer outer' hadmits hroot hflags h => ?_
    rw [Compile.upTo_eq]
    exact (laws.watched depth).nested _ _ (Nat.le_refl _) (Nat.le_refl _) hadmits
      (fun _ _ => hroot) hflags ih h

theorem refused : (K.withStates (states 0)).References (fun reference _ => refuse reference)
    (Compile.followUpTo 0) :=
  fun _ reference _ _ _ c c' _ _ h _ => matches_ends (gives_refuse reference c)
    (gives_refuse reference c') (.failure (laws.refCycle reference h)) .nil

theorem upTo {more : Nat}
    (hlast : (K.withStates (states 0)).References (fun reference _ => refuse reference)
      (Compile.followUpTo more)) (depth : Nat) {schema : Json} (hadmits : K.admits schema)
    (hroot : SameRoot c c' outer outer') (hflags : K.flags outer outer') (h : states depth c c') :
    K.Matches K.shapes (watch.upTo depth schema outer)
      (Compile.upTo (more + depth) schema outer') c c' := by
  rw [Compile.upTo_eq]
  exact (laws.watched depth).nested _ _ (Nat.le_refl _) (Nat.le_refl _) hadmits (fun _ _ => hroot)
    hflags (laws.references hlast depth) h

end Lockstep

/-! ## Whole compiles -/

namespace Lawful

variable (laws : K.Lawful)

include laws

/-- The second side may follow more references inside one another, if the first one counts as cut off
when it runs out of them. -/
theorem references {depth depth' : Nat} (hdepth : depth = depth' ∨ depth ≤ depth' ∧ K.CutsCycles) :
    K.References (Compile.followUpTo depth) (Compile.followUpTo depth') := by
  obtain ⟨more, rfl, hlast⟩ : ∃ more, depth' = more + depth ∧
      K.References (fun reference _ => refuse reference) (Compile.followUpTo more) := by
    rcases hdepth with rfl | ⟨hle, hcuts⟩
    · exact ⟨0, (Nat.zero_add _).symm, laws.lockstep.refused⟩
    · refine ⟨depth' - depth, by omega, fun _ reference _ _ _ c _ _ _ _ _ => ?_⟩
      exact matches_cut (gives_refuse reference c) (hcuts.2 _ _ _) fun hgoes => absurd hgoes hcuts.1
  have hreferences := laws.lockstep.references hlast depth
  rwa [Watch.followUpTo_idle] at hreferences

theorem upTo_of_le {depth depth' : Nat} (hdepth : depth = depth' ∨ depth ≤ depth' ∧ K.CutsCycles)
    {schema : Json} (hadmits : K.admits schema) (hroot : SameRoot c c' outer outer')
    (hflags : K.flags outer outer') (h : K.states c c') :
    K.Matches K.shapes (Compile.upTo depth schema outer) (Compile.upTo depth' schema outer')
      c c' := by
  rw [Compile.upTo_eq, Compile.upTo_eq]
  exact laws.nested _ _ (Nat.le_refl _) (Nat.le_refl _) hadmits (fun _ _ => hroot) hflags
    (laws.references hdepth) h

theorem upTo (depth : Nat) {schema : Json} (hadmits : K.admits schema)
    (hroot : SameRoot c c' outer outer') (hflags : K.flags outer outer') (h : K.states c c') :
    K.Matches K.shapes (Compile.upTo depth schema outer) (Compile.upTo depth schema outer')
      c c' :=
  laws.upTo_of_le (.inl rfl) hadmits hroot hflags h

end Lawful

end Correspondence

end SchemaShape
