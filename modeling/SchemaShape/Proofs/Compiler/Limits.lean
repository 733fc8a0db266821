import SchemaShape.Proofs.Compiler.Invariants

/-! # The limit on references inside one another

A limit on how many references may be followed inside one another only cuts a compile off: it does the
same under any higher limit, unless it fails at the limit itself, and then it goes on from there. The
references being followed are counted on the way. As a repeated URL is refused they are all different.
-/

namespace SchemaShape
set_option autoImplicit false

open Correspondence Compile

/-- The references being followed are all different, and `depth` more are within the limit. -/
structure Counted (limit depth : Nat) (c : Compiler) : Prop where
  count : c.active.length + depth = limit
  nodup : c.active.Nodup
  refuses : c.refusesRepeats = true

theorem Counted.atTarget {limit depth : Nat} {c : Compiler} {url : Url}
    (h : Counted limit (depth + 1) c) (hrefuses : c.refuses url = false) (location : Location) :
    Counted limit depth (c.atTarget url location) where
  count := by
    have hlength : (c.atTarget url location).active.length = c.active.length + 1 := rfl
    have hcount := h.count
    omega
  nodup := by
    rw [Compiler.refuses, h.refuses, Bool.true_and] at hrefuses
    refine List.nodup_cons.mpr ⟨fun mem => ?_, h.nodup⟩
    rw [List.contains_iff_mem.mpr mem] at hrefuses
    cases hrefuses
  refuses := h.refuses

theorem counted_invariant (limit : Nat) :
    Compiler.Invariant (fun _ => True) (Counted limit) where
  part := fun h _ => h
  below := fun _ h => ⟨h.count, h.nodup, h.refuses⟩
  atProperty := fun _ h => ⟨h.count, h.nodup, h.refuses⟩
  within := fun _ h _ _ => ⟨h.count, h.nodup, h.refuses⟩
  target := fun h _ _ _ => h
  atTarget := fun _ h _ _ hrefuses => h.atTarget hrefuses _

theorem Counted.start (resolver : Resolver) (draft : Draft) (outerName : String) (limit : Nat) :
    let c : Compiler := { Compiler.new resolver draft outerName with maxRefDepth := limit }
    Counted limit c.remaining c :=
  ⟨Nat.zero_add limit, List.nodup_nil, rfl⟩

def FailsAt (limit : Nat) (failure : Failure) : Prop :=
  ∃ reference location, failure = .refCycle reference location limit

/-- With more references to follow inside one another the same is done, or the failure at the limit is
passed by. -/
theorem Counted.cutsOff {limit depth : Nat} (more : Nat) {c : Compiler} (schema : Json) (outer : Bool)
    (h : Counted limit depth c) :
    (∃ result added, (upTo depth schema outer).Gives c result added ∧
      (upTo (more + depth) schema outer).Gives c result added) ∨
    ∃ failure added result rest, (upTo depth schema outer).Gives c (.error failure) added ∧
      FailsAt limit failure ∧ (upTo (more + depth) schema outer).Gives c result (added ++ rest) := by
  have hlast : ((alone (fun _ => True) (FailsAt limit) True fun _ => True).withStates
      fun c c' => c = c' ∧ Counted limit 0 c).References (fun reference _ => refuse reference)
        (followUpTo more) := by
    rintro members reference - hget hne c _ outer outer' ⟨rfl, hplace⟩ -
    have hcount : c.active.length = limit := hplace.count
    have htidy : (followUpTo more reference outer').Tidy := tidy_of_same fun c =>
      same_lawful.references (.inl rfl) members reference trivial hget hne c c outer' outer' rfl rfl
    obtain ⟨result, added, hgives⟩ := htidy c
    refine matches_cut (gives_refuse reference c) ⟨_, _, by rw [hcount]⟩ fun _ => ?_
    exact ⟨result, [], added, hgives, .nil, fun shape _ => ⟨shape, rfl⟩⟩
  rcases (counted_invariant limit).upTo_more (fun _ _ _ => trivial) hlast trivial h with
    ⟨result, added, hgives, hgives', -⟩ | ⟨failure, added, hgives, hfails, hresumes⟩
  · exact .inl ⟨result, added, hgives, hgives'⟩
  · obtain ⟨result, rest, hgives'⟩ := hresumes trivial
    exact .inr ⟨failure, added, result, rest, hgives, hfails, hgives'⟩

theorem Compile.Gives.underLimit {depth : Nat} {schema : Json} {outer : Bool} {c : Compiler}
    {result : Except Failure Shape} {added : List Diagnostic} (limit : Nat)
    (h : (upTo depth schema outer).Gives c result added) :
    (upTo depth schema outer).Gives { c with maxRefDepth := limit } result added := by
  have laws : (identical (fun _ => True) fun c c' => c' = { c with maxRefDepth := limit }).Lawful := by
    refine identical_lawful (fun h _ => h) ?_ ?_ ?_ ?_ ?_
    · rintro c _ tokens rfl
      rfl
    · rintro c _ key rfl
      rfl
    · rintro c _ rfl
      exact ⟨c.resolver.registry, c.refusesRepeats, limit, rfl⟩
    · rintro schema c _ id _ rfl _
      exact enters_of_join rfl fun _ _ => rfl
    · rintro schema c _ reference _ rfl _ _
      exact resolvesTo_of_resolve rfl (fun _ _ => rfl) fun _ _ _ => ⟨trivial, .inl rfl, fun _ => rfl⟩
  have hmatches : (identical (fun _ => True) fun c c' => c' = { c with maxRefDepth := limit }).Matches
      Eq (upTo depth schema outer) (upTo depth schema outer) c { c with maxRefDepth := limit } :=
    laws.upTo depth trivial rfl rfl rfl
  obtain ⟨result', added', hgives, hgives'⟩ := identical_ends hmatches
  obtain ⟨rfl, rfl⟩ := h.unique hgives
  exact hgives'

theorem Compile.Gives.run_new {resolver : Resolver} {draft : Draft} {outerName : String}
    {limit limit' : Nat} {schema : Json} {outer : Bool} {result : Except Failure Shape}
    {added : List Diagnostic} (h : (upTo limit' schema outer).Gives
      { Compiler.new resolver draft outerName with maxRefDepth := limit } result added) :
    let c : Compiler := { Compiler.new resolver draft outerName with maxRefDepth := limit' }
    c.compile schema outer = (result, { c with diagnostics := added }) :=
  (h.underLimit limit').run

/-- What is expected of the references being followed at the moments of a compile. -/
def withinLimit (limit : Nat) : Moment → Compiler → Bool
  | .schema _ _, c => decide (c.active.length ≤ limit ∧ c.active.Nodup)
  | .repeated _, c => decide (c.active.length < limit ∧ c.active.Nodup)

/-- Under a higher limit a compile gives and reports the same, or it has failed at its own limit with no
more than the beginning of the other one's report. At every moment the references being followed are all
different and within the limit, and below the limit where one of them is refused because it is being
followed already. -/
theorem Compiler.compile_limits (resolver : Resolver) (draft : Draft) (outerName : String)
    (schema : Json) (outer : Bool) {limit limit' : Nat} (hle : limit ≤ limit') :
    let compiler (limit : Nat) : Compiler :=
      { Compiler.new resolver draft outerName with maxRefDepth := limit }
    let run (limit : Nat) := (compiler limit).compile schema outer
    ((run limit).1 = (run limit').1 ∧ (run limit).2.diagnostics = (run limit').2.diagnostics ∨
      (∃ reference location, (run limit).1 = .error (.refCycle reference location limit)) ∧
        (run limit).2.diagnostics <+: (run limit').2.diagnostics) ∧
    (compiler limit).MeetsOnly (withinLimit limit) schema outer := by
  intro compiler run
  have hstart : Counted limit (compiler limit).remaining (compiler limit) :=
    Counted.start resolver draft outerName limit
  constructor
  · obtain ⟨more, rfl⟩ : ∃ more, limit' = more + limit := ⟨limit' - limit, by omega⟩
    rcases hstart.cutsOff more schema outer with
      ⟨result, added, hgives, hgives'⟩ | ⟨failure, added, result, rest, hgives, hfails, hgives'⟩
    · have hrun : run limit = (result, { compiler limit with diagnostics := added }) := hgives.run_new
      have hrun' : run (more + limit) =
          (result, { compiler (more + limit) with diagnostics := added }) := hgives'.run_new
      rw [hrun, hrun']
      exact .inl ⟨rfl, rfl⟩
    · obtain ⟨reference, location, rfl⟩ := hfails
      have hrun : run limit = (_, { compiler limit with diagnostics := added }) := hgives.run_new
      have hrun' : run (more + limit) =
          (result, { compiler (more + limit) with diagnostics := added ++ rest }) := hgives'.run_new
      rw [hrun, hrun']
      exact .inr ⟨⟨reference, location, rfl⟩, List.prefix_append added rest⟩
  · refine (counted_invariant limit).meetsOnly ?_ ?_ trivial hstart
    · intro schema outer depth c _ h
      have hcount := h.count
      have hlength : c.active.length ≤ limit := by omega
      exact decide_eq_true ⟨hlength, h.nodup⟩
    · intro reference depth c h
      have hcount := h.count
      have hlength : c.active.length < limit := by omega
      exact decide_eq_true ⟨hlength, h.nodup⟩

def linkedSchema : Json :=
  .object [("anyOf", .array [.object [], .object [("$ref", .string "#/definitions/a")]]),
    ("definitions", .object [("a", .object [("type", .string "string")])])]

def linkedCompiler (limit : Nat) : Compiler :=
  let registry := Registry.empty.insert ⟨Document.defaultUrl, linkedSchema⟩
  { Compiler.new { registry, base := Document.defaultUrl } .draft07 "Linked" with maxRefDepth := limit }

/-- Where no reference may be followed, this one is one too many. -/
theorem compile_limits_linked :
    let run (limit : Nat) := (linkedCompiler limit).compile linkedSchema true
    0 ≤ 1 ∧
      (∃ location, (run 0).1 = .error (.refCycle "#/definitions/a" location 0)) ∧
      (run 1).1 = .ok (.union [.any, .scalar .string]) ∧
      ((run 0).1 = (run 1).1 ∧ (run 0).2.diagnostics = (run 1).2.diagnostics ∨
        (∃ reference location, (run 0).1 = .error (.refCycle reference location 0)) ∧
          (run 0).2.diagnostics <+: (run 1).2.diagnostics) ∧
      (linkedCompiler 0).MeetsOnly (withinLimit 0) linkedSchema true := by
  have hle : 0 ≤ 1 := by decide
  have hfails : ∃ location, ((linkedCompiler 0).compile linkedSchema true).1 =
      .error (.refCycle "#/definitions/a" location 0) := ⟨_, rfl⟩
  have hgives : ((linkedCompiler 1).compile linkedSchema true).1 =
      .ok (.union [.any, .scalar .string]) := by rfl
  have hlimits := Compiler.compile_limits (linkedCompiler 0).resolver .draft07 "Linked" linkedSchema
    true hle
  exact ⟨hle, hfails, hgives, hlimits⟩

end SchemaShape
