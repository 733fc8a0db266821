import SchemaShape.Proofs.Compiler.Simulation

/-! # The moments of a compile

A watch looks at the compiler each time a schema is about to be compiled and each time a reference is
about to be refused because it is being followed already. At a moment that it does not expect, the
compile stops with the alarm.

A compile meets only expected moments if it does the same under watch, whatever the alarm is: a failure is
never caught, so an unexpected moment would show. Between two moments the references being followed stay
as they are, as the next moment after following one is the compile of its target.
-/

namespace SchemaShape
set_option autoImplicit false

namespace Compile

/-- How references are followed where `depth` of them may still be followed inside one another. -/
def followUpTo : (depth : Nat) → Node.Follow
  | 0 => fun reference _ => refuse reference
  | depth + 1 => followTo (upTo depth)

theorem upTo_eq (depth : Nat) : upTo depth = schema (followUpTo depth) := by
  cases depth with
  | zero => rfl
  | succ depth => rfl

end Compile

/-! ## Moments and watches -/

inductive Moment where
  /-- The schema is about to be compiled, at the root position if `outer`. -/
  | schema (schema : Json) (outer : Bool)
  /-- The reference is about to be refused, as it is being followed already. -/
  | repeated (reference : String)

/-- Whether a reference leads to a URL that is refused. -/
def Compiler.repeats (c : Compiler) (reference : String) : Bool :=
  match c.resolver.resolve reference with
  | .ok (url, _) => c.refuses url
  | .error _ => false

structure Watch where
  expects : Moment → Compiler → Bool
  alarm : Failure

namespace Watch

variable (watch : Watch)

/-- What was reported so far has no say in what is expected. -/
def Passes (moment : Moment) (c : Compiler) : Prop :=
  watch.expects moment { c with diagnostics := [] } = true

/-! ## Compiling under watch -/

def guard (moment : Moment) (action : Compile Shape) : Compile Shape := fun c =>
  if watch.expects moment { c with diagnostics := [] } then action c else (.error watch.alarm, c)

def nested (follow : Node.Follow) : (height : Nat) → Json → Bool → Compile Shape
  | 0, _, _ => pure .any
  | height + 1, schema, outer => watch.guard (.schema schema outer)
      (Node.shape follow (fun inner => nested follow height inner false) schema outer)

def follow (compile : Json → Bool → Compile Shape) : Node.Follow := fun reference outer c =>
  if c.repeats reference then
    watch.guard (.repeated reference) (Compile.followTo compile reference outer) c
  else Compile.followTo compile reference outer c

/-- Follows references where `depth` of them may still be followed inside one another. -/
def followUpTo : (depth : Nat) → Node.Follow
  | 0 => fun reference _ => Compile.refuse reference
  | depth + 1 => watch.follow fun schema => nested watch (followUpTo depth) schema.height schema

def upTo (depth : Nat) (schema : Json) (outer : Bool) : Compile Shape :=
  watch.nested (watch.followUpTo depth) schema.height schema outer

/-- Expects everything. -/
def idle : Watch := ⟨fun _ _ => true, .invalidPath "" ""⟩

/-! ## What a guard does -/

variable {watch} {moment : Moment} {action : Compile Shape} {c : Compiler}
variable {result : Except Failure Shape} {added : List Diagnostic}

theorem gives_guard (hpasses : watch.Passes moment c) (h : action.Gives c result added) :
    (watch.guard moment action).Gives c result added := by
  intro prior
  have hexpects : watch.expects moment { c with diagnostics := [] } = true := hpasses
  show (if watch.expects moment { c with diagnostics := [] } then _ else _) = _
  rw [if_pos hexpects]
  exact h prior

theorem gives_alarm (hpasses : ¬ watch.Passes moment c) :
    (watch.guard moment action).Gives c (.error watch.alarm) [] := by
  intro prior
  have hexpects : ¬ watch.expects moment { c with diagnostics := [] } = true := hpasses
  show (if watch.expects moment { c with diagnostics := [] } then _ else _) = _
  rw [if_neg hexpects, List.append_nil]

theorem gives_follow_repeated {compile : Json → Bool → Compile Shape} {reference : String}
    {outer : Bool} (hrepeats : c.repeats reference = true)
    (h : (watch.guard (.repeated reference) (Compile.followTo compile reference outer)).Gives c result
      added) :
    (watch.follow compile reference outer).Gives c result added := by
  intro prior
  have hrepeats' : ({ c with diagnostics := prior } : Compiler).repeats reference = true := hrepeats
  simp only [follow, hrepeats', if_true]
  exact h prior

theorem gives_follow {compile : Json → Bool → Compile Shape} {reference : String} {outer : Bool}
    (hrepeats : c.repeats reference = false)
    (h : (Compile.followTo compile reference outer).Gives c result added) :
    (watch.follow compile reference outer).Gives c result added := by
  intro prior
  have hrepeats' : ({ c with diagnostics := prior } : Compiler).repeats reference = false := hrepeats
  simp only [follow, hrepeats', Bool.false_eq_true, if_false]
  exact h prior

/-! ## A watch that expects everything -/

theorem guard_idle (moment : Moment) (action : Compile Shape) : idle.guard moment action = action :=
  rfl

theorem nested_idle (follow : Node.Follow) (height : Nat) :
    idle.nested follow height = Compile.nested follow height := by
  induction height with
  | zero => rfl
  | succ height ih =>
    funext schema outer
    rw [nested, ih, guard_idle]
    rfl

theorem follow_idle (compile : Json → Bool → Compile Shape) :
    idle.follow compile = Compile.followTo compile := by
  funext reference outer c
  rw [follow, guard_idle, ite_self]

theorem followUpTo_idle (depth : Nat) : idle.followUpTo depth = Compile.followUpTo depth := by
  induction depth with
  | zero => rfl
  | succ depth ih =>
    rw [followUpTo, ih, follow_idle, Compile.followUpTo, Compile.upTo_eq]
    simp only [nested_idle]
    rfl

theorem upTo_idle (depth : Nat) (schema : Json) (outer : Bool) :
    idle.upTo depth schema outer = Compile.upTo depth schema outer := by
  rw [upTo, followUpTo_idle, nested_idle, Compile.upTo_eq]
  rfl

end Watch

/-- Compiled by `c`, the schema leads only to moments that are expected. -/
def Compiler.MeetsOnly (c : Compiler) (expects : Moment → Compiler → Bool) (schema : Json)
    (outer : Bool) : Prop :=
  ∀ alarm, Watch.upTo ⟨expects, alarm⟩ c.remaining schema outer c = c.compile schema outer

/-- Some alarm cannot be mistaken for what the compile gives. -/
theorem Compiler.MeetsOnly.exists_alarm {c : Compiler} {expects : Moment → Compiler → Bool}
    {schema : Json} {outer : Bool} (h : c.MeetsOnly expects schema outer) :
    ∃ alarm, Watch.upTo ⟨expects, alarm⟩ c.remaining schema outer c = c.compile schema outer ∧
      (c.compile schema outer).1 ≠ .error alarm := by
  by_cases hpath : (c.compile schema outer).1 = .error (.invalidPath "" "")
  · refine ⟨.varReference "" "", h _, fun hvariable => ?_⟩
    rw [hpath] at hvariable
    cases hvariable
  · exact ⟨.invalidPath "" "", h _, hpath⟩

end SchemaShape
