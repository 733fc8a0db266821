import SchemaShape.Compiler.Basic

/-! # What an action of the compiler gives

`action.Gives c result added`: run at `c`, whatever was reported before, the action ends in `result`,
reports `added`, and leaves the compiler as it was otherwise. So an action that gives something can
be read as a function from the place it runs at to a result and a list of diagnostics; one rule for
each primitive says which. `action.Tidy` says that the action gives something wherever it runs.
-/

namespace SchemaShape
set_option autoImplicit false

/-! ## Places -/

namespace Compiler

/-- Further down in the same document. -/
def below (c : Compiler) (tokens : List String) : Compiler :=
  { c with location := c.location.descend tokens }

/-- At a property of the current node. -/
def atProperty (c : Compiler) (key : String) : Compiler :=
  { c with
    names := c.names ++ [key], location := c.location.descend ["properties", key] }

/-- In another scope of the same node. -/
def within (c : Compiler) (resolver : Resolver) : Compiler :=
  { c with resolver }

/-- At the target of a reference. -/
def atTarget (c : Compiler) (url : Url) (location : Location) : Compiler :=
  { c with location, active := url.text :: c.active, resolver := c.resolver.enter url }

/-- What a warning here looks like. -/
def warning (c : Compiler) (kind : Diagnostic.Kind) (message : String) : Diagnostic :=
  ⟨.warning, kind, message, c.location.text⟩

end Compiler

theorem Location.ascend_descend (location : Location) (tokens : List String) :
    (location.descend tokens).ascend tokens.length = location := by
  have h : location.tokens.length + tokens.length - tokens.length = location.tokens.length := by omega
  simp only [Location.descend, Location.ascend, List.length_append, h, List.take_left']

theorem Resolver.leave_enter (resolver : Resolver) (url : Url) :
    (resolver.enter url).leave = resolver := rfl

theorem Resolver.enterId_ok {resolver entered : Resolver} {id : String}
    (h : resolver.enterId id = .ok entered) :
    ∃ url, resolver.scope.join id = .ok url ∧ entered = resolver.enter url := by
  simp only [Resolver.enterId] at h
  cases hjoin : resolver.scope.join id with
  | error e =>
    rw [hjoin] at h
    cases h
  | ok url =>
    rw [hjoin] at h
    cases h
    exact ⟨url, rfl, rfl⟩

namespace Compile

variable {α β : Type}

/-- Run at `c`, whatever was reported before, the action ends in `result`, reports `added` and
changes nothing else. -/
def Gives (action : Compile α) (c : Compiler) (result : Except Failure α)
    (added : List Diagnostic) : Prop :=
  ∀ prior, action { c with diagnostics := prior } =
    (result, { c with diagnostics := prior ++ added })

/-- The action gives something wherever it runs. -/
def Tidy (action : Compile α) : Prop :=
  ∀ c, ∃ result added, action.Gives c result added

theorem Gives.run {action : Compile α} {c : Compiler} {result : Except Failure α}
    {added : List Diagnostic} (h : action.Gives c result added) :
    action c = (result, { c with diagnostics := c.diagnostics ++ added }) :=
  h c.diagnostics

theorem Gives.unique {action : Compile α} {c : Compiler} {result result' : Except Failure α}
    {added added' : List Diagnostic} (h : action.Gives c result added)
    (h' : action.Gives c result' added') : result = result' ∧ added = added' := by
  have heq := (h []).symm.trans (h' [])
  simp only [Prod.mk.injEq, Compiler.mk.injEq, List.nil_append] at heq
  exact ⟨heq.1, heq.2.2.2.2.2.2.2.2.2⟩

/-! ## Rules -/

theorem gives_pure (value : α) (c : Compiler) : (pure value : Compile α).Gives c (.ok value) [] := by
  intro prior
  rw [List.append_nil]
  rfl

theorem bind_ok {action : Compile α} {next : α → Compile β} {c c' : Compiler} {value : α}
    (h : action c = (.ok value, c')) : (action >>= next) c = next value c' := by
  unfold bind Monad.toBind instMonad
  simp only [h]

theorem bind_error {action : Compile α} {next : α → Compile β} {c c' : Compiler}
    {failure : Failure} (h : action c = (.error failure, c')) :
    (action >>= next) c = (.error failure, c') := by
  unfold bind Monad.toBind instMonad
  simp only [h]

theorem gives_bind {action : Compile α} {next : α → Compile β} {c : Compiler} {value : α}
    {result : Except Failure β} {added added' : List Diagnostic}
    (h : action.Gives c (.ok value) added) (h' : (next value).Gives c result added') :
    (action >>= next).Gives c result (added ++ added') := by
  intro prior
  rw [bind_ok (h prior), ← List.append_assoc]
  exact h' (prior ++ added)

theorem gives_bind_error {action : Compile α} {next : α → Compile β} {c : Compiler}
    {failure : Failure} {added : List Diagnostic} (h : action.Gives c (.error failure) added) :
    (action >>= next).Gives c (.error failure) added := by
  intro prior
  exact bind_error (h prior)

theorem gives_fail {failure : Compiler → Failure} {c : Compiler}
    (h : ∀ prior, failure { c with diagnostics := prior } = failure c) :
    (fail failure : Compile α).Gives c (.error (failure c)) [] := by
  intro prior
  show ((.error (failure { c with diagnostics := prior }) : Except Failure α), _) = _
  rw [h prior, List.append_nil]

theorem gives_malformed (reason : String) (c : Compiler) :
    (malformed reason : Compile α).Gives c
      (.error (.malformedSchema reason c.location.text)) [] :=
  gives_fail fun _ => rfl

theorem gives_unsupported (reason : String) (c : Compiler) :
    (unsupported reason : Compile α).Gives c
      (.error (.unsupportedSchema reason c.location.text)) [] :=
  gives_fail fun _ => rfl

theorem gives_warn (kind : Diagnostic.Kind) (message : String) (c : Compiler) :
    (warn kind message).Gives c (.ok ()) [c.warning kind message] :=
  fun _ => rfl

theorem gives_inspect {f : Compiler → α} {c : Compiler}
    (h : ∀ prior, f { c with diagnostics := prior } = f c) :
    (inspect f).Gives c (.ok (f c)) [] := by
  intro prior
  show ((.ok (f { c with diagnostics := prior }) : Except Failure α), _) = _
  rw [h prior, List.append_nil]

theorem gives_descend {tokens : List String} {action : Compile α} {c : Compiler}
    {result : Except Failure α} {added : List Diagnostic}
    (h : action.Gives (c.below tokens) result added) :
    (descend tokens action).Gives c result added := by
  intro prior
  have hrun := h prior
  simp only [Compiler.below] at hrun
  simp only [descend, between, hrun, Location.ascend_descend]

theorem gives_descendProperty {key : String} {action : Compile α} {c : Compiler}
    {result : Except Failure α} {added : List Diagnostic}
    (h : action.Gives (c.atProperty key) result added) :
    (descendProperty key action).Gives c result added := by
  intro prior
  have hinner : (descend ["properties", key] action).Gives { c with names := c.names ++ [key] }
      result added := gives_descend h
  have hrun := hinner prior
  simp only at hrun
  simp only [descendProperty, between, hrun, List.dropLast_concat]

theorem gives_inScope {id : String} {action : Compile α} {c : Compiler} {resolver : Resolver}
    {result : Except Failure α} {added : List Diagnostic}
    (enter : c.resolver.enterId id = .ok resolver)
    (h : action.Gives (c.within resolver) result added) :
    (inScope id action).Gives c result added := by
  intro prior
  obtain ⟨url, -, rfl⟩ := Resolver.enterId_ok enter
  have hrun := h prior
  simp only [Compiler.within] at hrun
  simp only [inScope, enter, between, hrun, Resolver.leave_enter]

theorem gives_inScope_error {id : String} {action : Compile α} {c : Compiler} {error : UrlError}
    (enter : c.resolver.enterId id = .error error) :
    (inScope id action).Gives c (.error (.malformedSchema
      ("bad identifier " ++ Text.quoted id ++ ": " ++ error.message) c.location.text)) [] := by
  intro prior
  have hrun := gives_malformed (α := α)
    ("bad identifier " ++ Text.quoted id ++ ": " ++ error.message) c prior
  simp only [inScope, enter, hrun]

theorem gives_atTarget {url : Url} {location : Location} {action : Compile α} {c : Compiler}
    {result : Except Failure α} {added : List Diagnostic}
    (h : action.Gives (c.atTarget url location) result added) :
    (atTarget url location action).Gives c result added := by
  intro prior
  have hrun := h prior
  simp only [Compiler.atTarget] at hrun
  simp only [atTarget, between, hrun, Resolver.leave_enter, List.drop_one, List.tail_cons]

theorem gives_refuse (reference : String) (c : Compiler) :
    (refuse reference).Gives c
      (.error (.refCycle reference c.location.text c.active.length)) [] :=
  gives_fail fun _ => rfl

theorem gives_followTo_error {compile : Json → Bool → Compile Shape} {reference : String}
    {outer : Bool} {c : Compiler} {failure : Failure}
    (h : c.resolver.resolve reference = .error failure) :
    (followTo compile reference outer).Gives c (.error failure) [] := by
  intro prior
  simp only [followTo, h, List.append_nil]

theorem gives_followTo_refused {compile : Json → Bool → Compile Shape} {reference : String}
    {outer : Bool} {c : Compiler} {url : Url} {target : Json}
    (h : c.resolver.resolve reference = .ok (url, target))
    (refused : (c.refusesRepeats && c.active.contains url.text) = true) :
    (followTo compile reference outer).Gives c
      (.error (.refCycle reference c.location.text c.active.length)) [] := by
  intro prior
  have hrun := gives_refuse reference c prior
  simp only [followTo, h, if_pos refused, hrun]

theorem gives_followTo {compile : Json → Bool → Compile Shape} {reference : String}
    {outer : Bool} {c : Compiler} {url : Url} {target : Json} {result : Except Failure Shape}
    {added : List Diagnostic} (h : c.resolver.resolve reference = .ok (url, target))
    (allowed : (c.refusesRepeats && c.active.contains url.text) = false)
    (hgives : (compile target outer).Gives
      (c.atTarget url (targetLocation c.resolver url)) result added) :
    (followTo compile reference outer).Gives c result added := by
  intro prior
  have hrun := gives_atTarget hgives prior
  simp only [followTo, h, allowed, Bool.false_eq_true, if_false, hrun]

/-! ## Reading a success back -/

theorem Gives.bind_ok {action : Compile α} {next : α → Compile β} {c : Compiler} {value : β}
    {added : List Diagnostic} (tidy : action.Tidy) (tidyNext : ∀ first, (next first).Tidy)
    (h : (action >>= next).Gives c (.ok value) added) :
    ∃ first before after, action.Gives c (.ok first) before ∧
      (next first).Gives c (.ok value) after ∧ added = before ++ after := by
  obtain ⟨result, before, hfirst⟩ := tidy c
  cases result with
  | error e => cases (h.unique (gives_bind_error hfirst)).1
  | ok first =>
    obtain ⟨result', after, hnext⟩ := tidyNext first c
    obtain ⟨rfl, rfl⟩ := h.unique (gives_bind hfirst hnext)
    exact ⟨first, before, after, hfirst, hnext, rfl⟩

theorem Gives.pure_ok {value value' : α} {c : Compiler} {added : List Diagnostic}
    (h : (pure value : Compile α).Gives c (.ok value') added) : value' = value ∧ added = [] := by
  obtain ⟨heq, hadded⟩ := h.unique (gives_pure value c)
  cases heq
  exact ⟨rfl, hadded⟩

theorem Gives.descend_ok {tokens : List String} {action : Compile α} {c : Compiler}
    {result : Except Failure α} {added : List Diagnostic} (tidy : action.Tidy)
    (h : (descend tokens action).Gives c result added) :
    action.Gives (c.below tokens) result added := by
  obtain ⟨result', added', hinner⟩ := tidy (c.below tokens)
  obtain ⟨rfl, rfl⟩ := h.unique (gives_descend hinner)
  exact hinner

theorem Gives.descendProperty_ok {key : String} {action : Compile α} {c : Compiler}
    {result : Except Failure α} {added : List Diagnostic} (tidy : action.Tidy)
    (h : (descendProperty key action).Gives c result added) :
    action.Gives (c.atProperty key) result added := by
  obtain ⟨result', added', hinner⟩ := tidy (c.atProperty key)
  obtain ⟨rfl, rfl⟩ := h.unique (gives_descendProperty hinner)
  exact hinner

theorem Gives.inScope_ok {id : String} {action : Compile α} {c : Compiler} {value : α}
    {added : List Diagnostic} (tidy : action.Tidy)
    (h : (inScope id action).Gives c (.ok value) added) :
    ∃ resolver, c.resolver.enterId id = .ok resolver ∧
      action.Gives (c.within resolver) (.ok value) added := by
  cases enter : c.resolver.enterId id with
  | error e => cases (h.unique (gives_inScope_error enter)).1
  | ok resolver =>
    obtain ⟨result, added', hinner⟩ := tidy (c.within resolver)
    obtain ⟨rfl, rfl⟩ := h.unique (gives_inScope enter hinner)
    exact ⟨resolver, rfl, hinner⟩

end Compile

end SchemaShape
