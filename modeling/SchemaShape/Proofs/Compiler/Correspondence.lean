import Mathlib.Data.List.Forall2
import SchemaShape.Proofs.Compiler.Outcome
import SchemaShape.Proofs.Json.Parts

/-! # Corresponding compiles

Two actions that run at different places may do the same work: both come to an end, either both with
values or both with failures, and what one gives and reports has a counterpart in what the other
gives and reports. What counts as a counterpart is a `Correspondence`, and its laws say what two
places have to agree on for the compiler to do the same work at both.

A correspondence may also name failures that cut the first side off, such as running out of
references: then nothing is said of the other side, or no more than that it goes on from there. This is
how two compiles are compared of which one gives up earlier.
-/

namespace SchemaShape
set_option autoImplicit false

/-! ## Schemas in schemas -/

namespace Node

def branchKeywords : List String := ["allOf", "anyOf", "oneOf"]

/-- A schema that stands in another one as a schema, and not as data. -/
inductive Subschema (schema : Members) : Json → Prop where
  | branch {keyword : String} {branches : List Json} {part : Json}
      (hkeyword : keyword ∈ branchKeywords) (hget : schema.get? keyword = some (.array branches))
      (mem : part ∈ branches) : Subschema schema part
  | property {properties : Members} {key : String} {part : Json}
      (hget : schema.get? "properties" = some (.object properties))
      (mem : (key, part) ∈ properties) : Subschema schema part
  | position {items : List Json} {part : Json}
      (hget : schema.get? "items" = some (.array items)) (mem : part ∈ items) :
      Subschema schema part
  | items {part : Json} (hget : schema.get? "items" = some part) : Subschema schema part

variable {schema : Members} {part : Json}

theorem Subschema.within (h : Subschema schema part) : part.Within (.object schema) := by
  cases h with
  | branch _ hget mem => exact .member (Members.mem_of_get? hget) (.item mem (.refl part))
  | property hget mem => exact .member (Members.mem_of_get? hget) (.member mem (.refl part))
  | position hget mem => exact .member (Members.mem_of_get? hget) (.item mem (.refl part))
  | items hget => exact .member (Members.mem_of_get? hget) (.refl part)

theorem Subschema.height_lt (h : Subschema schema part) :
    part.height < (Json.object schema).height := by
  cases h with
  | branch _ hget mem => exact Json.height_itemOf (Members.mem_of_get? hget) mem
  | property hget mem => exact Json.height_memberOf (Members.mem_of_get? hget) mem
  | position hget mem => exact Json.height_itemOf (Members.mem_of_get? hget) mem
  | items hget => exact Json.height_member (Members.mem_of_get? hget)

end Node

/-! ## What rules and places have in common -/

/-- The shapes that rules give by themselves, `integer` apart. -/
def Shape.isFixed : Shape → Bool
  | scalar kind => kind != .int
  | literal _ | mapping (.scalar .any) | list (.scalar .any) | nothing => true
  | _ => false

def Draft.integerShape (draft : Draft) : Shape :=
  if draft.integersAreExact then .scalar .int else .union [.scalar .int, .scalar .number]

/-- The two schemas cannot be told apart by compiling them. -/
def Compile.Interchangeable (schema schema' : Json) : Prop :=
  ∀ depth outer, upTo depth schema outer = upTo depth schema' outer

/-- The places differ in nothing but their registries, their limits, and whether they refuse repeats. -/
def Compiler.Akin (c c' : Compiler) : Prop :=
  ∃ registry refusesRepeats maxRefDepth, c' =
    { c with refusesRepeats, maxRefDepth, resolver := { c.resolver with registry } }

def Compiler.refuses (c : Compiler) (url : Url) : Bool :=
  c.refusesRepeats && c.active.contains url.text

/-! ## Correspondences -/

/-- Both are values, or both failures. -/
inductive Outcomes {α β : Type} (failures : Failure → Failure → Prop) (values : α → β → Prop) :
    Except Failure α → Except Failure β → Prop where
  | value {x : α} {y : β} (h : values x y) : Outcomes failures values (.ok x) (.ok y)
  | failure {e e' : Failure} (h : failures e e') : Outcomes failures values (.error e) (.error e')

structure Correspondence where
  /-- The schemas that are compiled. -/
  admits : Json → Prop
  states : Compiler → Compiler → Prop
  shapes : Shape → Shape → Prop
  /-- Whether the two sides are at the root position. -/
  flags : Bool → Bool → Prop
  entries : Diagnostic → Diagnostic → Prop
  failures : Failure → Failure → Prop
  /-- Failures that cut the first side off. -/
  cut : Failure → Prop := fun _ => False
  /-- Whether the second side goes on where the first one is cut off. -/
  resumes : Prop := False

namespace Correspondence

variable {α α' β β' : Type} (K : Correspondence)

/-- The action goes on after a report that corresponds to `added`. -/
def Resumes (values : α → α' → Prop) (added : List Diagnostic) (action' : Compile α')
    (c' : Compiler) : Prop :=
  ∃ result' before rest, action'.Gives c' result' (before ++ rest) ∧
    List.Forall₂ K.entries added before ∧ ∀ y, result' = .ok y → ∃ x, values x y

/-- The two actions come to corresponding ends at two places, unless the first one is cut off. -/
def Matches (values : α → α' → Prop) (action : Compile α) (action' : Compile α')
    (c c' : Compiler) : Prop :=
  (∃ result added result' added', action.Gives c result added ∧ action'.Gives c' result' added' ∧
    Outcomes K.failures values result result' ∧ List.Forall₂ K.entries added added') ∨
  ∃ failure added, action.Gives c (.error failure) added ∧ K.cut failure ∧
    (K.resumes → K.Resumes values added action' c')

def Fields (field field' : Field Shape) : Prop :=
  field.key = field'.key ∧ field.required = field'.required ∧ K.shapes field.shape field'.shape

/-- Two schemas are compiled to corresponding ends wherever places correspond. -/
def Parts (inner inner' : Node.Inner) (part part' : Json) : Prop :=
  ∀ c c', K.states c c' → K.Matches K.shapes (inner part) (inner' part') c c'

def Inners (schema : Members) (inner inner' : Node.Inner) : Prop :=
  ∀ part, Node.Subschema schema part → K.Parts inner inner' part part

def SameRoot (c c' : Compiler) (outer outer' : Bool) : Prop :=
  (outer && c.active.isEmpty) = (outer' && c'.active.isEmpty)

def Follows (target : String) (follow follow' : Node.Follow) : Prop :=
  ∀ c c' outer outer', K.states c c' → K.flags outer outer' →
    K.Matches K.shapes (follow target outer) (follow' target outer') c c'

def References (follow follow' : Node.Follow) : Prop :=
  ∀ schema target, K.admits (.object schema) → Members.get? schema "$ref" = some (.string target) →
    target ≠ "#" → K.Follows target follow follow'

/-- What an identifier does at two places. -/
def Enters (id : String) (c c' : Compiler) : Prop :=
  match c.resolver.enterId id, c'.resolver.enterId id with
  | .ok resolver, .ok resolver' => K.states (c.within resolver) (c'.within resolver')
  | .error e, .error e' => e = e'
  | _, _ => False

/-- Refusing a reference cuts the first side off, and nothing is said of the second one. -/
def CutsCycles : Prop :=
  ¬ K.resumes ∧ ∀ reference location depth, K.cut (.refCycle reference location depth)

/-- What a reference resolves to at two places: the same node to the compiler, at places that are in
`targets` unless the reference is refused. The first side may be cut off where the second one goes on. -/
def ResolvesTo (targets : Compiler → Compiler → Prop) (reference : String) (c c' : Compiler) : Prop :=
  match c.resolver.resolve reference, c'.resolver.resolve reference with
  | .ok (url, target), .ok (url', target') =>
    Compile.Interchangeable target target' ∧ K.admits target ∧
      (c.refuses url = c'.refuses url' ∨ c.refuses url = true ∧ K.CutsCycles) ∧
      (c.refuses url = false → targets (c.atTarget url (Compile.targetLocation c.resolver url))
        (c'.atTarget url' (Compile.targetLocation c'.resolver url')))
  | .error e, .error e' => K.failures e e'
  | .error e, .ok _ => ¬ K.resumes ∧ K.cut e
  | .ok _, .error _ => False

/-- What a reference resolves to at two places, at which one goes on as at these. -/
def Resolves (reference : String) (c c' : Compiler) : Prop :=
  K.ResolvesTo K.states reference c c'

/-- What two places have to agree on for the rules of a node. -/
structure Rules : Prop where
  below : ∀ {c c'} tokens, K.states c c' → K.states (c.below tokens) (c'.below tokens)
  atProperty : ∀ {c c'} key, K.states c c' → K.states (c.atProperty key) (c'.atProperty key)
  integers : ∀ {c c'}, K.states c c' → K.shapes c.draft.integerShape c'.draft.integerShape
  warning : ∀ {c c'} kind message, K.states c c' →
    K.entries (c.warning kind message) (c'.warning kind message)
  malformed : ∀ {c c'} reason, K.states c c' →
    K.failures (.malformedSchema reason c.location.text) (.malformedSchema reason c'.location.text)
  unsupported : ∀ {c c'} reason, K.states c c' → K.failures
    (.unsupportedSchema reason c.location.text) (.unsupportedSchema reason c'.location.text)
  rootType : ∀ {c c'} types, K.states c c' → K.failures
    (.unsupportedRootType types c.location.text) (.unsupportedRootType types c'.location.text)
  inner : K.flags false false
  fixed : ∀ shape : Shape, shape.isFixed = true → K.shapes shape shape
  nothing : ∀ {shape shape'}, K.shapes shape shape' → shape.isNothing = shape'.isNothing
  union : ∀ {members members'}, List.Forall₂ K.shapes members members' →
    K.shapes (.union members) (.union members')
  list : ∀ {element element'}, K.shapes element element' →
    K.shapes (.list element) (.list element')
  tuple : ∀ {elements elements'}, List.Forall₂ K.shapes elements elements' →
    K.shapes (.tuple elements) (.tuple elements')
  record : ∀ {c c' outer outer' fields fields'}, K.states c c' → K.flags outer outer' →
    List.Forall₂ K.Fields fields fields' →
    K.shapes (.record c.recordName outer fields) (.record c'.recordName outer' fields')
  self : ∀ {schema : Members} {c c'}, K.admits (.object schema) → K.states c c' →
    schema.get? "$ref" = some (.string "#") →
    K.shapes (.record c.outerName true []) (.record c'.outerName true [])

/-- What they have to agree on for whole schemas, references apart. -/
structure Scoped : Prop extends K.Rules where
  part : ∀ {schema part}, K.admits (.object schema) → Node.Subschema schema part → K.admits part
  ids : ∀ {schema : Members} {c c'}, K.admits (.object schema) → K.states c c' →
    c.draft.idOf? schema = c'.draft.idOf? schema
  enters : ∀ {schema : Members} {c c' id}, K.admits (.object schema) → K.states c c' →
    c.draft.idOf? schema = some id → K.Enters id c c'

/-- What they have to agree on for whole compiles. -/
structure Lawful : Prop extends K.Scoped where
  resolves : ∀ {schema : Members} {c c' target}, K.admits (.object schema) → K.states c c' →
    schema.get? "$ref" = some (.string target) → target ≠ "#" → K.Resolves target c c'
  refCycle : ∀ {c c'} reference, K.states c c' → K.failures
    (.refCycle reference c.location.text c.active.length)
    (.refCycle reference c'.location.text c'.active.length)

/-! ## Lookups -/

variable {K} {values : α → α' → Prop} {c c' : Compiler}

theorem enters_of_join {id : String}
    (hjoin : c'.resolver.scope.join id = c.resolver.scope.join id)
    (h : ∀ url, c.resolver.scope.join id = .ok url →
      K.states (c.within (c.resolver.enter url)) (c'.within (c'.resolver.enter url))) :
    K.Enters id c c' := by
  rw [Enters, Resolver.enterId, Resolver.enterId, hjoin]
  cases hurl : c.resolver.scope.join id with
  | error e => rfl
  | ok url => exact h url hurl

theorem resolvesTo_of_resolve {targets : Compiler → Compiler → Prop} {reference : String}
    (hresolve : c'.resolver.resolve reference = c.resolver.resolve reference)
    (hfails : ∀ failure, c.resolver.resolve reference = .error failure →
      K.failures failure failure)
    (hfinds : ∀ url target, c.resolver.resolve reference = .ok (url, target) → K.admits target ∧
      (c.refuses url = c'.refuses url ∨ c.refuses url = true ∧ K.CutsCycles) ∧
      (c.refuses url = false → targets (c.atTarget url (Compile.targetLocation c.resolver url))
        (c'.atTarget url (Compile.targetLocation c'.resolver url)))) :
    K.ResolvesTo targets reference c c' := by
  rw [ResolvesTo, hresolve]
  cases hfound : c.resolver.resolve reference with
  | error failure => exact hfails failure hfound
  | ok found =>
    obtain ⟨url, target⟩ := found
    exact ⟨fun _ _ => rfl, hfinds url target hfound⟩

/-! ## Rules -/

theorem matches_ends {action : Compile α} {action' : Compile α'} {result : Except Failure α}
    {result' : Except Failure α'} {added added' : List Diagnostic}
    (hgives : action.Gives c result added) (hgives' : action'.Gives c' result' added')
    (houtcomes : Outcomes K.failures values result result')
    (hentries : List.Forall₂ K.entries added added') : K.Matches values action action' c c' :=
  .inl ⟨_, _, _, _, hgives, hgives', houtcomes, hentries⟩

theorem matches_cut {action : Compile α} {action' : Compile α'} {failure : Failure}
    {added : List Diagnostic} (hgives : action.Gives c (.error failure) added)
    (hcut : K.cut failure) (hresumes : K.resumes → K.Resumes values added action' c') :
    K.Matches values action action' c c' :=
  .inr ⟨_, _, hgives, hcut, hresumes⟩

theorem matches_pure {x : α} {y : α'} (h : values x y) :
    K.Matches values (pure x) (pure y) c c' :=
  matches_ends (Compile.gives_pure x c) (Compile.gives_pure y c') (.value h) .nil

theorem Matches.resumes {action : Compile α} {action' : Compile α'}
    (h : K.Matches values action action' c c') (hresumes : K.resumes) :
    ∃ added, K.Resumes values added action' c' := by
  rcases h with ⟨_, added, result', added', -, hgives', houtcomes, hentries⟩ | ⟨_, added, -, -, h⟩
  · refine ⟨added, result', added', [], ?_, hentries, fun y hy => ?_⟩
    · rwa [List.append_nil]
    · subst hy
      cases houtcomes with
      | value hvalues => exact ⟨_, hvalues⟩
  · exact ⟨added, h hresumes⟩

theorem Resumes.bind {values' : β → β' → Prop} {added : List Diagnostic} {action' : Compile α'}
    {next : α → Compile β} {next' : α' → Compile β'} (hresumes : K.resumes)
    (h : K.Resumes values added action' c')
    (hnext : ∀ x y, values x y → K.Matches values' (next x) (next' y) c c') :
    K.Resumes values' added (action' >>= next') c' := by
  obtain ⟨result', before, rest, hgives', hentries, hvalue⟩ := h
  cases result' with
  | error e =>
    refine ⟨.error e, before, rest, Compile.gives_bind_error hgives', hentries, fun _ hy => ?_⟩
    cases hy
  | ok y =>
    obtain ⟨x, hxy⟩ := hvalue y rfl
    obtain ⟨_, result'', front, back, hthen', -, hvalue'⟩ := (hnext x y hxy).resumes hresumes
    refine ⟨result'', before, rest ++ (front ++ back), ?_, hentries, hvalue'⟩
    rw [← List.append_assoc]
    exact Compile.gives_bind hgives' hthen'

theorem matches_bind {values' : β → β' → Prop} {action : Compile α} {action' : Compile α'}
    {next : α → Compile β} {next' : α' → Compile β'} (h : K.Matches values action action' c c')
    (hnext : ∀ x y, values x y → K.Matches values' (next x) (next' y) c c') :
    K.Matches values' (action >>= next) (action' >>= next') c c' := by
  rcases h with
    ⟨_, added, _, added', hgives, hgives', houtcomes, hentries⟩ | ⟨_, added, hgives, hcut, hresumes⟩
  · cases houtcomes with
    | failure hfailures =>
      exact matches_ends (Compile.gives_bind_error hgives) (Compile.gives_bind_error hgives')
        (.failure hfailures) hentries
    | value hvalues =>
      rcases hnext _ _ hvalues with
        ⟨_, _, _, _, hthen, hthen', houtcomes, hafter⟩ | ⟨_, _, hthen, hcut, hresumes⟩
      · exact matches_ends (Compile.gives_bind hgives hthen) (Compile.gives_bind hgives' hthen')
          houtcomes (List.rel_append hentries hafter)
      · refine matches_cut (Compile.gives_bind hgives hthen) hcut fun hgoes => ?_
        obtain ⟨result', before, rest, hthen', hafter, hvalue⟩ := hresumes hgoes
        refine ⟨result', added' ++ before, rest, ?_, List.rel_append hentries hafter, hvalue⟩
        rw [List.append_assoc]
        exact Compile.gives_bind hgives' hthen'
  · exact matches_cut (Compile.gives_bind_error hgives) hcut
      fun hgoes => (hresumes hgoes).bind hgoes hnext

theorem matches_of_gives {action action₂ : Compile α} {action' action₂' : Compile α'}
    {d d' : Compiler}
    (hgives : ∀ result added, action.Gives c result added → action₂.Gives d result added)
    (hgives' : ∀ result added, action'.Gives c' result added → action₂'.Gives d' result added)
    (h : K.Matches values action action' c c') : K.Matches values action₂ action₂' d d' := by
  rcases h with ⟨_, _, _, _, hleft, hright, houtcomes, hentries⟩ | ⟨_, _, hleft, hcut, hresumes⟩
  · exact matches_ends (hgives _ _ hleft) (hgives' _ _ hright) houtcomes hentries
  · refine matches_cut (hgives _ _ hleft) hcut fun hgoes => ?_
    obtain ⟨result', before, rest, hright, hentries⟩ := hresumes hgoes
    exact ⟨result', before, rest, hgives' _ _ hright, hentries⟩

theorem matches_inspect {values' : β → β' → Prop} {f : Compiler → α} {f' : Compiler → α'}
    {next : α → Compile β} {next' : α' → Compile β'}
    (hf : ∀ prior, f { c with diagnostics := prior } = f c)
    (hf' : ∀ prior, f' { c' with diagnostics := prior } = f' c')
    (h : K.Matches values' (next (f c)) (next' (f' c')) c c') :
    K.Matches values' (Compile.inspect f >>= next) (Compile.inspect f' >>= next') c c' :=
  matches_of_gives (fun _ _ hgives => Compile.gives_bind (Compile.gives_inspect hf) hgives)
    (fun _ _ hgives => Compile.gives_bind (Compile.gives_inspect hf') hgives) h

theorem matches_descend {action : Compile α} {action' : Compile α'} {tokens : List String}
    (h : K.Matches values action action' (c.below tokens) (c'.below tokens)) :
    K.Matches values (Compile.descend tokens action) (Compile.descend tokens action') c c' :=
  matches_of_gives (fun _ _ => Compile.gives_descend) (fun _ _ => Compile.gives_descend) h

theorem matches_descendProperty {action : Compile α} {action' : Compile α'} {key : String}
    (h : K.Matches values action action' (c.atProperty key) (c'.atProperty key)) :
    K.Matches values (Compile.descendProperty key action) (Compile.descendProperty key action')
      c c' :=
  matches_of_gives (fun _ _ => Compile.gives_descendProperty)
    (fun _ _ => Compile.gives_descendProperty) h

def withStates (K : Correspondence) (states : Compiler → Compiler → Prop) : Correspondence :=
  { K with states }

/-- The same correspondence, only where the first side is at some of the places. -/
def restrict (K : Correspondence) (place : Compiler → Prop) : Correspondence :=
  K.withStates fun c c' => K.states c c' ∧ place c

namespace Rules

variable (laws : K.Rules)

include laws

theorem restrict {place : Compiler → Prop} (hbelow : ∀ c tokens, place c → place (c.below tokens))
    (hproperty : ∀ c key, place c → place (c.atProperty key)) :
    (K.restrict place).Rules where
  below := fun tokens h => ⟨laws.below tokens h.1, hbelow _ tokens h.2⟩
  atProperty := fun key h => ⟨laws.atProperty key h.1, hproperty _ key h.2⟩
  integers := fun h => laws.integers h.1
  warning := fun kind message h => laws.warning kind message h.1
  malformed := fun reason h => laws.malformed reason h.1
  unsupported := fun reason h => laws.unsupported reason h.1
  rootType := fun types h => laws.rootType types h.1
  inner := laws.inner
  fixed := laws.fixed
  nothing := laws.nothing
  union := laws.union
  list := laws.list
  tuple := laws.tuple
  record := fun h => laws.record h.1
  self := fun hadmits h => laws.self hadmits h.1

theorem matches_malformed (h : K.states c c') (reason : String) :
    K.Matches values (Compile.malformed reason) (Compile.malformed reason) c c' :=
  matches_ends (Compile.gives_malformed reason c) (Compile.gives_malformed reason c')
    (.failure (laws.malformed reason h)) .nil

theorem matches_unsupported (h : K.states c c') (reason : String) :
    K.Matches values (Compile.unsupported reason) (Compile.unsupported reason) c c' :=
  matches_ends (Compile.gives_unsupported reason c) (Compile.gives_unsupported reason c')
    (.failure (laws.unsupported reason h)) .nil

theorem matches_warn (h : K.states c c') (kind : Diagnostic.Kind) (message : String) :
    K.Matches Eq (Compile.warn kind message) (Compile.warn kind message) c c' :=
  matches_ends (Compile.gives_warn kind message c) (Compile.gives_warn kind message c')
    (.value rfl) (.cons (laws.warning kind message h) .nil)

theorem matches_warn_then {action : Compile α} {action' : Compile α'} {kind : Diagnostic.Kind}
    {message : String} (h : K.states c c') (haction : K.Matches values action action' c c') :
    K.Matches values (do Compile.warn kind message; action)
      (do Compile.warn kind message; action') c c' :=
  matches_bind (laws.matches_warn h kind message) fun _ _ _ => haction

theorem matches_inScope {id : String} {action : Compile α} {action' : Compile α'}
    (h : K.states c c') (henters : K.Enters id c c')
    (haction : ∀ resolver resolver', c.resolver.enterId id = .ok resolver →
      K.states (c.within resolver) (c'.within resolver') →
      K.Matches values action action' (c.within resolver) (c'.within resolver')) :
    K.Matches values (Compile.inScope id action) (Compile.inScope id action') c c' := by
  rw [Enters] at henters
  split at henters
  · next enter enter' =>
    exact matches_of_gives (fun _ _ => Compile.gives_inScope enter)
      (fun _ _ => Compile.gives_inScope enter') (haction _ _ enter henters)
  · next enter enter' =>
    subst henters
    exact matches_ends (Compile.gives_inScope_error enter) (Compile.gives_inScope_error enter')
      (.failure (laws.malformed _ h)) .nil
  · exact henters.elim

theorem orAny {shape shape' : Shape} (h : K.shapes shape shape') :
    K.shapes shape.orAny shape'.orAny := by
  have hnothing := laws.nothing h
  cases shape <;> cases shape' <;>
    first
    | exact h
    | exact laws.fixed _ rfl
    | cases hnothing

end Rules

/-! ## Equal ends -/

theorem fields_eq {K : Correspondence} (hshapes : K.shapes = Eq) {fields fields' : List (Field Shape)}
    (h : List.Forall₂ K.Fields fields fields') : fields = fields' := by
  induction h with
  | nil => rfl
  | @cons field field' rest rest' hfield _ ih =>
    obtain ⟨hkey, hrequired, hshape⟩ := hfield
    rw [hshapes] at hshape
    rw [ih]
    cases field
    cases field'
    simp only at hkey hrequired hshape
    rw [hkey, hrequired, hshape]

/-- Where corresponding shapes are equal, and the places agree on what shapes depend on, nothing but their
reports is left to agree on. -/
theorem rules_of_equal {K : Correspondence} (hshapes : K.shapes = Eq) (hflags : K.flags = Eq)
    (hagree : ∀ {c c'}, K.states c c' →
      c.draft = c'.draft ∧ c.outerName = c'.outerName ∧ c.names = c'.names)
    (below : ∀ {c c'} tokens, K.states c c' → K.states (c.below tokens) (c'.below tokens))
    (atProperty : ∀ {c c'} key, K.states c c' → K.states (c.atProperty key) (c'.atProperty key))
    (warning : ∀ {c c'} kind message, K.states c c' →
      K.entries (c.warning kind message) (c'.warning kind message))
    (malformed : ∀ {c c'} reason, K.states c c' → K.failures
      (.malformedSchema reason c.location.text) (.malformedSchema reason c'.location.text))
    (unsupported : ∀ {c c'} reason, K.states c c' → K.failures
      (.unsupportedSchema reason c.location.text) (.unsupportedSchema reason c'.location.text))
    (rootType : ∀ {c c'} types, K.states c c' → K.failures
      (.unsupportedRootType types c.location.text) (.unsupportedRootType types c'.location.text)) :
    K.Rules where
  below := below
  atProperty := atProperty
  integers := fun h => by rw [hshapes, (hagree h).1]
  warning := warning
  malformed := malformed
  unsupported := unsupported
  rootType := rootType
  inner := by rw [hflags]
  fixed := fun _ _ => by rw [hshapes]
  nothing := by
    rw [hshapes]
    exact fun h => congrArg Shape.isNothing h
  union := by
    rw [hshapes, List.forall₂_eq_eq_eq]
    exact fun h => congrArg Shape.union h
  list := by
    rw [hshapes]
    exact fun h => congrArg Shape.list h
  tuple := by
    rw [hshapes, List.forall₂_eq_eq_eq]
    exact fun h => congrArg Shape.tuple h
  record := by
    intro c c' outer outer' fields fields' h houter hfields
    obtain ⟨-, hname, hnames⟩ := hagree h
    rw [hflags] at houter
    rw [hshapes, Compiler.recordName, Compiler.recordName, hname, hnames, houter,
      fields_eq hshapes hfields]
  self := by
    intro schema c c' _ h _
    rw [hshapes, (hagree h).2.1]

/-- Both sides give and report the same, unless the first one is cut off. -/
def identicalUnless (cut : Failure → Prop) (admits : Json → Prop)
    (states : Compiler → Compiler → Prop) : Correspondence where
  admits := admits
  states := states
  shapes := Eq
  flags := Eq
  entries := Eq
  failures := Eq
  cut := cut

def identical : (Json → Prop) → (Compiler → Compiler → Prop) → Correspondence :=
  identicalUnless fun _ => False

section

variable {cut : Failure → Prop} {admits : Json → Prop} {states : Compiler → Compiler → Prop}

theorem alike {γ : Type} {c c' : Compiler}
    (akin : ∀ {c c'}, states c c' → c.Akin c')
    (f : Compiler → γ)
    (hf : ∀ (c : Compiler) registry refusesRepeats maxRefDepth,
      f { c with refusesRepeats, maxRefDepth, resolver := { c.resolver with registry } } = f c)
    (h : states c c') : f c = f c' := by
  obtain ⟨registry, refusesRepeats, maxRefDepth, rfl⟩ := akin h
  exact (hf c registry refusesRepeats maxRefDepth).symm

theorem identical_scoped
    (part : ∀ {schema part}, admits (.object schema) → Node.Subschema schema part → admits part)
    (below : ∀ {c c'} tokens, states c c' → states (c.below tokens) (c'.below tokens))
    (atProperty : ∀ {c c'} key, states c c' → states (c.atProperty key) (c'.atProperty key))
    (akin : ∀ {c c'}, states c c' → c.Akin c')
    (enters : ∀ {schema : Members} {c c' id}, admits (.object schema) → states c c' →
      c.draft.idOf? schema = some id → (identicalUnless cut admits states).Enters id c c') :
    (identicalUnless cut admits states).Scoped where
  toRules := by
    refine rules_of_equal rfl rfl ?_ below atProperty ?_ ?_ ?_ ?_
    · intro c c' h
      obtain ⟨registry, refusesRepeats, maxRefDepth, rfl⟩ := akin h
      exact ⟨rfl, rfl, rfl⟩
    · exact fun kind message => alike akin (·.warning kind message) fun _ _ _ _ => rfl
    · exact fun reason =>
        alike akin (fun c => Failure.malformedSchema reason c.location.text) fun _ _ _ _ => rfl
    · exact fun reason =>
        alike akin (fun c => Failure.unsupportedSchema reason c.location.text) fun _ _ _ _ => rfl
    · exact fun types =>
        alike akin (fun c => Failure.unsupportedRootType types c.location.text) fun _ _ _ _ => rfl
  part := part
  ids := fun {schema} _ _ _ => alike akin (·.draft.idOf? schema) fun _ _ _ _ => rfl
  enters := enters

/-- Places that are akin do the same work on whole schemas if identifiers and references lead to the same. -/
theorem identical_lawful
    (part : ∀ {schema part}, admits (.object schema) → Node.Subschema schema part → admits part)
    (below : ∀ {c c'} tokens, states c c' → states (c.below tokens) (c'.below tokens))
    (atProperty : ∀ {c c'} key, states c c' → states (c.atProperty key) (c'.atProperty key))
    (akin : ∀ {c c'}, states c c' → c.Akin c')
    (enters : ∀ {schema : Members} {c c' id}, admits (.object schema) → states c c' →
      c.draft.idOf? schema = some id → (identicalUnless cut admits states).Enters id c c')
    (resolves : ∀ {schema : Members} {c c' target}, admits (.object schema) → states c c' →
      schema.get? "$ref" = some (.string target) → target ≠ "#" →
      (identicalUnless cut admits states).Resolves target c c') :
    (identicalUnless cut admits states).Lawful where
  toScoped := identical_scoped part below atProperty akin enters
  resolves := resolves
  refCycle := fun reference =>
    alike akin (fun c => Failure.refCycle reference c.location.text c.active.length)
      fun _ _ _ _ => rfl

theorem identical_or_cut {action action' : Compile Shape} {c c' : Compiler}
    (h : (identicalUnless cut admits states).Matches Eq action action' c c') :
    (∃ result added, action.Gives c result added ∧ action'.Gives c' result added) ∨
      ∃ failure added, action.Gives c (.error failure) added ∧ cut failure := by
  rcases h with
    ⟨_, added, _, added', hgives, hgives', houtcomes, hentries⟩ | ⟨failure, added, hgives, hcut, -⟩
  · have hadded : added = added' := List.forall₂_eq_eq_eq ▸ hentries
    subst hadded
    refine .inl ?_
    cases houtcomes with
    | value heq =>
      subst heq
      exact ⟨_, _, hgives, hgives'⟩
    | failure heq =>
      have heq' : _ = _ := heq
      subst heq'
      exact ⟨_, _, hgives, hgives'⟩
  · exact .inr ⟨failure, added, hgives, hcut⟩

theorem matches_identical {action action' : Compile Shape} {c c' : Compiler}
    {result : Except Failure Shape} {added : List Diagnostic} (hgives : action.Gives c result added)
    (hgives' : action'.Gives c' result added) :
    (identicalUnless cut admits states).Matches Eq action action' c c' := by
  refine matches_ends hgives hgives' ?_ (List.forall₂_same.mpr fun _ _ => rfl)
  cases result with
  | ok shape => exact .value rfl
  | error failure => exact .failure rfl

theorem identical_ends {action action' : Compile Shape} {c c' : Compiler}
    (h : (identical admits states).Matches (identical admits states).shapes action action' c c') :
    ∃ result added, action.Gives c result added ∧ action'.Gives c' result added := by
  rcases identical_or_cut h with hends | ⟨_, _, _, hcut⟩
  · exact hends
  · exact hcut.elim

end

/-- One side alone, which may be cut off. -/
def sameUnless (cut : Failure → Prop) : Correspondence :=
  identicalUnless cut (fun _ => True) Eq

theorem sameUnless_lawful (cut : Failure → Prop) : (sameUnless cut).Lawful := by
  refine identical_lawful (fun h _ => h) ?_ ?_ ?_ ?_ ?_
  · rintro c _ tokens rfl
    rfl
  · rintro c _ key rfl
    rfl
  · rintro c _ rfl
    exact ⟨_, _, _, rfl⟩
  · rintro schema c _ id _ rfl _
    exact enters_of_join rfl fun _ _ => rfl
  · rintro schema c _ target _ rfl _ _
    exact resolvesTo_of_resolve rfl (fun _ _ => rfl) fun _ _ _ => ⟨trivial, .inl rfl, fun _ => rfl⟩

def same : Correspondence := sameUnless fun _ => False

theorem same_lawful : same.Lawful := sameUnless_lawful _

theorem same_refl {action : Compile Shape} (h : action.Tidy) (c : Compiler) :
    same.Matches same.shapes action action c c := by
  obtain ⟨result, added, hgives⟩ := h c
  exact matches_identical hgives hgives

theorem tidy_of_same {values : α → α → Prop} {action : Compile α}
    (h : ∀ c, same.Matches values action action c c) : action.Tidy := by
  intro c
  rcases h c with ⟨result, added, _, _, hgives, _⟩ | ⟨_, _, _, hcut⟩
  · exact ⟨result, added, hgives⟩
  · exact hcut.1.elim

end Correspondence

end SchemaShape
