import Mathlib.Data.List.Basic
import SchemaShape.Proofs.Json.Tokens
import SchemaShape.Variables

/-! # What variable references stand for

A reference spells the name of a module and keys, and no others: the name has no colon, so it ends at the
first one, and the keys have no dots. It stands for the string that they lead to from the namespace, through
one object after another. Any other text with the marker stands for nothing, and a text without it stands
for itself.
-/

namespace SchemaShape
set_option autoImplicit false

namespace Namespace

/-! ## Reading references -/

section

variable {text front back : List Char}

theorem splitColon_append (hfree : ':' ∉ front) (back : List Char) :
    splitColon (front ++ ':' :: back) = some (front, back) := by
  induction front with
  | nil => rw [List.nil_append, splitColon]
  | cons c more ih =>
    obtain ⟨hfirst, hmore⟩ := not_or.mp (mt List.mem_cons.mpr hfree)
    rw [List.cons_append, splitColon, ih hmore]
    · rfl
    · exact fun heq => hfirst heq.symm

theorem append_of_splitColon (h : splitColon text = some (front, back)) :
    text = front ++ ':' :: back ∧ ':' ∉ front := by
  fun_induction splitColon text generalizing front with
  | case1 => cases h
  | case2 rest =>
    cases h
    exact ⟨rfl, List.not_mem_nil⟩
  | case3 c rest hfirst ih =>
    obtain ⟨⟨more, behind⟩, hsplit, heq⟩ := Option.map_eq_some_iff.mp h
    cases heq
    obtain ⟨htext, hfree⟩ := ih hsplit
    refine ⟨by rw [htext, List.cons_append], fun mem => ?_⟩
    rcases List.mem_cons.mp mem with heq | hmore
    · exact hfirst heq.symm
    · exact hfree hmore

end

/-! ## Looking up -/

theorem attribute?_eq_some_iff {value part : Json} {keys : List String} :
    attribute? value keys = some part ↔ value.Leads (keys.map .key) part := by
  induction keys generalizing value with
  | nil =>
    rw [attribute?, List.map_nil]
    constructor
    · rintro ⟨⟩
      exact .here part
    · rintro ⟨⟩
      rfl
  | cons key rest ih =>
    rw [attribute?, List.map_cons, Option.bind_eq_some_iff]
    constructor
    · rintro ⟨next, hget, hrest⟩
      cases value with
      | object members => exact .key hget (ih.mp hrest)
      | _ => cases hget
    · rintro (_ | ⟨hget, hrest⟩)
      exact ⟨_, hget, ih.mpr hrest⟩

/-- The keys that a dotted name stands for. -/
def keysOf (name : List Char) : List String := (Text.pieces '.' name).map String.ofList

theorem lookup_ok_iff {modules : Namespace} {moduleName name : List Char} {value : String} :
    lookup modules moduleName name = .ok value ↔
      (moduleName ≠ [] ∧ name ≠ [] ∧ ':' ∉ name) ∧
        attribute? (.object modules) (String.ofList moduleName :: keysOf name) = some (.string value) := by
  have hfirst : attribute? (.object modules) (String.ofList moduleName :: keysOf name) =
      (Members.get? modules (String.ofList moduleName)).bind (attribute? · (keysOf name)) := rfl
  rw [lookup, hfirst, ← keysOf]
  split
  · next hbad =>
    refine ⟨nofun, fun ⟨⟨hmodule, hname, hcolon⟩, _⟩ => ?_⟩
    rcases hbad with hbad | hbad | hbad
    · exact absurd hbad hmodule
    · exact absurd hbad hname
    · exact absurd hbad hcolon
  · next hgood =>
    rw [not_or, not_or] at hgood
    rw [and_iff_right hgood]
    cases Members.get? modules (String.ofList moduleName) with
    | none => simp
    | some part =>
      rw [Option.bind_some]
      cases hfound : attribute? part (keysOf name) with
      | none => simp [hfound]
      | some found =>
        simp only [hfound]
        cases found with
        | string text => simp
        | _ => simp

/-! ## References -/

/-- The names that a reference can spell. -/
structure Spellable (moduleName : String) (keys : List String) : Prop where
  module_ne : moduleName ≠ ""
  module_plain : ':' ∉ moduleName.toList
  keys_ne : keys ≠ []
  keys_plain : ∀ key ∈ keys, '.' ∉ key.toList
  joined_ne : ".".intercalate keys ≠ ""
  joined_plain : ':' ∉ (".".intercalate keys).toList

def reference (moduleName : String) (keys : List String) : String :=
  "var:" ++ moduleName ++ ":" ++ ".".intercalate keys

/-- The string that keys lead to from the namespace, the first one to a module. -/
def Holds (modules : Namespace) (moduleName : String) (keys : List String) (value : String) : Prop :=
  (Json.object modules).Leads ((moduleName :: keys).map .key) (.string value)

/-- A text without the marker stands for itself, and a reference for what it leads to. -/
def StandsFor (modules : Namespace) (text value : String) : Prop :=
  ¬ marker <+: text.toList ∧ value = text ∨
    ∃ moduleName keys, text = reference moduleName keys ∧ Spellable moduleName keys ∧
      modules.Holds moduleName keys value

section

variable {modules : Namespace} {moduleName moduleName' : String} {keys keys' : List String}
variable {text value : String}

theorem toList_reference (moduleName : String) (keys : List String) :
    (reference moduleName keys).toList =
      marker ++ (moduleName.toList ++ ':' :: (".".intercalate keys).toList) := by
  have hcolon : ":".toList = [':'] := rfl
  rw [reference, String.toList_append, String.toList_append, String.toList_append, hcolon,
    List.append_assoc, List.append_assoc, List.singleton_append]
  rfl

theorem Spellable.keysOf_eq (h : Spellable moduleName keys) :
    keysOf (".".intercalate keys).toList = keys := by
  have hdot : ".".toList = ['.'] := rfl
  have hpieces : Text.pieces '.' (['.'].intercalate (keys.map String.toList)) =
      keys.map String.toList := by
    refine Text.pieces_intercalate (mt List.map_eq_nil_iff.mp h.keys_ne) fun piece mem => ?_
    obtain ⟨key, hkey, rfl⟩ := List.mem_map.mp mem
    exact h.keys_plain key hkey
  rw [keysOf, String.toList_intercalate, hdot, hpieces, List.map_map]
  simp only [Function.comp_def, String.ofList_toList, List.map_id']

theorem intercalate_keysOf (name : List Char) : ".".intercalate (keysOf name) = String.ofList name := by
  have hdot : ".".toList = ['.'] := rfl
  rw [← String.toList_inj, String.toList_intercalate, keysOf, List.map_map, hdot]
  simp only [Function.comp_def, String.toList_ofList, List.map_id', Text.intercalate_pieces]

theorem spellable_keysOf {front name : List Char} (hplain : ':' ∉ front)
    (h : front ≠ [] ∧ name ≠ [] ∧ ':' ∉ name) : Spellable (String.ofList front) (keysOf name) := by
  have hofList : ∀ {chars : List Char}, chars ≠ [] → String.ofList chars ≠ "" := by
    intro chars hne heq
    rw [← String.toList_ofList (l := chars), heq] at hne
    exact hne rfl
  refine ⟨hofList h.1, ?_, ?_, ?_, ?_, ?_⟩
  · rwa [String.toList_ofList]
  · exact mt List.map_eq_nil_iff.mp (Text.pieces_ne_nil '.' name)
  · intro key mem
    obtain ⟨piece, hpiece, rfl⟩ := List.mem_map.mp mem
    rw [String.toList_ofList]
    exact Text.separator_not_mem_pieces hpiece
  · rw [intercalate_keysOf]
    exact hofList h.2.1
  · rw [intercalate_keysOf, String.toList_ofList]
    exact h.2.2

/-- No names but its own are spelled by a reference. -/
theorem reference_inj (h : Spellable moduleName keys) (h' : Spellable moduleName' keys')
    (heq : reference moduleName keys = reference moduleName' keys') :
    moduleName = moduleName' ∧ keys = keys' := by
  have hchars := congrArg String.toList heq
  rw [toList_reference, toList_reference, List.append_cancel_left_eq] at hchars
  have hsplit := splitColon_append h.module_plain (".".intercalate keys).toList
  rw [hchars, splitColon_append h'.module_plain, Option.some.injEq, Prod.mk.injEq] at hsplit
  refine ⟨(String.toList_inj.mp hsplit.1).symm, ?_⟩
  rw [← h.keysOf_eq, ← h'.keysOf_eq, hsplit.2]

theorem resolve_of_no_colon {behind : List Char} (h : text.toList = marker ++ behind)
    (hsplit : splitColon behind = none) :
    modules.resolve text = .error (.varReference text "expected `var:<module>:<name>`") := by
  simp only [resolve, List.isPrefixOf?_eq_some_iff_append_eq.mpr h.symm, hsplit]

theorem resolve_of_colon {behind front name : List Char} (h : text.toList = marker ++ behind)
    (hsplit : splitColon behind = some (front, name)) :
    modules.resolve text = (lookup modules front name).mapError (Failure.varReference text) := by
  simp only [resolve, List.isPrefixOf?_eq_some_iff_append_eq.mpr h.symm, hsplit]

theorem resolve_of_no_marker (h : ¬ marker <+: text.toList) : modules.resolve text = .ok text := by
  have hnone : marker.isPrefixOf? text.toList = none := by
    refine Option.eq_none_iff_forall_ne_some.mpr fun behind hsome => h ?_
    exact ⟨behind, List.isPrefixOf?_eq_some_iff_append_eq.mp hsome⟩
  rw [resolve, hnone]

theorem resolve_reference (h : Spellable moduleName keys) (hholds : modules.Holds moduleName keys value) :
    modules.resolve (reference moduleName keys) = .ok value := by
  have hfound : lookup modules moduleName.toList (".".intercalate keys).toList = .ok value := by
    refine lookup_ok_iff.mpr ⟨⟨?_, ?_, h.joined_plain⟩, ?_⟩
    · exact mt String.toList_eq_nil_iff.mp h.module_ne
    · exact mt String.toList_eq_nil_iff.mp h.joined_ne
    · rw [String.ofList_toList, h.keysOf_eq]
      exact attribute?_eq_some_iff.mpr hholds
  rw [resolve_of_colon (toList_reference moduleName keys) (splitColon_append h.module_plain _), hfound]
  rfl

/-- A text is resolved to what it stands for, or else its failure names it. -/
theorem resolve_cases (modules : Namespace) (text : String) :
    (∃ value, modules.resolve text = .ok value ∧ modules.StandsFor text value) ∨
      ∃ reason, modules.resolve text = .error (.varReference text reason) := by
  by_cases hmarker : marker <+: text.toList
  · obtain ⟨behind, hbehind⟩ := hmarker
    cases hsplit : splitColon behind with
    | none => exact .inr ⟨_, resolve_of_no_colon hbehind.symm hsplit⟩
    | some parts =>
      obtain ⟨front, name⟩ := parts
      rw [resolve_of_colon hbehind.symm hsplit]
      cases hlookup : lookup modules front name with
      | error reason => exact .inr ⟨reason, rfl⟩
      | ok value =>
        obtain ⟨hgood, hfound⟩ := lookup_ok_iff.mp hlookup
        obtain ⟨rfl, hplain⟩ := append_of_splitColon hsplit
        refine .inl ⟨value, rfl, .inr ⟨String.ofList front, keysOf name, ?_,
          spellable_keysOf hplain hgood, attribute?_eq_some_iff.mp hfound⟩⟩
        rw [← String.toList_inj, toList_reference, intercalate_keysOf, String.toList_ofList,
          String.toList_ofList, hbehind]
  · rw [resolve_of_no_marker hmarker]
    exact .inl ⟨text, rfl, .inl ⟨hmarker, rfl⟩⟩

theorem resolve_ok_iff : modules.resolve text = .ok value ↔ modules.StandsFor text value := by
  constructor
  · intro h
    rcases resolve_cases modules text with ⟨value', hok, hstands⟩ | ⟨reason, herror⟩
    · rw [hok] at h
      cases h
      exact hstands
    · rw [herror] at h
      cases h
  · rintro (⟨hmarker, rfl⟩ | ⟨moduleName, keys, rfl, hspellable, hholds⟩)
    · exact resolve_of_no_marker hmarker
    · exact resolve_reference hspellable hholds

end

/-- A text is resolved to what it stands for, and to nothing else. The names that a reference spells are
the only ones. A text that stands for nothing fails with a failure that names it, and every string of the
namespace whose names can be spelled is what their reference is resolved to. -/
theorem resolve_stands (modules : Namespace) (text : String) :
    (∀ value, modules.resolve text = .ok value ↔ modules.StandsFor text value) ∧
      (∀ moduleName keys moduleName' keys', Spellable moduleName keys → Spellable moduleName' keys' →
        text = reference moduleName keys → text = reference moduleName' keys' →
        moduleName = moduleName' ∧ keys = keys') ∧
      ((∀ value, ¬ modules.StandsFor text value) →
        ∃ reason, modules.resolve text = .error (.varReference text reason)) ∧
      ∀ moduleName keys value, Spellable moduleName keys → modules.Holds moduleName keys value →
        modules.resolve (reference moduleName keys) = .ok value := by
  refine ⟨fun value => resolve_ok_iff, ?_, fun hnothing => ?_, fun _ _ _ => resolve_reference⟩
  · rintro moduleName keys moduleName' keys' h h' rfl heq
    exact reference_inj h h' heq
  · refine (resolve_cases modules text).resolve_left ?_
    rintro ⟨value, -, hstands⟩
    exact hnothing value hstands

def settings : Namespace :=
  [("settings", .object [("path", .string "schema/nested.json"),
    ("Awesome", .object [("key", .string "awesome"), ("", .string "behind a last dot")])])]

/-- A last dot stands before an empty key, and an object is no string. -/
theorem resolve_stands_settings :
    Spellable "settings" ["Awesome", ""] ∧
      settings.Holds "settings" ["Awesome", ""] "behind a last dot" ∧
      settings.resolve "var:settings:Awesome." = .ok "behind a last dot" ∧
      (∀ moduleName keys, Spellable moduleName keys →
        "var:settings:Awesome." = reference moduleName keys →
        moduleName = "settings" ∧ keys = ["Awesome", ""]) ∧
      (∀ value, ¬ settings.StandsFor "var:settings:Awesome" value) ∧
      ∃ reason, settings.resolve "var:settings:Awesome" =
        .error (.varReference "var:settings:Awesome" reason) := by
  have hspellable : Spellable "settings" ["Awesome", ""] :=
    ⟨by decide, by decide, by decide, by decide, by decide, by decide⟩
  have hholds : settings.Holds "settings" ["Awesome", ""] "behind a last dot" :=
    .key rfl (.key rfl (.key rfl (.here _)))
  have hreference : "var:settings:Awesome." = reference "settings" ["Awesome", ""] := by decide +kernel
  obtain ⟨-, hunique, -, hreached⟩ := resolve_stands settings "var:settings:Awesome."
  obtain ⟨hstands, -, hfails, -⟩ := resolve_stands settings "var:settings:Awesome"
  have hnothing : ∀ value, ¬ settings.StandsFor "var:settings:Awesome" value := by
    intro value h
    cases (hstands value).mpr h
  refine ⟨hspellable, hholds, ?_, fun moduleName keys h heq => ?_, hnothing, hfails hnothing⟩
  · rw [hreference]
    exact hreached _ _ _ hspellable hholds
  · exact hunique _ _ _ _ h hspellable heq hreference

end Namespace

end SchemaShape
