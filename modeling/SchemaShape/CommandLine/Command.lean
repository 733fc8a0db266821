import SchemaShape.CommandLine.Arguments
import SchemaShape.CommandLine.Outline
import SchemaShape.Options.Basic

/-! # Commands

What the program can be asked to do: to compile schema files and print their shapes, or to print the
part of each that a path leads to.
-/

namespace SchemaShape.CommandLine
set_option autoImplicit false

inductive Format where
  | text
  | json
  deriving DecidableEq, Repr

structure Inputs where
  /-- Paths, patterns and references to variables. -/
  files : List String
  /-- The path that each file is narrowed to. -/
  path : List String := []
  /-- The file of the namespace that references look into. -/
  namespaceFile : Option String := none
  deriving DecidableEq, Repr

structure CompileCommand where
  inputs : Inputs
  options : Options := {}
  /-- Files that references may point into. -/
  others : List String := []
  /-- Whether to make the fields of every root optional. -/
  optional : Bool := false
  format : Format := .text
  out : Option String := none
  /-- Whether to show the command instead of running it. -/
  dryRun : Bool := false

structure NarrowCommand where
  inputs : Inputs
  out : Option String := none
  dryRun : Bool := false

inductive Command where
  | compile (command : CompileCommand)
  | narrow (command : NarrowCommand)

/-! ## Options -/

/-- A number that fits 64 bits, in decimal digits that a plus may stand before. -/
def depth? (text : String) : Option Nat :=
  let digits := match text.toList with
    | '+' :: digits => digits
    | digits => digits
  let value := Nat.ofDigitChars 10 digits 0
  if digits ≠ [] ∧ digits.all Char.isDigit ∧ value < Nat.pow 2 64 then some value else none

def format? : String → Option Format
  | "text" => some .text
  | "json" => some .json
  | _ => none

def refuseEmpty (text : String) : Option UsageFault :=
  if text.isEmpty then some .invalidValue else none

/-- The options that both commands have. -/
def sharedRules : List OptionRule := [
  { long := "input", short := some 'i', takes := .several, repeatable := true },
  { long := "path", short := some 'p', repeatable := true },
  { long := "vars", refuse := refuseEmpty },
  { long := "out", short := some 'o', refuse := refuseEmpty },
  { long := "no-op", takes := .nothing },
  helpRule]

def compileRules : List OptionRule := sharedRules ++ [
  { long := "name" },
  { long := "draft", refuse := fun text =>
      if (Draft.ofName? text).isSome then none else some .malformedValue },
  { long := "max-ref-depth", refuse := fun text =>
      if (depth? text).isSome then none else some .malformedValue },
  { long := "with-schema", repeatable := true },
  { long := "optional", takes := .nothing },
  { long := "format", refuse := fun text =>
      if (format? text).isSome then none else some .invalidValue }]

def programRules : List OptionRule := [
  helpRule,
  { long := "version", short := some 'V', takes := .nothing, insteadOf := some .versionRequested }]

/-! ## Reading -/

def readOptions (rules : List OptionRule) (arguments : List String) : Except UsageFault Given := do
  let given ← Reading.all rules {} arguments
  if given.has "input" then return given else throw .missingArgument

def Inputs.ofGiven (given : Given) : Inputs where
  files := given.values "input"
  path := given.values "path"
  namespaceFile := given.value? "vars"

def CompileCommand.ofGiven (given : Given) : CompileCommand where
  inputs := .ofGiven given
  options := {
    name := given.value? "name"
    draft := (given.value? "draft").bind Draft.ofName?
    maxRefDepth := ((given.value? "max-ref-depth").bind depth?).getD ({} : Options).maxRefDepth }
  others := given.values "with-schema"
  optional := given.has "optional"
  format := ((given.value? "format").bind format?).getD .text
  out := given.value? "out"
  dryRun := given.has "no-op"

def NarrowCommand.ofGiven (given : Given) : NarrowCommand where
  inputs := .ofGiven given
  out := given.value? "out"
  dryRun := given.has "no-op"

namespace Command

def names : List String := ["compile", "narrow", "help"]

/-- What is wrong with asking for help on commands. -/
def helpOn : List String → UsageFault
  | [] => .helpRequested
  | [name] => if names.contains name then .helpRequested else .unknownCommand
  | _ => .unknownCommand

def ofArguments : List String → Except UsageFault Command
  | [] => .error .noCommand
  | "compile" :: rest => (readOptions compileRules rest).map (compile ∘ .ofGiven)
  | "narrow" :: rest => (readOptions sharedRules rest).map (narrow ∘ .ofGiven)
  | "help" :: rest => .error (helpOn rest)
  | argument :: rest =>
    match argument.toList with
    | ['-', '-'] =>
      match rest with
      | [] => .error .noCommand
      | next :: _ => .error (if names.contains next then .unknownArgument else .unknownCommand)
    | '-' :: '-' :: body => do
      let _ ← Reading.long programRules {} body
      ofArguments rest
    | '-' :: c :: body => do
      let _ ← Reading.short programRules {} (c :: body)
      ofArguments rest
    | _ => .error .unknownCommand

end Command

/-! ## Showing -/

open Outline

def Inputs.outline (inputs : Inputs) : Outline :=
  record "InputSettings" [
    ("input", quotedList inputs.files), ("path", quotedList inputs.path),
    ("vars", ofOption (inputs.namespaceFile.map quoted))]

def draftWord : Draft → String
  | .draft04 => "Draft4"
  | .draft06 => "Draft6"
  | .draft07 => "Draft7"

def optionsOutline (options : Options) : Outline :=
  record "OptionSettings" [
    ("name", ofOption (options.name.map quoted)),
    ("draft", ofOption (options.draft.map (word ∘ draftWord))),
    ("max_ref_depth", word (toString options.maxRefDepth))]

def CompileCommand.outline (command : CompileCommand) : Outline :=
  record "CompileOut" [
    ("input_settings", command.inputs.outline),
    ("options", optionsOutline command.options),
    ("with_schema", quotedList command.others),
    ("optional", ofBool command.optional),
    ("format", word (match command.format with | .text => "Text" | .json => "Json")),
    ("out", ofOption (command.out.map quoted)),
    ("no_op", ofBool command.dryRun)]

def NarrowCommand.outline (command : NarrowCommand) : Outline :=
  record "NarrowOut" [
    ("input_settings", command.inputs.outline),
    ("out", ofOption (command.out.map quoted)),
    ("no_op", ofBool command.dryRun)]

namespace Command

def outline (command : Command) : Outline :=
  record "CommandLineInterface" [("cmd", match command with
    | compile command => call "Compile" [command.outline]
    | narrow command => call "Narrow" [command.outline])]

end Command

end SchemaShape.CommandLine
