import SchemaShape.CommandLine.Command
import SchemaShape.Files.Search
import SchemaShape.Session
import SchemaShape.Variables

/-! # Running commands

A command reads all of its files before it does anything with them. A fault in reading them ends it;
a schema that cannot be compiled does not, but makes the command fail when the others are written.
-/

namespace SchemaShape.CommandLine
set_option autoImplicit false

inductive RunFault where
  | unreadable (path : String) (fault : FileFault)
  /-- A file that does not hold what it should, and where in it reading stopped. -/
  | unparsable (path : String) (place : ReadPath)
  | unresolved (failure : Failure)
  | badPattern (pattern : String) (fault : Wildcard.FaultAt)
  | unlistable (path : String) (fault : FileFault)
  | noMatch (pattern : String)
  | notNarrowed (path : String) (failure : Failure)
  | notCreated (directory : String) (fault : FileFault)
  | notWritten (path : String) (fault : FileFault)
  | notCompiled (failed inputs : Nat)

/-- A file fault is told with what the program wanted and once more by itself. -/
def RunFault.message : RunFault → String
  | unreadable path fault =>
    "failed to read " ++ path ++ ": " ++ fault.message ++ ": " ++ fault.message
  | unparsable path place => "failed to parse " ++ path ++ " at JSON path " ++ place.text
  | unresolved failure => failure.message
  | badPattern pattern fault => "bad glob pattern " ++ Text.quoted pattern ++ ": " ++ fault.message
  | unlistable path fault =>
    "attempting to read `" ++ path ++ "` resulted in an error: " ++ fault.message ++ ": " ++
      fault.message
  | noMatch pattern => "glob pattern matched no files: " ++ pattern
  | notNarrowed path failure => "narrowing " ++ path ++ ": " ++ failure.message
  | notCreated directory fault => "creating " ++ directory ++ ": " ++ fault.message
  | notWritten path fault => "writing " ++ path ++ ": " ++ fault.message
  | notCompiled failed inputs =>
    toString failed ++ " of " ++ toString inputs ++ " inputs failed to compile"

/-- What a command prints, and why it failed if it did. -/
structure Report where
  output : String := ""
  notes : String := ""
  fault : Option RunFault := none

variable {m : Type → Type} [Monad m] [Files m]

abbrev Run (m : Type → Type) := ExceptT RunFault m

/-! ## Reading files -/

def readWith {α : Type} (read : String → Except ReadPath α) (path : String) : Run m α := do
  match ← Files.readText (m := m) path with
  | .error fault => throw (.unreadable path fault)
  | .ok text => liftM ((read text).mapError (RunFault.unparsable path))

def readDocument (path : String) : Run m Document := do
  let schema ← readWith Json.read path
  match ← Files.canonical (m := m) path with
  | .error fault => throw (.unreadable path fault)
  | .ok place => return { url := Url.ofFilePath place, schema }

def readNamespace : Option String → Run m Namespace
  | none => return []
  | some path => readWith Namespace.read path

def resolveAll (modules : Namespace) (texts : List String) : Run m (List String) :=
  liftM ((modules.resolveAll texts).mapError RunFault.unresolved)

/-- The files that a path or a pattern stands for. A pattern stands for at least one. -/
def expand (pattern : String) : Run m (List String) := do
  if !Wildcard.isPattern pattern then return [pattern]
  match ← Files.search (m := m) pattern with
  | .error (.badPattern fault) => throw (.badPattern pattern fault)
  | .error (.unlistable path fault) => throw (.unlistable path fault)
  | .ok [] => throw (.noMatch pattern)
  | .ok paths => return paths

def expandAll (patterns : List String) : Run m (List String) := do
  return (← patterns.mapM expand).flatten

/-! ## Writing -/

def writeTo (path text : String) : Run m Unit := do
  if let some parent := Files.parent? path then
    if let .error fault ← Files.ensureParent (m := m) parent then
      throw (.notCreated parent fault)
  if let .error fault ← Files.writeText (m := m) path text then
    throw (.notWritten path fault)

/-- What to print of an output that may go to a file, and why it could not be written. -/
def deliver (out : Option String) (text : String) : m (String × Option RunFault) := do
  match out with
  | none => return (text, none)
  | some path =>
    match ← (writeTo path text).run with
    | .ok () => return ("", none)
    | .error fault => return ("", some fault)

/-! ## Compiling -/

/-- The documents of a command: a session with all of them, the addresses of those that are to be
compiled, and the path to narrow them to. -/
structure Loaded where
  session : Session
  inputs : List Url
  path : List String

def load (command : CompileCommand) : Run m Loaded := do
  let modules ← readNamespace command.inputs.namespaceFile
  let patterns ← resolveAll modules command.inputs.files
  let path ← resolveAll modules command.inputs.path
  let others ← (← expandAll command.others).mapM readDocument
  let inputs ← (← expandAll patterns).mapM readDocument
  return { session := (others ++ inputs).foldl Session.add {}, inputs := inputs.map (·.url), path }

def noteFailure (url : Url) (failure : Failure) : String :=
  "error " ++ url.text ++ " [" ++ failure.kind ++ "]: " ++ failure.message ++ "\n"

def noteDiagnostic (diagnostic : Diagnostic) : String :=
  diagnostic.severity.name ++ " " ++ diagnostic.location ++ ": " ++ diagnostic.message ++ "\n"

def render (format : Format) (compilations : List Compilation) : String :=
  match format with
  | .text => String.join (compilations.map fun compilation => compilation.root.text ++ "\n")
  | .json => (Json.array (compilations.map Compilation.toJson)).pretty

def compileAll (command : CompileCommand) (loaded : Loaded) : m Report := do
  let results := loaded.inputs.map fun url =>
    (url, loaded.session.compile url loaded.path command.options)
  let compilations := results.filterMap fun (_, result) =>
    result.toOption.map fun compilation =>
      if command.optional then compilation.optionalize else compilation
  let failures := results.filterMap fun (url, result) =>
    match result with
    | .ok _ => none
    | .error failure => some (noteFailure url failure)
  let notes := failures ++ compilations.flatMap (·.diagnostics.map noteDiagnostic)
  let (output, fault) ← deliver command.out (render command.format compilations)
  let uncompiled : Option RunFault :=
    if failures = [] then none else some (.notCompiled failures.length loaded.inputs.length)
  return { output, notes := String.join notes, fault := fault <|> uncompiled }

/-! ## Narrowing -/

def narrowAll (command : NarrowCommand) : Run m (List Json) := do
  let modules ← readNamespace command.inputs.namespaceFile
  let path ← resolveAll modules command.inputs.path
  let patterns ← resolveAll modules command.inputs.files
  (← expandAll patterns).mapM fun file => do
    let document ← readDocument file
    liftM ((narrow document.schema path).mapError (RunFault.notNarrowed file))

/-- A single schema stands by itself, several in an array. -/
def renderNarrowed : List Json → String
  | [schema] => schema.pretty
  | schemas => (Json.array schemas).pretty

/-! ## Commands -/

def Command.isDryRun : Command → Bool
  | .compile command => command.dryRun
  | .narrow command => command.dryRun

def Command.run (command : Command) : m Report := do
  if command.isDryRun then return { notes := command.outline.text ++ "\n" }
  match command with
  | .compile command =>
    match ← (load command).run with
    | .error fault => return { fault := some fault }
    | .ok loaded => compileAll command loaded
  | .narrow command =>
    match ← (narrowAll command).run with
    | .error fault => return { fault := some fault }
    | .ok schemas =>
      let (output, fault) ← deliver command.out (renderNarrowed schemas)
      return { output, fault }

end SchemaShape.CommandLine
