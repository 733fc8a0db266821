import SchemaShape.CommandLine.Run

/-! # The program

Runs a command on the files of the system.
-/

namespace SchemaShape.CommandLine
set_option autoImplicit false

def faultOfError : IO.Error → FileFault
  | .noFileOrDirectory _ _ _ => .notFound
  | .noSuchThing _ _ _ => .notFound
  | .alreadyExists _ _ _ => .alreadyExists
  | .inappropriateType _ code details =>
    if code = 20 then .notDirectory else if code = 21 then .isDirectory else .other details
  | error => .other error.toString

def attempt {α : Type} (action : IO α) : IO (Except FileFault α) := do
  match ← action.toBaseIO with
  | .ok value => return .ok value
  | .error error => return .error (faultOfError error)

instance : Files IO where
  readText path := attempt do
    if ← (← IO.FS.realPath path).isDir then throw (.inappropriateType none 21 "Is a directory")
    IO.FS.readFile path
  canonical path := attempt do return (← IO.FS.realPath path).toString
  isDirectory? path := do
    match ← attempt (IO.FS.realPath path) with
    | .ok place => return some (← place.isDir)
    | .error _ => return none
  names path := attempt do
    return ((← (← IO.FS.realPath path).readDir).map (·.fileName)).toList
  makeDirectory path := attempt (IO.FS.createDir path)
  writeText path text := attempt (IO.FS.writeFile path text)

def help : String := "\n".intercalate [
  "compile JSON Schema documents into a structural type model", "",
  "Usage: schema-shape compile --input <FILE>... [--path <SEGMENT>]... [--vars <FILE>] [--name <NAME>]",
  "                            [--draft <DRAFT>] [--max-ref-depth <N>] [--with-schema <FILE>]...",
  "                            [--optional] [--format text|json] [--out <FILE>] [--no-op]",
  "       schema-shape narrow --input <FILE>... [--path <SEGMENT>]... [--vars <FILE>] [--out <FILE>]",
  "                           [--no-op]"]

def UsageFault.message : UsageFault → String
  | helpRequested => help
  | versionRequested => "schema-shape 0.1.0"
  | noCommand => help
  | unknownCommand => "error: unrecognized command\n\n" ++ help
  | unknownArgument => "error: unexpected argument\n\n" ++ help
  | missingArgument => "error: --input is required\n\n" ++ help
  | invalidValue => "error: missing or invalid value\n\n" ++ help
  | malformedValue => "error: malformed value\n\n" ++ help
  | unwantedValue => "error: unexpected value for an option\n\n" ++ help
  | repeated => "error: an option cannot be used multiple times\n\n" ++ help

def runProgram (arguments : List String) : IO UInt32 := do
  match Command.ofArguments arguments with
  | .error fault =>
    if fault = .helpRequested ∨ fault = .versionRequested then
      IO.println fault.message
      return 0
    else
      IO.eprintln fault.message
      return 2
  | .ok command =>
    let report : Report ← command.run
    IO.print report.output
    IO.eprint report.notes
    match report.fault with
    | none => return 0
    | some fault =>
      IO.eprintln ("error: " ++ fault.message)
      return 1

end SchemaShape.CommandLine

def main (arguments : List String) : IO UInt32 :=
  SchemaShape.CommandLine.runProgram arguments
