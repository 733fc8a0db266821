/-! # Arguments

Reading the options of a command. An option has a long name and may have a short one. Its value
follows it, or stands in the same argument: behind `=`, or for a short name also directly behind
it. Options that take no value may share an argument by their short names. A single `--` ends the
options; nothing may follow, since no command takes plain arguments.

The values behind an option are taken when the next option begins or the arguments end; only then are
they checked. An unknown option is reported at once.
-/

namespace SchemaShape.CommandLine
set_option autoImplicit false

/-- Why arguments give no command. -/
inductive UsageFault where
  | helpRequested
  | versionRequested
  | noCommand
  | unknownCommand
  | unknownArgument
  | missingArgument
  /-- No value where one is required, or one that is not among those that are allowed. -/
  | invalidValue
  | malformedValue
  /-- A value for an option that takes none. -/
  | unwantedValue
  /-- A second occurrence of an option that may occur once. -/
  | repeated
  deriving DecidableEq, Repr

/-- How many values an option takes each time it occurs. -/
inductive Takes where
  | nothing
  | one
  | several
  deriving DecidableEq, Repr

structure OptionRule where
  long : String
  short : Option Char := none
  takes : Takes := .one
  repeatable : Bool := false
  refuse : String → Option UsageFault := fun _ => none
  /-- What an option asks for instead of the command. -/
  insteadOf : Option UsageFault := none

abbrev Given := List (String × List String)

namespace Given

def has (given : Given) (option : String) : Bool :=
  given.any (·.1 == option)

def values (given : Given) (option : String) : List String :=
  (given.filter (·.1 == option)).flatMap (·.2)

def value? (given : Given) (option : String) : Option String :=
  (given.values option).head?

/-- Adds an occurrence that the rule of the option allows. -/
def add (given : Given) (rule : OptionRule) (values : List String) : Except UsageFault Given := do
  if rule.takes ≠ .nothing ∧ values = [] then throw .invalidValue
  if let some other := rule.insteadOf then throw other
  if !rule.repeatable && given.has rule.long then throw .repeated
  match values.findSome? rule.refuse with
  | some fault => throw fault
  | none => return given ++ [(rule.long, values)]

end Given

/-- What was read so far, and the option whose values are being read. -/
structure Reading where
  given : Given := []
  pending : Option (OptionRule × List String) := none

namespace Reading

/-- Takes the values that were being read. -/
def settle (reading : Reading) : Except UsageFault Given :=
  match reading.pending with
  | none => .ok reading.given
  | some (rule, values) => reading.given.add rule values

/-- An option, with its value if that stands in the same argument. -/
def begin (reading : Reading) (rule : OptionRule) (value : Option String) :
    Except UsageFault Reading := do
  match rule.takes, value with
  | .nothing, some _ => throw .unwantedValue
  | .nothing, none => return { given := ← (← reading.settle).add rule [] }
  | _, some value => return { given := ← (← reading.settle).add rule [value] }
  | _, none => return { given := ← reading.settle, pending := some (rule, []) }

/-- An argument that is no option. -/
def plain (reading : Reading) (value : String) : Except UsageFault Reading :=
  match reading.pending with
  | some (rule, values) =>
    if rule.takes = .several ∨ values = [] then
      .ok { reading with pending := some (rule, values ++ [value]) }
    else .error .unknownArgument
  | none => .error .unknownArgument

/-- The argument behind two hyphens: a name, or a name and a value behind `=`. -/
def long (rules : List OptionRule) (reading : Reading) (body : List Char) :
    Except UsageFault Reading :=
  match rules.find? (·.long == String.ofList (body.takeWhile (· ≠ '='))) with
  | none => .error .unknownArgument
  | some rule => reading.begin rule <|
    match body.dropWhile (· ≠ '=') with
    | [] => none
    | _ :: value => some (String.ofList value)

/-- The argument behind one hyphen: short names, the last of which may have a value. -/
def short (rules : List OptionRule) : Reading → List Char → Except UsageFault Reading
  | reading, [] => .ok reading
  | reading, c :: rest =>
    match rules.find? (·.short == some c) with
    | none => .error .unknownArgument
    | some rule =>
      if rule.takes = .nothing then do short rules (← reading.begin rule none) rest
      else reading.begin rule <|
        match rest with
        | [] => none
        | '=' :: value => some (String.ofList value)
        | value => some (String.ofList value)

def all (rules : List OptionRule) : Reading → List String → Except UsageFault Given
  | reading, [] => reading.settle
  | reading, argument :: rest =>
    match argument.toList with
    | ['-', '-'] => if rest = [] then reading.settle else .error .unknownArgument
    | '-' :: '-' :: body => do all rules (← long rules reading body) rest
    | '-' :: c :: body => do all rules (← short rules reading (c :: body)) rest
    | _ => do all rules (← reading.plain argument) rest

end Reading

/-- The option that asks for an explanation of the command. -/
def helpRule : OptionRule where
  long := "help"
  short := some 'h'
  takes := .nothing
  insteadOf := some .helpRequested

end SchemaShape.CommandLine
