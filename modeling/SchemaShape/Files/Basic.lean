import SchemaShape.Text.Pieces

/-! # Files

What commands need of a file system, over any monad that has one. A path is a text of names between
slashes; without a slash in front it starts at the working directory.
-/

namespace SchemaShape
set_option autoImplicit false

inductive FileFault where
  | notFound
  | alreadyExists
  | notDirectory
  | isDirectory
  | other (description : String)
  deriving DecidableEq, Repr

def FileFault.message : FileFault → String
  | notFound => "No such file or directory (os error 2)"
  | alreadyExists => "File exists (os error 17)"
  | notDirectory => "Not a directory (os error 20)"
  | isDirectory => "Is a directory (os error 21)"
  | other description => description

class Files (m : Type → Type) where
  readText (path : String) : m (Except FileFault String)
  canonical (path : String) : m (Except FileFault String)
  /-- Whether a path leads to a directory; none if it leads nowhere. -/
  isDirectory? (path : String) : m (Option Bool)
  names (path : String) : m (Except FileFault (List String))
  makeDirectory (path : String) : m (Except FileFault Unit)
  writeText (path text : String) : m (Except FileFault Unit)

namespace Files

/-! ## Paths -/

/-- A path that starts at another one. -/
def joined (path next : String) : String :=
  if next.startsWith "/" then next
  else if path.isEmpty || path.endsWith "/" then path ++ next
  else path ++ "/" ++ next

/-- Drops what adds nothing from the end of a path's pieces: empty ones and single points. The first
piece stays. -/
def trimmed : List (List Char) → List (List Char)
  | [] => []
  | [first] => [first]
  | piece :: before => if piece = [] ∨ piece = ['.'] then trimmed before else piece :: before

def ofReversed (pieces : List (List Char)) : String :=
  if pieces = [[]] then "/" else String.ofList (['/'].intercalate pieces.reverse)

/-- The path before the last name of a path: empty if there is only one name, none if there is no
name at all. -/
def parent? (path : String) : Option String :=
  match trimmed (Text.pieces '/' path.toList).reverse with
  | [] => none
  | [first] => if first = [] then none else some ""
  | _ :: before => some (ofReversed (trimmed before))

/-! ## Creating directories -/

variable {m : Type → Type} [Monad m] [Files m]

/-- Creates a directory, unless there already is one. -/
def ensureDirectory (path : String) : m (Except FileFault Unit) := do
  match ← makeDirectory path with
  | .error .alreadyExists =>
    return if (← isDirectory? path) = some true then .ok () else .error .alreadyExists
  | result => return result

/-- Creates a directory at a path of up to `names` names, and the missing ones on the way to it. -/
def ensureDirectories : (names : Nat) → (path : String) → m (Except FileFault Unit)
  | 0, _ => return .ok ()
  | names + 1, path => do
    if path.isEmpty then return .ok ()
    match ← ensureDirectory path, parent? path with
    | .error .notFound, some parent =>
      match ← ensureDirectories names parent with
      | .ok () => ensureDirectory path
      | .error fault => return .error fault
    | result, _ => return result

/-- Creates the directory that a file is to be put into, with the missing ones on the way to it. -/
def ensureParent (parent : String) : m (Except FileFault Unit) :=
  ensureDirectories (parent.length + 1) parent

end Files

end SchemaShape
