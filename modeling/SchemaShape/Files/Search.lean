import SchemaShape.Files.Basic
import SchemaShape.Files.Wildcard

/-! # Searching for files

The files whose paths match a pattern, in the order of their names. A name without wildcards is
looked up; the names `.` and `..` match only themselves or a pattern with a leading point. `**` goes
into every directory below; the directories it stands for are not listed unless it ends the pattern.
A slash at the end admits directories only.
-/

namespace SchemaShape
set_option autoImplicit false

namespace Files

inductive SearchFault where
  | badPattern (fault : Wildcard.FaultAt)
  | unlistable (path : String) (fault : FileFault)

structure PathPattern where
  fromRoot : Bool
  names : List (List Wildcard)
  directoriesOnly : Bool

namespace PathPattern

/-- Reads every name by itself, once the whole is known to be a pattern. -/
def read (pattern : String) : Except Wildcard.FaultAt PathPattern := do
  let text := pattern.toList
  let _ ← Wildcard.read text
  let fromRoot := text.head? = some '/'
  let directoriesOnly := text.getLast? = some '/'
  let pieces := Text.pieces '/' (if fromRoot then text.drop 1 else text)
  let names ← (if directoriesOnly then pieces.dropLast else pieces).mapM Wildcard.read
  return { fromRoot, names, directoriesOnly }

end PathPattern

/-! ## Below a directory -/

def isHere (path : String) : Bool :=
  match Text.pieces '/' path.toList with
  | ['.'] :: rest => rest.all fun piece => piece = [] || piece = ['.']
  | _ => false

/-- The path of a name in a directory; the working directory is left out. -/
def inside (directory name : String) : String :=
  if isHere directory then name else joined directory name

variable {m : Type → Type} [Monad m] [Files m]

abbrev Search (m : Type → Type) := ExceptT SearchFault m

def sortedNames (path : String) : Search m (List String) := do
  if (← isDirectory? (m := m) path) != some true then return []
  match ← names (m := m) path with
  | .ok found => return found.mergeSort fun a b => decide (a ≤ b)
  | .error fault => throw (.unlistable path fault)

/-- Visits what stands in a directory and, up to a depth, in the directories below it, each directory
before what stands in it. -/
def visitBelow (visit : (name path : String) → Search m (List String)) :
    (depth : Nat) → (directory : String) → Search m (List String)
  | 0, _ => return []
  | depth + 1, directory => do
    let found ← (← sortedNames directory).mapM fun name => do
      let path := inside directory name
      return (← visit name path) ++ (← visitBelow visit depth path)
    return found.flatten

/-- A path of 4096 bytes names fewer directories than that. -/
def maxDepth : Nat := 4096

/-- What a pattern with nothing behind it finds at a path. -/
def keep (directoriesOnly : Bool) (path : String) : Search m (List String) := do
  if directoriesOnly && (← isDirectory? (m := m) path) != some true then return []
  return [path]

/-- The paths below a directory that the patterns of their names lead to. -/
def findBelow (directoriesOnly : Bool) : List (List Wildcard) → String → Search m (List String)
  | [], path => keep directoriesOnly path
  | [.directories] :: [], directory =>
    visitBelow (fun _ path => keep true path) maxDepth directory
  | [.directories] :: [.directories] :: more, directory =>
    findBelow directoriesOnly ([.directories] :: more) directory
  | [.directories] :: pattern :: more, directory =>
    visitBelow (fun name path =>
      if Wildcard.matchName pattern name.toList then findBelow directoriesOnly more path
      else return []) maxDepth directory
  | pattern :: more, directory => do
    match Wildcard.literal? pattern with
    | some name =>
      let path := inside directory name
      let isThere ← if name == "." || name == ".." then
          pure ((← isDirectory? (m := m) directory) == some true)
        else pure (← isDirectory? (m := m) path).isSome
      if isThere then findBelow directoriesOnly more path else return []
    | none =>
      let named ← (← sortedNames directory).mapM fun name =>
        if Wildcard.matchName pattern name.toList then
          findBelow directoriesOnly more (inside directory name)
        else return []
      let isThere := (← isDirectory? (m := m) directory) == some true
      let pointed ← ["..", "."].mapM fun name =>
        if isThere && pattern.head? = some (.char '.') && Wildcard.matchName pattern name.toList then
          findBelow directoriesOnly more (joined directory name)
        else return []
      return pointed.flatten ++ named.flatten

def search (pattern : String) : m (Except SearchFault (List String)) := ExceptT.run do
  let pattern ← (PathPattern.read pattern).mapError SearchFault.badPattern
  findBelow pattern.directoriesOnly pattern.names (if pattern.fromRoot then "/" else ".")

end Files

end SchemaShape
