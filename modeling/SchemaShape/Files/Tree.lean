import SchemaShape.Files.Basic

/-! # File trees

Files held in memory: a tree of directories, and a working directory in it. Following a path needs a
directory before every name, also before an empty name or a point.
-/

namespace SchemaShape
set_option autoImplicit false

inductive FileTree where
  | file (text : String)
  | directory (entries : List (String × FileTree))
  deriving Inhabited

/-- A place in a tree: the names on the way from the root. -/
abbrev FilePlace := List String

namespace FileTree

def child? (name : String) : List (String × FileTree) → Option FileTree
  | [] => none
  | (other, tree) :: rest => if other = name then some tree else child? name rest

def setChild (name : String) (tree : FileTree) : List (String × FileTree) → List (String × FileTree)
  | [] => [(name, tree)]
  | (other, old) :: rest =>
    if other = name then (name, tree) :: rest else (other, old) :: setChild name tree rest

def at? : FileTree → FilePlace → Option FileTree
  | tree, [] => some tree
  | file _, _ :: _ => none
  | directory entries, name :: rest => (child? name entries).bind (·.at? rest)

/-- Puts a tree at a place. Missing directories on the way are created, and a file on the way gives
way to a directory. -/
def put : FileTree → FilePlace → FileTree → FileTree
  | _, [], tree => tree
  | directory entries, name :: rest, tree =>
    directory (setChild name (((child? name entries).getD (directory [])).put rest tree) entries)
  | file _, name :: rest, tree => directory [(name, (directory []).put rest tree)]

end FileTree

/-- A tree and the place of its working directory. -/
structure Disk where
  tree : FileTree
  workingDirectory : FilePlace

namespace Disk

def follow (disk : Disk) : FilePlace → List (List Char) → Except FileFault FilePlace
  | place, [] => .ok place
  | place, name :: rest =>
    match disk.tree.at? place with
    | none => .error .notFound
    | some (.file _) => .error .notDirectory
    | some (.directory entries) =>
      if name = [] ∨ name = ['.'] then disk.follow place rest
      else if name = ['.', '.'] then disk.follow place.dropLast rest
      else if (FileTree.child? (String.ofList name) entries).isSome then
        disk.follow (place ++ [String.ofList name]) rest
      else .error .notFound

/-- Where a path starts, and its names. -/
def start (disk : Disk) (path : String) : FilePlace × List (List Char) :=
  (if path.startsWith "/" then [] else disk.workingDirectory, Text.pieces '/' path.toList)

def locate (disk : Disk) (path : String) : Except FileFault FilePlace :=
  let (place, names) := disk.start path
  if path.isEmpty then .error .notFound else disk.follow place names

def get (disk : Disk) (path : String) : Except FileFault FileTree := do
  match disk.tree.at? (← disk.locate path) with
  | some tree => return tree
  | none => .error .notFound

def readText (disk : Disk) (path : String) : Except FileFault String := do
  match ← disk.get path with
  | .file text => return text
  | .directory _ => .error .isDirectory

def canonical (disk : Disk) (path : String) : Except FileFault String := do
  return "/" ++ "/".intercalate (← disk.locate path)

def isDirectory? (disk : Disk) (path : String) : Option Bool :=
  match disk.get path with
  | .ok (.directory _) => some true
  | .ok (.file _) => some false
  | .error _ => none

def names (disk : Disk) (path : String) : Except FileFault (List String) := do
  match ← disk.get path with
  | .directory entries => return entries.map (·.1)
  | .file _ => .error .notDirectory

/-- The directory that a path's last name stands in, and that name. -/
def enclosing (disk : Disk) (path : List (List Char)) (place : FilePlace) :
    Except FileFault (FilePlace × List Char) := do
  let directory ← disk.follow place path.dropLast
  match disk.tree.at? directory with
  | some (.directory _) => return (directory, path.getLastD [])
  | _ => .error .notDirectory

def withoutEmptyEnd (names : List (List Char)) : List (List Char) :=
  (names.reverse.dropWhile (· = [])).reverse

def makeDirectory (disk : Disk) (path : String) : Except FileFault Disk := do
  if path.isEmpty then .error .notFound
  let (start, names) := disk.start path
  let (directory, name) ← disk.enclosing (withoutEmptyEnd names) start
  let place := directory ++ [String.ofList name]
  if name = [] ∨ name = ['.'] ∨ name = ['.', '.'] ∨ (disk.tree.at? place).isSome then
    .error .alreadyExists
  else return { disk with tree := disk.tree.put place (.directory []) }

/-- A slash at the end of the path asks for a directory. -/
def writeText (disk : Disk) (path text : String) : Except FileFault Disk := do
  if path.isEmpty then .error .notFound
  let (start, names) := disk.start path
  let (directory, name) ← disk.enclosing (withoutEmptyEnd names) start
  let place := directory ++ [String.ofList name]
  if path.endsWith "/" ∨ name = ['.'] ∨ name = ['.', '.'] then .error .isDirectory
  else match disk.tree.at? place with
    | some (.directory _) => .error .isDirectory
    | _ => return { disk with tree := disk.tree.put place (.file text) }

/-- Takes over the disk that an action left, if it succeeded. -/
def update (action : Disk → Except FileFault Disk) : StateM Disk (Except FileFault Unit) := fun disk =>
  match action disk with
  | .ok disk => (.ok (), disk)
  | .error fault => (.error fault, disk)

instance : Files (StateM Disk) where
  readText path disk := (disk.readText path, disk)
  canonical path disk := (disk.canonical path, disk)
  isDirectory? path disk := (disk.isDirectory? path, disk)
  names path disk := (disk.names path, disk)
  makeDirectory path := update (·.makeDirectory path)
  writeText path text := update (·.writeText path text)

end Disk

end SchemaShape
