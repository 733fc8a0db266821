import SchemaShape.Url.Percent

/-! # Paths of URLs

A path is built segment by segment. A segment of one dot is left out and one of two dots takes the
last segment back, both also with their dots percent-encoded. In a `file` URL a drive letter at the
front is kept by two dots, its bar becomes a colon, and empty segments at the front vanish.
-/

namespace SchemaShape.UrlPath
set_option autoImplicit false

/-- What a scheme means for a path: a backslash is a slash in special ones, `file` among them. -/
inductive SchemeKind where
  | special
  | file
  | other
  deriving DecidableEq, Repr

def SchemeKind.isSpecial (kind : SchemeKind) : Bool := kind != .other

/-! ## Drive letters -/

/-- A letter and a colon or a bar. -/
def isDrive : List Char → Bool
  | [letter, mark] => letter.isAlpha && (mark == ':' || mark == '|')
  | _ => false

def isNormalDrive : List Char → Bool
  | [letter, ':'] => letter.isAlpha
  | _ => false

def startsWithDrive : List Char → Bool
  | letter :: mark :: rest =>
    isDrive [letter, mark] && match rest with
      | [] => true
      | c :: _ => c == '/' || c == '\\'
  | _ => false

/-! ## Taking segments back -/

def splitLast (path : List Char) : List Char × List Char :=
  let reversed := path.reverse
  ((reversed.dropWhile (· != '/')).reverse, (reversed.takeWhile (· != '/')).reverse)

/-- Takes the last segment back. A drive letter stays. -/
def pop (kind : SchemeKind) (path : List Char) : List Char :=
  let (front, last) := splitLast path
  if kind = .file ∧ isNormalDrive last then path else front

/-- The slash at the end goes, unless it is the only one or the one behind a drive letter. -/
def dropSlash (path : List Char) : List Char :=
  match path.reverse with
  | '/' :: _ =>
    let front := path.dropLast
    if !front.contains '/' then path
    else
      let last := (splitLast front).2
      if startsWithDrive (last ++ ['/']) then path else front
  | _ => path

/-! ## Segments -/

def isDot (segment : List Char) : Bool :=
  segment == ['.'] || segment.map Char.toLower == ['%', '2', 'e']

/-- The rest of a segment behind a dot, plain or encoded. -/
def afterDot? : List Char → Option (List Char)
  | '.' :: rest => some rest
  | '%' :: '2' :: 'e' :: rest => some rest
  | '%' :: '2' :: 'E' :: rest => some rest
  | _ => none

def isDoubleDot (segment : List Char) : Bool :=
  ((afterDot? segment).bind afterDot?) == some []

/-- A path being built: the text before the open segment, and that segment. A drive letter or two
dots may change what came before. -/
structure Building where
  before : List Char
  segment : List Char := []
  /-- A drive letter in front displaces the host. -/
  hasHost : Bool

/-- Puts a character into the open segment. Nothing but a slash can follow a drive letter that
makes up the whole path of a `file` URL. -/
def Building.push (kind : SchemeKind) (b : Building) (c : Char) : Building :=
  let whole := b.before ++ b.segment
  let b :=
    if kind = .file ∧ isNormalDrive (whole.drop 1) then
      let spread := whole ++ ['/']
      { b with
        before := spread.take (b.before.length + 1), segment := spread.drop (b.before.length + 1) }
    else b
  { b with segment := b.segment ++ Percent.encodeChar Percent.inPath c }

/-- Closes the open segment, behind which a slash stood or not. -/
def Building.close (kind : SchemeKind) (b : Building) (slash : Bool) : Building :=
  let withSlash (path : List Char) := if path.getLast? = some '/' then path else path ++ ['/']
  let before :=
    if isDoubleDot b.segment then
      let path := pop kind (dropSlash b.before)
      if slash then withSlash path else path
    else if isDot b.segment then withSlash b.before
    else
      let segment :=
        if kind = .file ∧ b.before.length = 1 ∧ isDrive b.segment then b.segment.take 1 ++ [':']
        else b.segment
      b.before ++ segment ++ (if slash then ['/'] else [])
  let displaced := kind = .file ∧ b.before.length = 1 ∧ isDrive b.segment
  { before, segment := [], hasHost := b.hasHost && !displaced }

def Building.step (kind : SchemeKind) (b : Building) (c : Char) : Building :=
  if c = '/' ∨ (c = '\\' ∧ kind.isSpecial) then b.close kind true else b.push kind c

/-- Appends the segments of `text` to a path. The second part of the answer is false if a drive
letter displaced the host. -/
def append (kind : SchemeKind) (path : List Char) (hasHost : Bool) (text : List Char) :
    List Char × Bool :=
  let built := (text.foldl (Building.step kind) { before := path, hasHost }).close kind false
  let whole := if kind = .file then '/' :: built.before.dropWhile (· == '/') else built.before
  (whole, built.hasHost)

end SchemaShape.UrlPath
