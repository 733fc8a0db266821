import SchemaShape.Url.Host

/-! # Reading URLs

`Url.parse` reads an absolute URL and `Url.join` a reference against a base. Blanks and controls
around the text and tabs and line ends inside it do not count. The first `#` starts the fragment and
the first `?` before it the query, whatever the rest is, so these are cut off first; what is left is
a scheme, an authority and a path, of which a reference may lack the front.
-/

namespace SchemaShape.Url
set_option autoImplicit false

open UrlPath (SchemeKind)

/-! ## Cutting up a reference -/

def schemeKind (scheme : String) : SchemeKind :=
  if scheme == "file" then .file
  else if ["http", "https", "ws", "wss", "ftp"].contains scheme then .special
  else .other

/-- A text cut up before its query and its fragment. -/
structure Reference where
  front : List Char
  query : Option (List Char)
  fragment : Option (List Char)

/-- What stands before a mark and, if the mark occurs, behind it. -/
def cut (mark : Char) (text : List Char) : List Char × Option (List Char) :=
  (text.takeWhile (· != mark), (text.dropWhile (· != mark)).tail?)

def clean (text : List Char) : List Char :=
  let isOuter (c : Char) : Bool := c.toNat ≤ 0x20
  let inner := ((text.dropWhile isOuter).reverse.dropWhile isOuter).reverse
  inner.filter fun c => c != '\t' && c != '\n' && c != '\r'

def Reference.ofText (text : String) : Reference :=
  let (text, fragment) := cut '#' (clean text.toList)
  let (front, query) := cut '?' text
  { front, query, fragment }

/-- Nothing follows the front. -/
def Reference.isLast (ref : Reference) : Bool :=
  ref.query.isNone && ref.fragment.isNone

/-- A letter and then letters, digits and `+`, `-`, `.`, up to a colon, in lower case. -/
def scheme? (text : List Char) : Option (String × List Char) :=
  let isSchemeChar (c : Char) : Bool := c.isAlphanum || c == '+' || c == '-' || c == '.'
  match text, text.dropWhile isSchemeChar with
  | first :: _, ':' :: rest =>
    if first.isAlpha then
      some (String.ofList ((text.takeWhile isSchemeChar).map Char.toLower), rest)
    else none
  | _, _ => none

/-! ## Paths -/

def isSlash (c : Char) : Bool := c == '/' || c == '\\'

/-- The path of a URL behind its authority. Only a special scheme needs one. -/
def pathBehind (kind : SchemeKind) (rest : List Char) : List Char :=
  match rest with
  | [] => if kind.isSpecial then ['/'] else []
  | c :: more =>
    if c = '/' ∨ (kind.isSpecial && isSlash c) then (UrlPath.append kind ['/'] true more).1
    else (UrlPath.append kind ['/'] true rest).1

/-- A URL with an authority, given what stands behind its two slashes. -/
def withAuthority (scheme : String) (last : Bool) (text : List Char) : Except UrlError Url := do
  let kind := schemeKind scheme
  let (authority, rest) ← Authority.read scheme kind last text
  return {
    scheme, authority := some authority, path := String.ofList (pathBehind kind rest)
    query := none, fragment := none }

def withPath (base : Url) (path : List Char) : Url :=
  { base with path := String.ofList path, query := none, fragment := none }

/-! ## References without a scheme -/

/-- A reference against a base that is neither a `file` URL nor opaque. -/
def relative (base : Url) (last : Bool) (front : List Char) : Except UrlError Url :=
  let kind := schemeKind base.scheme
  match front with
  | [] => .ok { base with fragment := none }
  | c :: rest =>
    if isSlash c then
      if rest.head?.any isSlash then
        let behind := if front.take 2 = ['/', '/'] then front.drop 2 else front.dropWhile isSlash
        withAuthority base.scheme last behind
      else .ok (base.withPath (UrlPath.append kind ['/'] true rest).1)
    else
      let directory := UrlPath.pop .other base.path.toList
      let directory := if directory = [] then ['/'] else directory
      .ok (base.withPath (UrlPath.append kind directory true front).1)

/-! ## File URLs -/

def fileUrl (host : String) (path : List Char) : Url :=
  { scheme := "file", authority := some { host }, path := String.ofList path
    query := none, fragment := none }

/-- The host of a `file` URL, unless it is a drive letter, which belongs to the path. The local
host is written as none. -/
def fileHost (text : List Char) : Except UrlError (String × List Char) := do
  let hostText := text.takeWhile fun c => !isSlash c
  let rest := text.dropWhile fun c => !isSlash c
  if hostText = [] ∨ UrlPath.isDrive hostText then return ("", text)
  let host ← Host.ofDomain hostText
  return (if host == "localhost" then "" else host, rest)

/-- A `file` URL behind `file://`. -/
def fileWithHost (text : List Char) : Except UrlError Url := do
  let (host, rest) ← fileHost text
  let rest := if rest.head?.any isSlash then rest.drop 1 else rest
  let (path, hasHost) := UrlPath.append .file ['/'] (!host.isEmpty) rest
  return fileUrl (if hasHost then host else "") path

/-- A `file` URL or reference, against a base that is a `file` URL. -/
def file (base : Option Url) (front : List Char) : Except UrlError Url :=
  match front, base with
  | [], some base => .ok { base with fragment := none }
  | c :: rest, base =>
    if isSlash c then
      if rest.head?.any isSlash then fileWithHost (rest.drop 1)
      else
        let (drive, host) := match base with
          | some base =>
            if UrlPath.startsWithDrive rest then ([], "")
            else
              let first := (base.path.toList.drop 1).takeWhile (· != '/')
              if UrlPath.isNormalDrive first then ('/' :: first, "")
              else ([], base.authority.elim "" (·.host))
          | none => ([], "")
        .ok (fileUrl host (UrlPath.append .file drive false front).1)
    else
      match base with
      | some base =>
        if UrlPath.startsWithDrive front then
          .ok (fileUrl "" (UrlPath.append .file ['/'] false front).1)
        else
          let directory := UrlPath.pop .file base.path.toList
          .ok (base.withPath (UrlPath.append .file directory true front).1)
      | none => .ok (fileUrl "" (UrlPath.append .file ['/'] false front).1)
  | [], none => .ok (fileUrl "" ['/'])

/-! ## References with a scheme -/

/-- A URL of a scheme that is not special: with an authority, hierarchical or opaque. -/
def ofOtherScheme (scheme : String) (last : Bool) (front : List Char) : Except UrlError Url :=
  let url (path : List Char) : Url :=
    { scheme, authority := none, path := String.ofList path, query := none, fragment := none }
  match front with
  | '/' :: '/' :: rest => withAuthority scheme last rest
  | '/' :: rest => .ok (url (UrlPath.append .other ['/'] false rest).1)
  | text => .ok (url (Percent.encode Percent.isControl text))

/-- A special URL. With the scheme of its base and fewer than two slashes it is a reference. -/
def ofSpecialScheme (base : Option Url) (scheme : String) (last : Bool) (front : List Char) :
    Except UrlError Url :=
  let behind := front.dropWhile isSlash
  match base with
  | some base =>
    if front.length < behind.length + 2 ∧ base.scheme = scheme then relative base last front
    else withAuthority scheme last behind
  | none => withAuthority scheme last behind

/-- The URL of the front of a reference. It keeps the query of its base if the front is empty. -/
def ofFront (base : Option Url) (ref : Reference) : Except UrlError Url :=
  match scheme? ref.front with
  | some (scheme, rest) =>
    match schemeKind scheme with
    | .file => file (base.filter (·.scheme == "file")) rest
    | .special => ofSpecialScheme base scheme ref.isLast rest
    | .other => ofOtherScheme scheme ref.isLast rest
  | none =>
    match base with
    | none => .error .relativeWithoutBase
    | some base =>
      if ref.front.isEmpty && ref.query.isNone && ref.fragment.isSome then
        .ok { base with fragment := none }
      else if base.isOpaque then .error .relativeToOpaque
      else if base.scheme == "file" then file (some base) ref.front
      else relative base ref.isLast ref.front

/-! ## Whole references -/

def resolve (base : Option Url) (text : String) : Except UrlError Url := do
  let ref := Reference.ofText text
  let url ← ofFront base ref
  let inQuery :=
    if (schemeKind url.scheme).isSpecial then Percent.inSpecialQuery else Percent.inQuery
  let encoded (unsafeChar : Char → Bool) (text : List Char) : String :=
    String.ofList (Percent.encode unsafeChar text)
  return { url with
    query := ref.query.elim url.query (some <| encoded inQuery ·)
    fragment := ref.fragment.map (encoded Percent.inFragment) }

def parse (text : String) : Except UrlError Url := resolve none text

def join (base : Url) (reference : String) : Except UrlError Url := resolve (some base) reference

/-! ## Files -/

def ofFilePath (path : String) : Url :=
  let segments := (Text.pieces '/' path.toList).filter (· ≠ [])
  let text := segments.flatMap fun segment => '/' :: Percent.encode Percent.inSegment segment
  fileUrl "" (if text = [] then ['/'] else text)

end SchemaShape.Url
