/-! # URLs

An absolute URL in its parts, each as it is printed. The path of a URL with an authority, or with a
path that starts with a slash, is a hierarchy that relative references can climb; any other path is
opaque.

The fragment is the last part, and `Url.withoutFragment` names the document that a URL points into.
-/

namespace SchemaShape
set_option autoImplicit false

/-- Who serves a URL: what stands between `//` and the path. -/
structure Authority where
  /-- User name and password, with the `@` behind them. -/
  userinfo : String := ""
  /-- Empty for a URL of a scheme that needs no host. -/
  host : String := ""
  port : Option Nat := none
  deriving DecidableEq, Repr, Inhabited

structure Url where
  scheme : String
  authority : Option Authority
  path : String
  query : Option String
  fragment : Option String
  deriving DecidableEq, Repr, Inhabited

inductive UrlError where
  | emptyHost
  | invalidDomain
  | invalidPort
  | invalidIpv4
  | invalidIpv6
  /-- A character that may not stand in the host of a scheme that is not special. -/
  | invalidHostCharacter
  | relativeWithoutBase
  | relativeToOpaque
  deriving DecidableEq, Repr

def UrlError.message : UrlError → String
  | emptyHost => "empty host"
  | invalidDomain => "invalid international domain name"
  | invalidPort => "invalid port number"
  | invalidIpv4 => "invalid IPv4 address"
  | invalidIpv6 => "invalid IPv6 address"
  | invalidHostCharacter => "invalid domain character"
  | relativeWithoutBase => "relative URL without a base"
  | relativeToOpaque => "relative URL with a cannot-be-a-base base"

def Authority.text (a : Authority) : String :=
  "//" ++ a.userinfo ++ a.host ++ a.port.elim "" (":" ++ toString ·)

namespace Url

/-- An opaque path takes no relative references other than fragments. -/
def isOpaque (url : Url) : Bool :=
  url.authority.isNone && url.path.toList.head? != some '/'

/-- Without an authority, a path that starts with two slashes would read as one; `/.` stands in
front of it. -/
def pathText (url : Url) : String :=
  if url.authority.isNone && "//".toList.isPrefixOf url.path.toList then "/." ++ url.path
  else url.path

def documentText (url : Url) : String :=
  url.scheme ++ ":" ++ url.authority.elim "" Authority.text ++ url.pathText ++
    url.query.elim "" ("?" ++ ·)

def text (url : Url) : String :=
  url.documentText ++ url.fragment.elim "" ("#" ++ ·)

instance : ToString Url := ⟨text⟩

/-- An opaque path does not end in blanks once nothing follows it. -/
def withoutFragment (url : Url) : Url :=
  let path :=
    if url.isOpaque && url.query.isNone then
      String.ofList (url.path.toList.reverse.dropWhile (· == ' ')).reverse
    else url.path
  { url with path, fragment := none }

end Url

end SchemaShape
