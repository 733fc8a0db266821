import SchemaShape.Url.Address
import SchemaShape.Url.Basic
import SchemaShape.Url.Domain
import SchemaShape.Url.Path

/-! # Hosts, users and ports

What stands between `//` and the path of a URL. A special scheme has a domain name or an address as
its host; any other scheme takes any text that holds no delimiter.
-/

namespace SchemaShape
set_option autoImplicit false

open UrlPath (SchemeKind)

namespace Host

/-- An address between brackets, if the text starts with one. -/
def bracketed? (text : List Char) : Option (Except UrlError String) :=
  match text with
  | '[' :: rest =>
    some <|
      if rest.getLast? = some ']' then
        match Address.ipv6? rest.dropLast with
        | some groups => .ok ("[" ++ Address.ipv6Text groups ++ "]")
        | none => .error .invalidIpv6
      else .error .invalidIpv6
  | _ => none

def ofDomain (text : List Char) : Except UrlError String :=
  match bracketed? text with
  | some result => result
  | none =>
    match (Percent.decode text).toOption.bind Domain.toAscii? with
    | none => .error .invalidDomain
    | some [] => .error .emptyHost
    | some domain =>
      if Address.endsInNumber domain then
        match Address.ipv4? domain with
        | some bits => .ok (Address.ipv4Text bits)
        | none => .error .invalidIpv4
      else .ok (String.ofList domain)

/-- Characters that no host may have, those apart that end it anyway. -/
def isForbidden (c : Char) : Bool :=
  "\x00\t\n\r #/:<>?@[\\]^|".toList.contains c

def ofOpaque (text : List Char) : Except UrlError String :=
  match bracketed? text with
  | some result => result
  | none =>
    if text.any isForbidden then .error .invalidHostCharacter
    else .ok (String.ofList (Percent.encode Percent.isControl text))

/-! ## Extent -/

def endsAuthority (kind : SchemeKind) (c : Char) : Bool :=
  c == '/' || (c == '\\' && kind.isSpecial)

/-- The host at the front, which a colon outside brackets ends too, and what follows. -/
def split (kind : SchemeKind) (inBrackets : Bool) : List Char → List Char × List Char
  | [] => ([], [])
  | c :: rest =>
    if endsAuthority kind c || (c == ':' && !inBrackets) then ([], c :: rest)
    else
      let inBrackets := if c = '[' then true else if c = ']' then false else inBrackets
      let (host, rest) := split kind inBrackets rest
      (c :: host, rest)

end Host

namespace Authority

/-! ## Port -/

def defaultPort? : String → Option Nat
  | "http" => some 80
  | "ws" => some 80
  | "https" => some 443
  | "wss" => some 443
  | "ftp" => some 21
  | _ => none

/-- The port at the front; none if there are no digits or it is the scheme's own. -/
def readPort (scheme : String) (text : List Char) : Except UrlError (Option Nat × List Char) :=
  let digits := text.takeWhile Char.isDigit
  let rest := text.dropWhile Char.isDigit
  let value := Nat.ofDigitChars 10 digits 0
  if 0xFFFF < value then .error .invalidPort
  else if rest.head?.any fun c => c != '/' && c != '\\' then .error .invalidPort
  else if digits = [] ∨ defaultPort? scheme = some value then .ok (none, rest)
  else .ok (some value, rest)

/-! ## User -/

def splitAt? (text : List Char) : Option (List Char × List Char) :=
  if text.contains '@' then
    let reversed := text.reverse
    some (((reversed.dropWhile (· != '@')).drop 1).reverse,
      (reversed.takeWhile (· != '@')).reverse)
  else none

/-- User name and password as they are printed: a password that is empty has no colon. -/
def userinfoText (text : List Char) : String :=
  let encode := Percent.encode Percent.inUserinfo
  let name := text.takeWhile (· != ':')
  let password := (text.dropWhile (· != ':')).drop 1
  if name = [] ∧ password = [] then ""
  else
    String.ofList (encode name ++ (if password = [] then [] else ':' :: encode password) ++ ['@'])

/-! ## The whole authority -/

/-- The authority at the front of a text and what follows it. `last` says that nothing follows the
text, no query and no fragment. -/
def read (scheme : String) (kind : SchemeKind) (last : Bool) (text : List Char) :
    Except UrlError (Authority × List Char) := do
  let extent := text.takeWhile fun c => !Host.endsAuthority kind c
  let behind := text.dropWhile fun c => !Host.endsAuthority kind c
  let (userinfo, rest) ← match splitAt? extent with
    | none => pure ("", text)
    | some (user, host) =>
      if user = [] ∧ host = [] ∧ (behind ≠ [] ∨ !last) then throw .emptyHost
      else pure (userinfoText user, host ++ behind)
  let (hostText, rest) := Host.split kind false rest
  if kind.isSpecial && hostText.isEmpty then throw .emptyHost
  let host ← if kind.isSpecial then Host.ofDomain hostText else Host.ofOpaque hostText
  match rest with
  | ':' :: rest =>
    if host.isEmpty then throw .emptyHost
    let (port, rest) ← readPort scheme rest
    return ({ userinfo, host, port }, rest)
  | rest =>
    if host.isEmpty && !userinfo.isEmpty then throw .emptyHost
    return ({ userinfo, host }, rest)

end Authority

end SchemaShape
