import SchemaShape.Json.Basic
import SchemaShape.Text.Pieces
import SchemaShape.Text.Replace

/-! # JSON pointers

A pointer is the list of tokens on the way to a part of a value. In text every token follows a
slash, with `~` written `~0` and a slash written `~1`. A token names a member of an object by its
key and an item of an array by its decimal position, without sign and without leading zeros.
-/

namespace SchemaShape
set_option autoImplicit false

abbrev Pointer := List String

namespace Pointer

/-! ## Text -/

def escapeChar (c : Char) : List Char :=
  if c = '~' then ['~', '0'] else if c = '/' then ['~', '1'] else [c]

def escape (token : List Char) : List Char :=
  token.flatMap escapeChar

def text (pointer : Pointer) : String :=
  String.ofList (pointer.flatMap fun token => '/' :: escape token.toList)

/-- Reads every `~1` as a slash, then every `~0` as a tilde; any other tilde stands for itself. -/
def unescape : List Char → List Char
  | '~' :: '1' :: rest => '/' :: unescape rest
  | '~' :: '0' :: rest => '~' :: unescape rest
  | c :: rest => c :: unescape rest
  | [] => []

/-- The tokens of a text that is empty or starts with a slash. -/
def ofText? (text : String) : Option Pointer :=
  match text.toList with
  | [] => some []
  | '/' :: rest => some ((Text.pieces '/' rest).map fun token => String.ofList (unescape token))
  | _ => none

/-! ## Token by token -/

/-- A token as it is written in a pointer. -/
def escaped (token : String) : String :=
  String.ofList (Text.replace '/' [] ['~', '1'] (Text.replace '~' [] ['~', '0'] token.toList))

/-- What a written token stands for. -/
def unescaped (written : String) : String :=
  String.ofList (Text.replace '~' ['0'] ['~'] (Text.replace '~' ['1'] ['/'] written.toList))

/-- The text of a pointer with one more token. -/
def push (pointer token : String) : String := pointer ++ "/" ++ escaped token

/-- The text of the pointer with these tokens, token by token. -/
def built (tokens : List String) : String := tokens.foldl push ""

/-! ## Looking up -/

/-- The position an array token names. -/
def index? (token : String) : Option Nat :=
  match token.toList with
  | [] => none
  | ['0'] => some 0
  | '0' :: _ => none
  | digits => if digits.all Char.isDigit then some (Nat.ofDigitChars 10 digits 0) else none

end Pointer

namespace Json

/-- The part that one token names. -/
def child? : Json → String → Option Json
  | object members, token => Members.get? members token
  | array items, token => (Pointer.index? token).bind (items[·]?)
  | _, _ => none

def at? : Json → Pointer → Option Json
  | value, [] => some value
  | value, token :: rest => (value.child? token).bind (·.at? rest)

def pointer? (value : Json) (text : String) : Option Json :=
  (Pointer.ofText? text).bind value.at?

end Json

end SchemaShape
