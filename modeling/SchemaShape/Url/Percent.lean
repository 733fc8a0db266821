import SchemaShape.Text.Hex
import SchemaShape.Text.Utf8

/-! # Percent-encoding

A character that may not stand in some part of a URL is written as its UTF-8 bytes, each a percent
sign and two hexadecimal digits in upper case. Which ASCII characters that are depends on the part;
controls and characters outside ASCII may stand nowhere.
-/

namespace SchemaShape.Percent
set_option autoImplicit false

/-! ## Characters to encode -/

def isControl (c : Char) : Bool := c.toNat < 0x20 || 0x7E < c.toNat

def inFragment (c : Char) : Bool :=
  isControl c || c == ' ' || c == '"' || c == '<' || c == '>' || c.toNat == 0x60

def inPath (c : Char) : Bool :=
  inFragment c || c == '#' || c == '?' || c == '\x7b' || c == '\x7d'

def inUserinfo (c : Char) : Bool :=
  inPath c || c == '/' || c == ':' || c == ';' || c == '=' || c == '@' || c == '[' || c == '\\' ||
    c == ']' || c == '^' || c == '|'

/-- Characters to encode in the query of a URL whose scheme is not special. -/
def inQuery (c : Char) : Bool :=
  isControl c || c == ' ' || c == '"' || c == '#' || c == '<' || c == '>'

def inSpecialQuery (c : Char) : Bool := inQuery c || c == '\''

/-- Characters to encode where a text becomes a whole path segment. -/
def inSegment (c : Char) : Bool := inPath c || c == '/' || c == '%' || c == '\\'

/-! ## Encoding -/

def encodeByte (b : Nat) : List Char :=
  '%' :: (Text.hexDigits 2 b).map Char.toUpper

def encodeChar (unsafeChar : Char → Bool) (c : Char) : List Char :=
  if unsafeChar c then (Text.Utf8.encodeChar c).flatMap encodeByte else [c]

def encode (unsafeChar : Char → Bool) (text : List Char) : List Char :=
  text.flatMap (encodeChar unsafeChar)

/-! ## Decoding -/

/-- The bytes of a text; a percent sign without two digits behind it stands for itself. -/
def decodeBytes : List Char → List Nat
  | '%' :: a :: b :: rest =>
    match Text.hexValue? a, Text.hexValue? b with
    | some high, some low => (high * 16 + low) :: decodeBytes rest
    | _, _ => 0x25 :: decodeBytes (a :: b :: rest)
  | c :: rest => Text.Utf8.encodeChar c ++ decodeBytes rest
  | [] => []

def decode (text : List Char) : Except Text.Utf8.Failure (List Char) :=
  Text.Utf8.decode (decodeBytes text)

end SchemaShape.Percent
