import SchemaShape.Decimal.Shortest
import SchemaShape.Json.Basic
import SchemaShape.Text.Hex

/-! # JSON text

A string is written between quotes; a quote, a backslash and control characters are escaped and
everything else stands for itself, or, in ASCII text, is escaped unless printable ASCII. `compact`
writes no blank; `pretty` writes one member or item a line, indented by two blanks per level.
-/

namespace SchemaShape
set_option autoImplicit false

/-! ## Strings -/

namespace Json

def unitEscape (unit : Nat) : List Char :=
  '\\' :: 'u' :: Text.hexDigits 4 unit

/-- The escape of a character outside ASCII: one unit, or the two halves of a surrogate pair. -/
def charEscape (c : Char) : List Char :=
  if c.toNat < 0x10000 then unitEscape c.toNat
  else
    let offset := c.toNat - 0x10000
    unitEscape (0xD800 + offset / 0x400) ++ unitEscape (0xDC00 + offset % 0x400)

def quotedChar (c : Char) : List Char :=
  if c = '"' then ['\\', '"']
  else if c = '\\' then ['\\', '\\']
  else if c = '\x08' then ['\\', 'b']
  else if c = '\x0c' then ['\\', 'f']
  else if c = '\n' then ['\\', 'n']
  else if c = '\r' then ['\\', 'r']
  else if c = '\t' then ['\\', 't']
  else if c.toNat < 0x20 then unitEscape c.toNat
  else [c]

def quoted (s : String) : List Char :=
  '"' :: s.toList.flatMap quotedChar ++ ['"']

/-- Text with every character outside printable ASCII escaped; right where such characters stand
inside strings only. -/
def asciiEscaped (text : List Char) : List Char :=
  text.flatMap fun c => if c.toNat < 0x20 ∨ 0x7E < c.toNat then charEscape c else [c]

/-! ## Numbers -/

/-- Doubles are positional from `1e-5` up to below `1e16` and always show that they are no
integers. -/
def numberLayout : Layout := ⟨some (-5, 16), ".0"⟩

end Json

def Number.text : Number → String
  | integer value => toString value
  | double value => value.text Json.numberLayout

/-! ## Values -/

namespace Json

mutual

def compact : Json → List Char
  | null => ['n', 'u', 'l', 'l']
  | bool true => ['t', 'r', 'u', 'e']
  | bool false => ['f', 'a', 'l', 's', 'e']
  | number value => value.text.toList
  | string value => quoted value
  | array [] => ['[', ']']
  | array (item :: rest) => '[' :: compact item ++ compactItems rest
  | object [] => ['\x7b', '\x7d']
  | object ((key, value) :: rest) =>
    '\x7b' :: quoted key ++ ':' :: compact value ++ compactMembers rest

def compactItems : List Json → List Char
  | [] => [']']
  | item :: rest => ',' :: compact item ++ compactItems rest

def compactMembers : List (String × Json) → List Char
  | [] => ['\x7d']
  | (key, value) :: rest => ',' :: quoted key ++ ':' :: compact value ++ compactMembers rest

end

def newline (level : Nat) : List Char :=
  '\n' :: List.replicate (2 * level) ' '

mutual

def indented (level : Nat) : Json → List Char
  | array [] => ['[', ']']
  | array (item :: rest) =>
    '[' :: newline (level + 1) ++ indented (level + 1) item ++ indentedItems level rest
  | object [] => ['\x7b', '\x7d']
  | object ((key, value) :: rest) =>
    '\x7b' :: newline (level + 1) ++ quoted key ++ ':' :: ' ' :: indented (level + 1) value ++
      indentedMembers level rest
  | null => compact null
  | bool value => compact (bool value)
  | number value => compact (number value)
  | string value => compact (string value)

def indentedItems (level : Nat) : List Json → List Char
  | [] => newline level ++ [']']
  | item :: rest =>
    ',' :: newline (level + 1) ++ indented (level + 1) item ++ indentedItems level rest

def indentedMembers (level : Nat) : List (String × Json) → List Char
  | [] => newline level ++ ['\x7d']
  | (key, value) :: rest =>
    ',' :: newline (level + 1) ++ quoted key ++ ':' :: ' ' :: indented (level + 1) value ++
      indentedMembers level rest

end

def text (value : Json) : String := String.ofList value.compact

def pretty (value : Json) : String := String.ofList (value.indented 0)

def asciiText (value : Json) : String := String.ofList (asciiEscaped value.compact)

end Json

end SchemaShape
