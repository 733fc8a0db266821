import SchemaShape.Text.Hex
import SchemaShape.Text.Printable

/-! # Quoted text

How messages show a name or a reference: between quotes, with a backslash before quotes and
backslashes, short escapes for NUL, tab, line feed and carriage return, and the code point in braces
for whatever else is not printable.
-/

namespace SchemaShape.Text
set_option autoImplicit false

def quotedChar (c : Char) : List Char :=
  if c = '"' then ['\\', '"']
  else if c = '\\' then ['\\', '\\']
  else if c = '\x00' then ['\\', '0']
  else if c = '\t' then ['\\', 't']
  else if c = '\n' then ['\\', 'n']
  else if c = '\r' then ['\\', 'r']
  else if isPrintable c then [c]
  else '\\' :: 'u' :: '\x7b' :: hexDigits 1 c.toNat ++ ['\x7d']

def quoted (s : String) : String :=
  String.ofList ('"' :: s.toList.flatMap quotedChar ++ ['"'])

/-- Quoted texts in brackets, separated by commas. -/
def quotedList (texts : List String) : String :=
  "[" ++ ", ".intercalate (texts.map quoted) ++ "]"

end SchemaShape.Text
