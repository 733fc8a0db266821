import SchemaShape.Json.Text
import SchemaShape.Shape.Basic

/-! # Shapes as text

A shape is written with its head and its parts in brackets, a record with its fields in braces. A
field that is not required has a question mark, and a key that is no plain word stands in quotes.
Only the name of an outer record is written.
-/

namespace SchemaShape
set_option autoImplicit false

def Scalar.text : Scalar → String
  | string => "string"
  | int => "int"
  | number => "number"
  | bool => "bool"
  | null => "null"
  | any => "any"

/-- Doubles in shapes are always positional and show no point without a fraction. -/
def Literal.numberLayout : Layout := ⟨none, ""⟩

def Literal.text : Literal → List Char
  | string value => Json.quoted value
  | int value => (toString value).toList
  | double value => (value.text numberLayout).toList
  | bool value => (toString value).toList
  | null => ['n', 'u', 'l', 'l']

namespace Shape

def isPlainStart (c : Char) : Bool := c.isAlpha || c == '_'

/-- A letter or an underscore, and then letters, digits and underscores, all ASCII. -/
def isPlainKey : List Char → Bool
  | [] => false
  | c :: rest => isPlainStart c && rest.all fun c => isPlainStart c || c.isDigit

def keyText (key : String) : List Char :=
  if isPlainKey key.toList then key.toList else Json.quoted key

def fieldHead (key : String) (required : Bool) : List Char :=
  keyText key ++ (if required then [':', ' '] else ['?', ':', ' '])

mutual

def chars : Shape → List Char
  | scalar kind => kind.text.toList
  | literal value => "literal[".toList ++ value.text ++ [']']
  | union members => "union[".toList ++ charsFirst members
  | list element => "list[".toList ++ chars element ++ [']']
  | tuple elements => "tuple[".toList ++ charsFirst elements
  | mapping value => "map[string, ".toList ++ chars value ++ [']']
  | record name outer fields =>
    (if outer then name.toList else []) ++ '\x7b' :: charsFirstField fields
  | nothing => "nothing".toList

/-- A list of shapes and the closing bracket. -/
def charsFirst : List Shape → List Char
  | [] => [']']
  | shape :: rest => chars shape ++ charsRest rest

def charsRest : List Shape → List Char
  | [] => [']']
  | shape :: rest => ',' :: ' ' :: chars shape ++ charsRest rest

/-- A list of fields and the closing brace. -/
def charsFirstField : List (Field Shape) → List Char
  | [] => ['\x7d']
  | ⟨key, required, shape⟩ :: rest =>
    fieldHead key required ++ chars shape ++ charsRestField rest

def charsRestField : List (Field Shape) → List Char
  | [] => ['\x7d']
  | ⟨key, required, shape⟩ :: rest =>
    ',' :: ' ' :: fieldHead key required ++ chars shape ++ charsRestField rest

end

def text (shape : Shape) : String := String.ofList shape.chars

end Shape

end SchemaShape
