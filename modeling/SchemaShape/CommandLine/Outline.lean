import SchemaShape.Text.Quoted

/-! # Outlines

The layout of nested values over lines: a name with its parts indented below it, every part on a line
of its own with a comma behind it.
-/

namespace SchemaShape
set_option autoImplicit false

inductive Outline where
  | word (text : String)
  | list (items : List Outline)
  /-- A name with parts in parentheses. -/
  | call (name : String) (parts : List Outline)
  /-- A name with named parts in braces. -/
  | record (name : String) (parts : List (String × Outline))

namespace Outline

def quoted (text : String) : Outline := word (Text.quoted text)

def quotedList (texts : List String) : Outline := list (texts.map quoted)

def ofOption (value : Option Outline) : Outline :=
  match value with
  | none => word "None"
  | some value => call "Some" [value]

def ofBool (value : Bool) : Outline := word (if value then "true" else "false")

/-- Indents the lines of a part, with something before the first and a comma behind the last. -/
def part (before : String) : List String → List String
  | [] => []
  | [only] => ["    " ++ before ++ only ++ ","]
  | first :: second :: rest => ("    " ++ before ++ first) :: part "" (second :: rest)

def framed (opening closing : String) (parts : List String) : List String :=
  if parts = [] then [opening ++ closing] else opening :: parts ++ [closing]

mutual

def lines : Outline → List String
  | word text => [text]
  | list items => framed "[" "]" (itemLines items)
  | call name parts => framed (name ++ "(") ")" (itemLines parts)
  | record name parts => framed (name ++ " \x7b") "\x7d" (partLines parts)

def itemLines : List Outline → List String
  | [] => []
  | item :: rest => part "" item.lines ++ itemLines rest

def partLines : List (String × Outline) → List String
  | [] => []
  | (name, value) :: rest => part (name ++ ": ") value.lines ++ partLines rest

end

def text (outline : Outline) : String := "\n".intercalate outline.lines

end Outline

end SchemaShape
