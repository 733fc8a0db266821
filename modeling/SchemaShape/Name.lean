import SchemaShape.Json.Basic
import SchemaShape.Text.Case
import SchemaShape.Text.Letter

/-! # Record names

A name is a title without its blanks and dashes, each word in title case. A word is a run of
letters: what stands between words is kept, blanks and dashes apart.
-/

namespace SchemaShape.Name
set_option autoImplicit false

/-- The name of a title from some point on, which lies within a word if `inWord`. -/
def scan (inWord : Bool) : List Char → List Char
  | [] => []
  | c :: rest =>
    if Text.isLetter c then (if inWord then Text.lower c else Text.upper c) ++ scan true rest
    else if c = ' ' ∨ c = '-' then scan false rest
    else c :: scan false rest

def ofTitle (title : String) : String :=
  String.ofList (scan false title.toList)

def untitled : String := "JSONSchema"

def ofSchema (schema : Json) : String :=
  match (schema.get? "title").bind Json.asString? with
  | some title => ofTitle title
  | none => untitled

end SchemaShape.Name
