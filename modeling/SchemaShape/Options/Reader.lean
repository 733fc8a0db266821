import SchemaShape.Json.Reader
import SchemaShape.Options.Basic

/-! # Reading compile options

`Options.read` reads options from the front of a text. It stops at the first fault, be it in the
JSON or in what the options say, with the path of that place: a field of an unknown name at that
name, a second field of one name at the root, and a bad value at its field.
-/

namespace SchemaShape.Options
set_option autoImplicit false

open Json (Token)

/-! ## Values -/

/-- The draft behind an opening brace: its name as the only key, with null as its value. -/
def readDraftObject (path : ReadPath) : List Token → Except ReadPath (Draft × List Token)
  | .text name :: .colon :: rest =>
    match Draft.ofName? name, rest with
    | some draft, .scalar .null :: .closeBrace :: rest => .ok (draft, rest)
    | some _, .scalar .null :: _ => .error path
    | some _, _ => .error (path ++ [.key name])
    | none, _ => .error path
  | _ => .error path

def readDraft (path : ReadPath) : List Token → Except ReadPath (Option Draft × List Token)
  | .scalar .null :: rest => .ok (none, rest)
  | .text name :: rest =>
    match Draft.ofName? name with
    | some draft => .ok (some draft, rest)
    | none => .error path
  | .openBrace :: rest => (readDraftObject path rest).map fun (draft, rest) => (some draft, rest)
  | _ => .error path

/-- The value of a field, put into the options. -/
def readField (options : Options) (name : String) (path : ReadPath) (tokens : List Token) :
    Except ReadPath (Options × List Token) :=
  match name, tokens with
  | "draft", tokens =>
    (readDraft path tokens).map fun (draft, rest) => ({ options with draft }, rest)
  | name, .scalar value :: rest => scalarField name value rest
  | name, .text value :: rest => scalarField name (.string value) rest
  | _, _ => .error path
where
  scalarField (name : String) (value : Json) (rest : List Token) :
      Except ReadPath (Options × List Token) :=
    match options.setField name value with
    | .ok options => .ok (options, rest)
    | .error _ => .error path

/-! ## Fields by name and by position -/

def readMember (options : Options) (seen : List String) (key : String) (rest : List Token) :
    Except ReadPath (Options × List Token) :=
  if key ∉ fieldNames then .error [.key key]
  else if key ∈ seen then .error []
  else match rest with
    | .colon :: rest => readField options key [.key key] rest
    | _ => .error []

/-- The members behind the first. No field occurs twice, so `fuel` need not exceed their number. -/
def readMembers (options : Options) (seen : List String) :
    (fuel : Nat) → List Token → Except ReadPath Options
  | _, .closeBrace :: _ => .ok options
  | fuel + 1, .comma :: .text key :: rest => do
    let (options, rest) ← readMember options seen key rest
    readMembers options (key :: seen) fuel rest
  | 0, .comma :: .text key :: _ => .error (if key ∈ fieldNames then [] else [.key key])
  | _, _ => .error [.unnamed]

def readObject : List Token → Except ReadPath Options
  | .closeBrace :: _ => .ok {}
  | .text key :: rest => do
    let (options, rest) ← readMember {} [] key rest
    readMembers options [key] fieldNames.length rest
  | _ => .error [.unnamed]

/-- The values behind the first, for the remaining fields. -/
def readItems (options : Options) (position : Nat) :
    (names : List String) → List Token → Except ReadPath Options
  | _, .closeBracket :: _ => .ok options
  | _, .comma :: .closeBracket :: _ => .error []
  | _, [.comma] => .error []
  | name :: names, .comma :: rest => do
    let (options, rest) ← readField options name [.index position] rest
    readItems options (position + 1) names rest
  | _, _ => .error []

def readArray : List Token → Except ReadPath Options
  | .closeBracket :: _ => .ok {}
  | [] => .error []
  | tokens => do
    let (options, rest) ← readField {} "name" [.index 0] tokens
    readItems options 1 ["draft", "max_ref_depth"] rest

/-! ## Whole options -/

def read (text : String) : Except ReadPath Options :=
  match Token.scan text.toList with
  | .openBrace :: rest => readObject rest
  | .openBracket :: rest => readArray rest
  | _ => .error []

end SchemaShape.Options
