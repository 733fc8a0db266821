import SchemaShape.Text.Pieces

/-! # Wildcards

Patterns of file names. `?` stands for any character, `*` for any run of characters, `[…]` for one
of the characters and ranges listed, `[!…]` for one that is not listed. A name that is `**` stands
for any run of directories. Every other character stands for itself.
-/

namespace SchemaShape
set_option autoImplicit false

inductive Wildcard where
  | char (c : Char)
  | anyChar
  | anyRun
  | oneOf (ranges : List (Char × Char))
  | noneOf (ranges : List (Char × Char))
  /-- The whole of a name, for any run of directories. -/
  | directories
  deriving DecidableEq, Repr

namespace Wildcard

inductive Fault where
  | tooManyStars
  /-- Two stars with something else in their name. -/
  | sharedName
  /-- A bracket that is not closed, or with nothing in it. -/
  | badRange
  deriving DecidableEq, Repr

def Fault.message : Fault → String
  | tooManyStars => "wildcards are either regular `*` or recursive `**`"
  | sharedName => "recursive wildcards must form a single path component"
  | badRange => "invalid range pattern"

structure FaultAt where
  position : Nat
  fault : Fault
  deriving DecidableEq, Repr

def FaultAt.message (f : FaultAt) : String :=
  "Pattern syntax error near position " ++ toString f.position ++ ": " ++ f.fault.message

/-! ## Reading -/

/-- What stands in brackets and what follows them. The first character is always part of what stands
in them. -/
def bracketed? : List Char → Option (List Char × List Char)
  | [] => none
  | first :: rest =>
    match rest.dropWhile (· ≠ ']') with
    | [] => none
    | _ :: after => some (first :: rest.takeWhile (· ≠ ']'), after)

theorem length_of_bracketed? {text inside after : List Char}
    (h : bracketed? text = some (inside, after)) : after.length < text.length := by
  match text with
  | [] => simp [bracketed?] at h
  | first :: rest =>
    have le := (List.dropWhile_suffix (l := rest) (fun c => decide (c ≠ ']'))).length_le
    simp only [bracketed?] at h
    split at h
    · cases h
    · next eq =>
      cases h
      rw [eq] at le
      simp only [List.length_cons] at le ⊢
      omega

/-- The characters and ranges in brackets; a single character is a range of one. -/
def ranges : List Char → List (Char × Char)
  | low :: '-' :: high :: rest => (low, high) :: ranges rest
  | c :: rest => (c, c) :: ranges rest
  | [] => []

/-- The wildcards of a text at a position of a pattern. -/
def readFrom (position : Nat) (atNameStart : Bool) (text : List Char) :
    Except FaultAt (List Wildcard) :=
  match text with
  | [] => .ok []
  | '?' :: rest => (readFrom (position + 1) false rest).map (.anyChar :: ·)
  | '*' :: '*' :: '*' :: _ => .error ⟨position + 2, .tooManyStars⟩
  | '*' :: '*' :: rest =>
    if !atNameStart then .error ⟨position - 1, .sharedName⟩
    else match rest with
      | [] => .ok [.directories]
      | '/' :: rest => (readFrom (position + 3) true rest).map (.directories :: ·)
      | _ => .error ⟨position + 2, .sharedName⟩
  | '*' :: rest => (readFrom (position + 1) false rest).map (.anyRun :: ·)
  | '[' :: '!' :: rest =>
    match h : bracketed? rest with
    | none => .error ⟨position, .badRange⟩
    | some (inside, after) =>
      have := length_of_bracketed? h
      (readFrom (position + (inside.length + 3)) false after).map (.noneOf (ranges inside) :: ·)
  | '[' :: rest =>
    match h : bracketed? rest with
    | none => .error ⟨position, .badRange⟩
    | some (inside, after) =>
      have := length_of_bracketed? h
      (readFrom (position + (inside.length + 2)) false after).map (.oneOf (ranges inside) :: ·)
  | c :: rest => (readFrom (position + 1) (c == '/') rest).map (.char c :: ·)
termination_by text.length

def read (pattern : List Char) : Except FaultAt (List Wildcard) := readFrom 0 true pattern

def isPattern (text : String) : Bool :=
  text.toList.any fun c => c == '*' || c == '?' || c == '['

/-! ## Matching -/

def within (ranges : List (Char × Char)) (c : Char) : Bool :=
  ranges.any fun (low, high) => low ≤ c && c ≤ high

def accepts : Wildcard → Char → Bool
  | char expected, c => expected == c
  | anyChar, _ => true
  | oneOf ranges, c => within ranges c
  | noneOf ranges, c => !within ranges c
  | anyRun, _ => false
  | directories, _ => false

def matchName : List Wildcard → List Char → Bool
  | [], name => name.isEmpty
  | anyRun :: more, [] => matchName more []
  | anyRun :: more, c :: rest => matchName more (c :: rest) || matchName (anyRun :: more) rest
  | _ :: _, [] => false
  | wildcard :: more, c :: rest => wildcard.accepts c && matchName more rest
termination_by wildcards name => (wildcards.length, name.length)

/-- The one name that wildcards without choice match. -/
def literal? (wildcards : List Wildcard) : Option String :=
  (wildcards.mapM fun
    | char c => some c
    | _ => none).map String.ofList

end Wildcard

end SchemaShape
