import SchemaShape.Text.Hex
import SchemaShape.Text.Pieces

/-! # IP addresses in hosts

An IPv4 address is up to four numbers between points, in decimal, octal or hexadecimal; the last one
fills the bytes that the others leave. A host whose last part is such a number has to be an address.
An IPv6 address is eight groups, of which one run of zeros may be left out and the last two may be
written as an IPv4 address; printed, it leaves out the first longest run of at least two zeros.
-/

namespace SchemaShape.Address
set_option autoImplicit false

/-! ## IPv4 -/

/-- The value of digits to a base, if they all are digits of it. -/
def digitsValue? (base : Nat) (digits : List Char) : Option Nat :=
  digits.foldlM (fun value c => do
    let digit ← Text.hexValue? c
    if digit < base then some (value * base + digit) else none) 0

/-- A number after `0x` is hexadecimal, and one after another zero octal. -/
def number? : List Char → Option Nat
  | [] => none
  | '0' :: 'x' :: digits => digitsValue? 16 digits
  | '0' :: 'X' :: digits => digitsValue? 16 digits
  | ['0'] => some 0
  | '0' :: digits => digitsValue? 8 digits
  | digits => digitsValue? 10 digits

def parts (host : List Char) : List (List Char) :=
  let all := Text.pieces '.' host
  if all.getLast? = some [] then all.dropLast else all

def endsInNumber (host : List Char) : Bool :=
  match (parts host).getLast? with
  | none => false
  | some last => (last != [] && last.all Char.isDigit) || (number? last).isSome

def ipv4? (host : List Char) : Option Nat := do
  let numbers ← (parts host).mapM number?
  let last ← numbers.getLast?
  let front := numbers.dropLast
  if 4 < numbers.length ∨ front.any (255 < ·) ∨ Nat.pow 256 (4 - front.length) ≤ last then none
  else some (front.zipIdx.foldl (fun sum (n, i) => sum + n * Nat.pow 256 (3 - i)) last)

def ipv4Text (bits : Nat) : String :=
  ".".intercalate ([3, 2, 1, 0].map fun i => toString (bits / Nat.pow 256 i % 256))

/-! ## IPv6 -/

/-- One to four hexadecimal digits. -/
def group? (digits : List Char) : Option Nat :=
  if digits.length = 0 ∨ 4 < digits.length then none else digitsValue? 16 digits

/-- A decimal number of at most 255 without zeros in front. -/
def byte? (digits : List Char) : Option Nat :=
  match digits with
  | [] => none
  | '0' :: _ :: _ => none
  | digits => (digitsValue? 10 digits).filter (· ≤ 255)

/-- The two groups that an IPv4 address at the end stands for. -/
def ipv4Groups? (text : List Char) : Option (List Nat) := do
  match ← (Text.pieces '.' text).mapM byte? with
  | [a, b, c, d] => some [a * 256 + b, c * 256 + d]
  | _ => none

/-- Groups between colons; an IPv4 address may be the last one if `ending`. -/
def groups? (ending : Bool) (text : List Char) : Option (List Nat) :=
  if text = [] then some []
  else
    let all := Text.pieces ':' text
    let last := all.getLast?.getD []
    if ending && last.contains '.' then do
      return (← all.dropLast.mapM group?) ++ (← ipv4Groups? last)
    else all.mapM group?

/-- What stands before the first double colon and what behind it. -/
def splitGap : List Char → Option (List Char × List Char)
  | ':' :: ':' :: rest => some ([], rest)
  | c :: rest => (splitGap rest).map fun (before, after) => (c :: before, after)
  | [] => none

def ipv6? (text : List Char) : Option (List Nat) := do
  match splitGap text with
  | none =>
    let groups ← groups? true text
    if groups.length = 8 then some groups else none
  | some (before, after) =>
    let front ← groups? false before
    let back ← groups? true after
    let gap := 8 - (front.length + back.length)
    if gap = 0 then none else some (front ++ List.replicate gap 0 ++ back)

/-- The length of the run of zeros at the front. -/
def zeroRun (groups : List Nat) : Nat :=
  (groups.takeWhile (· == 0)).length

/-- Where the first longest run of at least two zeros starts, and its length. -/
def longestGap? (groups : List Nat) : Option (Nat × Nat) :=
  (List.range groups.length).foldl (fun best start =>
    let length := zeroRun (groups.drop start)
    if 1 < length ∧ best.elim 0 (·.2) < length then some (start, length) else best) none

def groupsText (groups : List Nat) : String :=
  ":".intercalate (groups.map fun g => String.ofList (Text.hexDigits 1 g))

def ipv6Text (groups : List Nat) : String :=
  match longestGap? groups with
  | none => groupsText groups
  | some (start, length) =>
    groupsText (groups.take start) ++ "::" ++ groupsText (groups.drop (start + length))

end SchemaShape.Address
