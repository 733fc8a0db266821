/-! # Punycode

Texts of any characters written with ASCII alone. The ASCII characters come first, up to the last
hyphen. Behind it stand the others in the order of their codes, as the numbers of positions that are
passed over on the way to each. A number is written in digits of 36 values, the smallest first, and
ends with the first digit below a threshold; the thresholds follow a bias, which adapts to the
numbers so far.
-/

namespace SchemaShape.Punycode
set_option autoImplicit false

def firstCode : Nat := 128

def firstBias : Nat := 72

/-! ## Digits -/

def digitChar (digit : Nat) : Char :=
  Char.ofNat (if digit < 26 then 'a'.toNat + digit else '0'.toNat + (digit - 26))

def digitValue? (c : Char) : Option Nat :=
  if 'a' ≤ c ∧ c ≤ 'z' then some (c.toNat - 'a'.toNat)
  else if '0' ≤ c ∧ c ≤ '9' then some (c.toNat - '0'.toNat + 26)
  else none

/-- The threshold of a digit whose position in its number is `scale / 36`, counted from 1. -/
def threshold (bias scale : Nat) : Nat := min 26 (max 1 (scale - bias))

def digits (bias scale value : Nat) : List Nat :=
  let least := threshold bias scale
  if value < least then [value]
  else
    (least + (value - least) % (36 - least)) ::
      digits bias (scale + 36) ((value - least) / (36 - least))
termination_by value
decreasing_by
  have := Nat.div_le_self (value - threshold bias scale) (36 - threshold bias scale)
  have : 1 ≤ threshold bias scale := by unfold threshold; omega
  omega

/-- Divides by 35 until the rest is small, with 36 for every time. -/
def shrink (value : Nat) : Nat × Nat :=
  if value ≤ 455 then (value, 0)
  else
    let (rest, scale) := shrink (value / 35)
    (rest, scale + 36)
termination_by value
decreasing_by omega

/-- The bias after a number, when the text has `length` characters. -/
def adapt (number length : Nat) (isFirst : Bool) : Nat :=
  let halved := if isFirst then number / 700 else number / 2
  let (rest, scale) := shrink (halved + halved / length)
  scale + 36 * rest / (rest + 38)

/-! ## Writing -/

structure Writer where
  written : List Char
  /-- How many characters of the text are written. -/
  length : Nat
  passed : Nat := 0
  bias : Nat := firstBias
  isFirst : Bool := true

/-- Passes a character, and writes it if it has the code. -/
def Writer.pass (code : Nat) (w : Writer) (c : Char) : Writer :=
  if c.toNat < code then { w with passed := w.passed + 1 }
  else if c.toNat = code then
    { written := w.written ++ (digits w.bias 36 w.passed).map digitChar
      length := w.length + 1
      bias := adapt w.passed (w.length + 1) w.isFirst
      isFirst := false }
  else w

/-- Writes the characters of each code; none is below the first argument. -/
def Writer.writeCodes (text : List Char) : Nat → List Nat → Writer → Writer
  | _, [], w => w
  | start, code :: rest, w =>
    let w := { w with passed := w.passed + (code - start) * (w.length + 1) }
    let w := text.foldl (pass code) w
    writeCodes text (code + 1) rest { w with passed := w.passed + 1 }

def encode (text : List Char) : List Char :=
  let plain := text.filter (·.toNat < firstCode)
  let codes := (text.map Char.toNat).filter (firstCode ≤ ·)
  let ordered := codes.eraseDups.mergeSort fun a b => decide (a ≤ b)
  let start : Writer := {
    written := if plain = [] then [] else plain ++ ['-']
    length := plain.length }
  (Writer.writeCodes text firstCode ordered start).written

/-! ## Reading -/

structure Reader where
  text : List Char
  code : Nat := firstCode
  /-- Where the next character goes, counted on behind the end from the front for the next code. -/
  position : Nat := 0
  /-- The position before the number that is being read. -/
  start : Nat := 0
  weight : Nat := 1
  scale : Nat := 36
  bias : Nat := firstBias

/-- Takes a digit of a number; the last one of a number puts its character into the text. -/
def Reader.take (r : Reader) (digit : Nat) : Option Reader :=
  let position := r.position + digit * r.weight
  let least := threshold r.bias r.scale
  if digit < least then
    let length := r.text.length + 1
    let code := r.code + position / length
    let position' := position % length
    if code.isValidChar then
      some {
        text := r.text.take position' ++ Char.ofNat code :: r.text.drop position'
        code
        position := position' + 1
        start := position' + 1
        bias := adapt (position - r.start) length (r.start == 0) }
    else none
  else some { r with position, weight := r.weight * (36 - least), scale := r.scale + 36 }

/-- The text that was written as `code`, if that is how a text is written. -/
def decode? (code : List Char) : Option (List Char) := do
  let behind := (code.reverse.takeWhile (· ≠ '-')).reverse
  let plain := code.take (code.length - behind.length - 1)
  let numbers ← behind.mapM digitValue?
  let r ← numbers.foldlM Reader.take { text := plain }
  if r.weight = 1 ∧ r.scale = 36 then some r.text else none

end SchemaShape.Punycode
