import SchemaShape.Decimal.Binary64

/-! # Shortest decimal text

The decimal of a double is the one with the fewest digits that reads back as the same double and,
of those, the nearest to it. `Binary64.decimal` finds it: for one digit, two digits and so on it
tries the two neighbours of the double on that decimal grid. `Decimal.text` writes a decimal in a
`Layout`, which says where positional notation ends and whether a whole number keeps `.0`.
-/

namespace SchemaShape
set_option autoImplicit false

structure Decimal where
  digits : Nat
  exponent : Int
  deriving DecidableEq, Repr

/-! ## The nearest short decimal -/

namespace Binary64

structure Quotient where
  numerator : Nat
  denominator : Nat

def scaled (numerator : Nat) (exponent : Int) : Quotient :=
  if 0 ≤ exponent then ⟨numerator * Nat.pow 2 exponent.toNat, 1⟩
  else ⟨numerator, Nat.pow 2 (-exponent).toNat⟩

def compareDecimal (digits : Nat) (exponent : Int) (q : Quotient) : Ordering :=
  if 0 ≤ exponent then compare (digits * Nat.pow 10 exponent.toNat * q.denominator) q.numerator
  else compare (digits * q.denominator) (q.numerator * Nat.pow 10 (-exponent).toNat)

/-- The numbers that round to a double, from halfway to the double below it up to halfway to the
double above it; both ends round to it exactly if its significand is even. -/
def rounds (x : Binary64) (digits : Nat) (exponent : Int) : Bool :=
  let narrow := x.significand = Nat.pow 2 52 ∧ -1074 < x.exponent
  let low := if narrow then scaled (4 * x.significand - 1) (x.exponent - 2)
    else scaled (2 * x.significand - 1) (x.exponent - 1)
  let high := scaled (2 * x.significand + 1) (x.exponent - 1)
  let even := x.significand % 2 = 0
  match compareDecimal digits exponent low, compareDecimal digits exponent high with
  | .gt, .lt => true
  | .eq, _ => even
  | _, .eq => even
  | _, _ => false

/-- The greatest `n` with `10 ^ n ≤ q`, found by stepping up or down from a nearby guess. -/
def magnitude (q : Quotient) : Int :=
  let bits : Int := (q.numerator.log2 : Int) - (q.denominator.log2 : Int)
  let guess : Int := (bits - 1) * 30103 / 100000 - 1
  let steps := (List.range 4).takeWhile fun (n : Nat) => compareDecimal 1 (guess + 1 + (n : Int)) q != .gt
  guess + steps.length

/-- The multiple of `10 ^ exponent` at or below `q`. -/
def gridBelow (q : Quotient) (exponent : Int) : Nat :=
  if 0 ≤ exponent then q.numerator / (q.denominator * Nat.pow 10 exponent.toNat)
  else q.numerator * Nat.pow 10 (-exponent).toNat / q.denominator

/-- The neighbour of `x` on the grid of `10 ^ exponent` that reads back as `x`; of two, the nearer,
and of two equally near the even one. -/
def neighbour? (x : Binary64) (q : Quotient) (exponent : Int) : Option Decimal :=
  let below := gridBelow q exponent
  let above := below + 1
  match x.rounds below exponent, x.rounds above exponent with
  | true, true =>
    match compareDecimal (below + above) exponent ⟨2 * q.numerator, q.denominator⟩ with
    | .gt => some ⟨below, exponent⟩
    | .lt => some ⟨above, exponent⟩
    | .eq => some ⟨if below % 2 = 0 then below else above, exponent⟩
  | true, false => some ⟨below, exponent⟩
  | false, true => some ⟨above, exponent⟩
  | false, false => none

/-- The decimal of the magnitude of `x`, which needs at most seventeen digits. -/
def decimal (x : Binary64) : Decimal :=
  if x.significand = 0 then ⟨0, 0⟩
  else
    let q := scaled x.significand x.exponent
    let top := magnitude q
    ((List.range 17).findSome? fun (n : Nat) => x.neighbour? q (top - (n : Int))).getD ⟨0, 0⟩

end Binary64

/-! ## Layouts -/

/-- How a decimal is written. A number of magnitude `10 ^ n` (its first digit stands for so much)
is positional for `least ≤ n < limit`; without bounds every number is. -/
structure Layout where
  bounds : Option (Int × Int)
  /-- Written behind a whole number in positional notation. -/
  wholeMark : String

namespace Decimal

def stripped (d : Decimal) : List Char × Int :=
  let digits := Nat.toDigits 10 d.digits
  let kept := (digits.reverse.dropWhile (· == '0')).reverse
  if kept = [] then (['0'], 0) else (kept, d.exponent + (digits.length - kept.length : Nat))

/-- Digits and point, with zeros filled in where the digits do not reach the point. -/
def positional (wholeMark : List Char) (digits : List Char) (exponent : Int) : List Char :=
  if 0 ≤ exponent then digits ++ List.replicate exponent.toNat '0' ++ wholeMark
  else
    let places := (-exponent).toNat
    if places < digits.length then
      digits.take (digits.length - places) ++ '.' :: digits.drop (digits.length - places)
    else '0' :: '.' :: List.replicate (places - digits.length) '0' ++ digits

/-- One digit, the others behind a point, and the power of ten with its sign. -/
def withExponent (digits : List Char) (power : Int) : List Char :=
  let fraction := match digits.drop 1 with
    | [] => []
    | rest => '.' :: rest
  let sign := if power < 0 then '-' else '+'
  digits.take 1 ++ fraction ++ 'e' :: sign :: Nat.toDigits 10 power.natAbs

def text (layout : Layout) (d : Decimal) : List Char :=
  let (digits, exponent) := d.stripped
  let power := exponent + digits.length - 1
  let fits := match layout.bounds with
    | none => true
    | some (least, limit) => decide (least ≤ power ∧ power < limit)
  if fits then positional layout.wholeMark.toList digits exponent
  else withExponent digits power

end Decimal

/-- A minus sign, also for a negative zero, and the shortest decimal. -/
def Binary64.text (layout : Layout) (x : Binary64) : String :=
  String.ofList ((if x.negative then ['-'] else []) ++ x.decimal.text layout)

end SchemaShape
