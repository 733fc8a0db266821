/-! # UTF-8

`Utf8.encode` gives the bytes of a text. `Utf8.decode` reads bytes back and refuses what is not
UTF-8: a failure tells where the first bad sequence starts and how many of its bytes could have
belonged to a character, or that the bytes end within a character.
-/

namespace SchemaShape.Text.Utf8
set_option autoImplicit false

/-! ## Encoding -/

def encodeChar (c : Char) : List Nat :=
  let n := c.toNat
  if n < 0x80 then [n]
  else if n < 0x800 then [0xC0 + n / 0x40, 0x80 + n % 0x40]
  else if n < 0x10000 then [0xE0 + n / 0x1000, 0x80 + n / 0x40 % 0x40, 0x80 + n % 0x40]
  else
    [0xF0 + n / 0x40000, 0x80 + n / 0x1000 % 0x40, 0x80 + n / 0x40 % 0x40, 0x80 + n % 0x40]

def encode (text : List Char) : List Nat :=
  text.flatMap encodeChar

/-! ## Decoding -/

inductive Failure where
  /-- `length` bytes from `start` on begin no character. -/
  | invalid (length start : Nat)
  /-- The bytes from `start` on begin a character and end before it does. -/
  | incomplete (start : Nat)
  deriving DecidableEq, Repr

def Failure.message : Failure → String
  | invalid length start =>
    "invalid utf-8 sequence of " ++ toString length ++ " bytes from index " ++ toString start
  | incomplete start => "incomplete utf-8 byte sequence from index " ++ toString start

def isTail (b : Nat) : Bool := 0x80 ≤ b && b ≤ 0xBF

/-- Whether `b` may follow the first byte of a sequence of three or four: this leaves out overlong
forms, surrogates and numbers that are too large. -/
def maySecond (first b : Nat) : Bool :=
  if first = 0xE0 then 0xA0 ≤ b && b ≤ 0xBF
  else if first = 0xED then 0x80 ≤ b && b ≤ 0x9F
  else if first = 0xF0 then 0x90 ≤ b && b ≤ 0xBF
  else if first = 0xF4 then 0x80 ≤ b && b ≤ 0x8F
  else isTail b

/-- The number of bytes that a character has with this first byte. -/
def lengthOf? (first : Nat) : Option Nat :=
  if first < 0x80 then some 1
  else if 0xC2 ≤ first ∧ first ≤ 0xDF then some 2
  else if 0xE0 ≤ first ∧ first ≤ 0xEF then some 3
  else if 0xF0 ≤ first ∧ first ≤ 0xF4 then some 4
  else none

def charOf (lead : Nat) (tail : List Nat) : Char :=
  Char.ofNat (tail.foldl (fun n b => n * 0x40 + (b - 0x80)) lead)

/-- The text of `bytes`, whose first byte stands at `start`. -/
def decodeFrom (start : Nat) : List Nat → Except Failure (List Char)
  | [] => .ok []
  | a :: rest =>
    match lengthOf? a, rest with
    | none, _ => .error (.invalid 1 start)
    | some 1, rest => (decodeFrom (start + 1) rest).map (Char.ofNat a :: ·)
    | some _, [] => .error (.incomplete start)
    | some 2, b :: rest =>
      if isTail b then (decodeFrom (start + 2) rest).map (charOf (a - 0xC0) [b] :: ·)
      else .error (.invalid 1 start)
    | some 3, b :: rest =>
      if !maySecond a b then .error (.invalid 1 start)
      else match rest with
        | [] => .error (.incomplete start)
        | c :: rest =>
          if isTail c then (decodeFrom (start + 3) rest).map (charOf (a - 0xE0) [b, c] :: ·)
          else .error (.invalid 2 start)
    | some _, b :: rest =>
      if !maySecond a b then .error (.invalid 1 start)
      else match rest with
        | [] => .error (.incomplete start)
        | c :: rest =>
          if !isTail c then .error (.invalid 2 start)
          else match rest with
            | [] => .error (.incomplete start)
            | d :: rest =>
              if isTail d then (decodeFrom (start + 4) rest).map (charOf (a - 0xF0) [b, c, d] :: ·)
              else .error (.invalid 3 start)

def decode (bytes : List Nat) : Except Failure (List Char) :=
  decodeFrom 0 bytes

end SchemaShape.Text.Utf8
