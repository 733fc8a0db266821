import SchemaShape.Json.Basic
import SchemaShape.Text.Hex

/-! # JSON tokens

`Token.scan` cuts a text into tokens and skips blanks. Text that is no token gives `Token.bad`, and
nothing behind it is read.
-/

namespace SchemaShape
set_option autoImplicit false

namespace Json

inductive Token where
  | openBracket
  | closeBracket
  | openBrace
  | closeBrace
  | colon
  | comma
  | text (value : String)
  /-- A number, `true`, `false` or `null`. -/
  | scalar (value : Json)
  | bad
  deriving Inhabited

namespace Token

/-! ## Numbers -/

/-- An integer of at most 64 bits stays one; a number too large for a double is none. -/
def numberOf (negative : Bool) (whole fraction : List Char) (exponent : Option Int) :
    Option Number :=
  let digits := Nat.ofDigitChars 10 (whole ++ fraction) 0
  let integral := fraction.isEmpty && exponent.isNone
  if integral && !negative && decide (digits < Nat.pow 2 64) then some (.integer digits)
  else if integral && negative && decide (0 < digits ∧ digits ≤ Nat.pow 2 63) then
    some (.integer (-(digits : Int)))
  else
    (Binary64.ofScientific negative digits (exponent.getD 0 - fraction.length)).map .double

def sign : List Char → Bool × List Char
  | '-' :: rest => (true, rest)
  | rest => (false, rest)

/-- The digits behind a point; `none` if there are none. -/
def fraction : List Char → Option (List Char × List Char)
  | '.' :: rest =>
    match rest.takeWhile Char.isDigit with
    | [] => none
    | digits => some (digits, rest.dropWhile Char.isDigit)
  | rest => some ([], rest)

def exponentDigits (negative : Bool) (rest : List Char) : Option (Int × List Char) :=
  match rest.takeWhile Char.isDigit with
  | [] => none
  | digits =>
    let power : Int := (Nat.ofDigitChars 10 digits 0 : Nat)
    some (if negative then -power else power, rest.dropWhile Char.isDigit)

def exponent : List Char → Option (Option Int × List Char)
  | c :: rest =>
    if c = 'e' ∨ c = 'E' then
      match rest with
      | '+' :: rest => (exponentDigits false rest).map fun (power, rest) => (some power, rest)
      | '-' :: rest => (exponentDigits true rest).map fun (power, rest) => (some power, rest)
      | rest => (exponentDigits false rest).map fun (power, rest) => (some power, rest)
    else some (none, c :: rest)
  | [] => some (none, [])

/-- Digits without a zero in front, unless it is the only one. -/
def whole (text : List Char) : Option (List Char × List Char) :=
  match text.takeWhile Char.isDigit with
  | [] => none
  | '0' :: _ :: _ => none
  | digits => some (digits, text.dropWhile Char.isDigit)

def number? (text : List Char) : Option (Number × List Char) := do
  let (negative, rest) := sign text
  let (whole, rest) ← whole rest
  let (fraction, rest) ← fraction rest
  let (exponent, rest) ← exponent rest
  let value ← numberOf negative whole fraction exponent
  some (value, rest)

/-! ## Strings -/

/-- The 16-bit unit that four hexadecimal digits give. -/
def unit? (a b c d : Char) : Option Nat := do
  some (((← Text.hexValue? a) * 16 + (← Text.hexValue? b)) * 256 + (← Text.hexValue? c) * 16 + (← Text.hexValue? d))

def isHighHalf (unit : Nat) : Bool := 0xD800 ≤ unit && unit < 0xDC00

def isLowHalf (unit : Nat) : Bool := 0xDC00 ≤ unit && unit < 0xE000

def escaped? : Char → Option Char
  | '"' => some '"'
  | '\\' => some '\\'
  | '/' => some '/'
  | 'b' => some '\x08'
  | 'f' => some '\x0c'
  | 'n' => some '\n'
  | 'r' => some '\r'
  | 't' => some '\t'
  | _ => none

/-- A string from behind its opening quote to its closing quote, and what follows. Control
characters have to be escaped and surrogate halves have to come in pairs. -/
def string? (done : List Char) : List Char → Option (String × List Char)
  | [] => none
  | '"' :: rest => some (String.ofList done.reverse, rest)
  | '\\' :: 'u' :: a :: b :: c :: d :: rest =>
    match unit? a b c d with
    | none => none
    | some unit =>
      if isLowHalf unit then none
      else if isHighHalf unit then
        match rest with
        | '\\' :: 'u' :: e :: f :: g :: h :: rest =>
          match unit? e f g h with
          | none => none
          | some low =>
            if isLowHalf low then
              let value := 0x10000 + (unit - 0xD800) * 0x400 + (low - 0xDC00)
              string? (Char.ofNat value :: done) rest
            else none
        | _ => none
      else string? (Char.ofNat unit :: done) rest
  | '\\' :: c :: rest =>
    match escaped? c with
    | none => none
    | some c => string? (c :: done) rest
  | c :: rest => if c.toNat < 0x20 ∨ c = '\\' then none else string? (c :: done) rest

/-! ## Each token leaves less text -/

theorem dropWhile_length_le (p : Char → Bool) (text : List Char) :
    (text.dropWhile p).length ≤ text.length :=
  (List.dropWhile_sublist p).length_le

theorem sign_length (text : List Char) : (sign text).2.length ≤ text.length := by
  unfold sign
  split
  · exact Nat.le_succ _
  · exact Nat.le_refl _

theorem fraction_length {text digits rest : List Char} (h : fraction text = some (digits, rest)) :
    rest.length ≤ text.length := by
  unfold fraction at h
  split at h
  · split at h
    · simp at h
    · simp only [Option.some.injEq, Prod.mk.injEq] at h
      rw [← h.2]
      exact Nat.le_succ_of_le (dropWhile_length_le _ _)
  · simp only [Option.some.injEq, Prod.mk.injEq] at h
    exact Nat.le_of_eq (congrArg List.length h.2.symm)

theorem exponentDigits_length {negative : Bool} {text rest : List Char} {power : Int}
    (h : exponentDigits negative text = some (power, rest)) : rest.length ≤ text.length := by
  unfold exponentDigits at h
  split at h
  · simp at h
  · simp only [Option.some.injEq, Prod.mk.injEq] at h
    rw [← h.2]
    exact dropWhile_length_le _ _

theorem exponent_length {text rest : List Char} {power : Option Int}
    (h : exponent text = some (power, rest)) : rest.length ≤ text.length := by
  unfold exponent at h
  split at h
  · split at h
    · split at h <;>
      · obtain ⟨⟨p, r⟩, hr, he⟩ := Option.map_eq_some_iff.1 h
        simp only [Prod.mk.injEq] at he
        have hl := exponentDigits_length hr
        rw [← he.2]
        simp only [List.length_cons]
        omega
    · simp only [Option.some.injEq, Prod.mk.injEq] at h
      exact Nat.le_of_eq (congrArg List.length h.2.symm)
  · simp only [Option.some.injEq, Prod.mk.injEq] at h
    exact Nat.le_of_eq (congrArg List.length h.2.symm)

theorem whole_length {text digits rest : List Char} (h : whole text = some (digits, rest)) :
    rest.length < text.length := by
  unfold whole at h
  split at h
  · simp at h
  · simp at h
  · rename_i hne _
    simp only [Option.some.injEq, Prod.mk.injEq] at h
    rw [← h.2]
    have hs := congrArg List.length (List.takeWhile_append_dropWhile (p := Char.isDigit) (l := text))
    rw [List.length_append] at hs
    have hp : 0 < (text.takeWhile Char.isDigit).length := List.length_pos_iff.2 hne
    omega

theorem number?_length {text rest : List Char} {value : Number}
    (h : number? text = some (value, rest)) : rest.length < text.length := by
  unfold number? at h
  simp only [Option.bind_eq_bind, Option.bind_eq_some_iff, Prod.exists] at h
  obtain ⟨w, r₁, h₁, f, r₂, h₂, e, r₃, h₃, v, -, h₄⟩ := h
  simp only [Option.some.injEq, Prod.mk.injEq] at h₄
  have l₀ := sign_length text
  have l₁ := whole_length h₁
  have l₂ := fraction_length h₂
  have l₃ := exponent_length h₃
  rw [← h₄.2]
  omega

theorem string?_length {done text rest : List Char} {value : String}
    (h : string? done text = some (value, rest)) : rest.length < text.length := by
  fun_induction string? done text with
  | case2 done r =>
    simp only [Option.some.injEq, Prod.mk.injEq] at h
    rw [h.2]
    exact Nat.lt_succ_self _
  | case6 =>
    rename_i ih
    exact Nat.lt_add_right 12 (ih h)
  | case9 =>
    rename_i ih
    exact Nat.lt_add_right 6 (ih h)
  | _ => grind

/-! ## Scanning -/

def isBlank (c : Char) : Bool := c == ' ' || c == '\n' || c == '\t' || c == '\r'

/-- The token that a character is on its own. -/
def punctuation? : Char → Option Token
  | '[' => some openBracket
  | ']' => some closeBracket
  | '\x7b' => some openBrace
  | '\x7d' => some closeBrace
  | ':' => some colon
  | ',' => some comma
  | _ => none

/-- The literal words, by their rest behind the first letter. -/
def word? : List Char → Option (Json × List Char)
  | 't' :: 'r' :: 'u' :: 'e' :: rest => some (.bool true, rest)
  | 'f' :: 'a' :: 'l' :: 's' :: 'e' :: rest => some (.bool false, rest)
  | 'n' :: 'u' :: 'l' :: 'l' :: rest => some (.null, rest)
  | _ => none

theorem word?_length {text rest : List Char} {value : Json} (h : word? text = some (value, rest)) :
    rest.length < text.length := by
  unfold word? at h
  split at h <;> grind

/-- The token at the front of a text that does not start with a blank, and what follows it. -/
def next (c : Char) (rest : List Char) : Option (Token × List Char) :=
  match punctuation? c with
  | some token => some (token, rest)
  | none =>
    if c = '"' then (string? [] rest).map fun (value, rest) => (text value, rest)
    else
      match word? (c :: rest) with
      | some (value, rest) => some (scalar value, rest)
      | none => (number? (c :: rest)).map fun (value, rest) => (scalar (.number value), rest)

theorem next_length {c : Char} {more rest : List Char} {token : Token}
    (h : next c more = some (token, rest)) : rest.length < (c :: more).length := by
  unfold next at h
  split at h
  · simp only [Option.some.injEq, Prod.mk.injEq] at h
    rw [h.2]
    exact Nat.lt_succ_self _
  · split at h
    · obtain ⟨⟨v, r⟩, hr, he⟩ := Option.map_eq_some_iff.1 h
      simp only [Prod.mk.injEq] at he
      rw [← he.2]
      exact Nat.lt_succ_of_lt (string?_length hr)
    · split at h
      · rename_i hw
        simp only [Option.some.injEq, Prod.mk.injEq] at h
        rw [← h.2]
        exact word?_length hw
      · obtain ⟨⟨v, r⟩, hr, he⟩ := Option.map_eq_some_iff.1 h
        simp only [Prod.mk.injEq] at he
        rw [← he.2]
        exact number?_length hr

def scan : List Char → List Token
  | [] => []
  | c :: rest =>
    if isBlank c then scan rest
    else
      match _h : next c rest with
      | none => [bad]
      | some (token, more) => token :: scan more
termination_by text => text.length
decreasing_by
  · exact Nat.lt_succ_self _
  · exact next_length _h

end Token

end Json

end SchemaShape
