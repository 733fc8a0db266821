import SchemaShape.Text.Case
import SchemaShape.Text.Letter
import SchemaShape.Text.Pieces
import SchemaShape.Text.Punycode
import SchemaShape.Url.Percent

/-! # Domain names

A domain name is labels between points. It is written in ASCII and lower case: a label with other
characters is written in Punycode behind `xn--`. Before that, letters are lowered, full width forms
become the ASCII characters they stand for and other full stops become points, and characters that
only guide the layout are left out. A label that is in Punycode already has to be what another label
is written as. Letters of the two directions do not mix in a label.

This is a part of what the standard for international names maps, given by the ranges below. There is
no normalisation: a letter and the accent behind it are not composed, and ligatures and other
compatibility forms stand for themselves. Joiners are never allowed, whatever stands around them.
-/

namespace SchemaShape.Domain
set_option autoImplicit false

/-- Characters that no domain of a URL may have. -/
def isForbidden (c : Char) : Bool :=
  c.toNat ≤ 0x20 || c.toNat == 0x7F || "%#/:<>?@[\\]^|".toList.contains c

/-! ## Other characters -/

def blanks : List (Nat × Nat) :=
  [(0xA0, 0xA0), (0x2000, 0x200A), (0x202F, 0x202F), (0x205F, 0x205F), (0x3000, 0x3000)]

def fullStops : List (Nat × Nat) := [(0x3002, 0x3002), (0xFF0E, 0xFF0E), (0xFF61, 0xFF61)]

/-- Soft hyphens, joiners of words, variation selectors and the like. -/
def leftOut : List (Nat × Nat) := [
  (0xAD, 0xAD), (0x34F, 0x34F), (0x115F, 0x1160), (0x17B4, 0x17B5), (0x180B, 0x180F),
  (0x200B, 0x200B), (0x2060, 0x2064), (0x206A, 0x206F), (0x3164, 0x3164), (0xFE00, 0xFE0F),
  (0xFEFF, 0xFEFF), (0xFFA0, 0xFFA0), (0x1BCA0, 0x1BCA3), (0x1D173, 0x1D17A), (0xE0100, 0xE01EF)]

/-- Controls, directions, private characters and codes that are no characters. -/
def disallowed : List (Nat × Nat) := [
  (0x80, 0x9F), (0x61C, 0x61C), (0x200C, 0x200F), (0x2028, 0x202E), (0x2065, 0x2069),
  (0xE000, 0xF8FF), (0xFDD0, 0xFDEF), (0xFFF0, 0xFFFF), (0x1FFFE, 0x1FFFF), (0x2FFFE, 0x2FFFF),
  (0x3FFFE, 0xE00FF), (0xE01F0, 0x10FFFF)]

/-- What a character becomes in a domain name; none if it is not allowed there. -/
def image? (c : Char) : Option (List Char) :=
  if Text.inRanges disallowed c || isForbidden c then none
  else if Text.inRanges blanks c then none
  else if Text.inRanges leftOut c then some []
  else if Text.inRanges fullStops c then some ['.']
  else if 0xFF01 ≤ c.toNat ∧ c.toNat ≤ 0xFF5E then
    let plain := (Char.ofNat (c.toNat - 0xFEE0)).toLower
    if isForbidden plain then none else some [plain]
  else some (Text.lower c)

/-! ## Labels -/

def isAscii (text : List Char) : Bool := text.all (·.toNat < 0x80)

/-- Scripts that are written from right to left. -/
def rightToLeft : List (Nat × Nat) :=
  [(0x590, 0x8FF), (0xFB1D, 0xFDFF), (0xFE70, 0xFEFE), (0x10800, 0x10FFF), (0x1E800, 0x1EFFF)]

/-- A label with letters from right to left starts with one and has no other letters. -/
def hasOneDirection (label : List Char) : Bool :=
  !label.any (Text.inRanges rightToLeft) ||
    (label.head?.any (Text.inRanges rightToLeft) &&
      label.all fun c => Text.inRanges rightToLeft c || !Text.isLetter c)

def codedPrefix : List Char := "xn--".toList

def isCoded (label : List Char) : Bool :=
  !isAscii label && hasOneDirection label && label.all fun c => image? c == some [c]

def labelToAscii? (label : List Char) : Option (List Char) :=
  match codedPrefix.isPrefixOf? label with
  | some code =>
    if isAscii code && (Punycode.decode? code).any isCoded then some label else none
  | none =>
    if isAscii label then some label
    else if hasOneDirection label then some (codedPrefix ++ Punycode.encode label)
    else none

def toAscii? (domain : List Char) : Option (List Char) := do
  let mapped ← domain.mapM image?
  let labels ← (Text.pieces '.' mapped.flatten).mapM labelToAscii?
  return ['.'].intercalate labels

end SchemaShape.Domain
