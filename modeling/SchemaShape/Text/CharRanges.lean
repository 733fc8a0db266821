/-! # Ranges of characters

Classes of characters are given as lists of code point ranges, both ends included.
-/

namespace SchemaShape.Text
set_option autoImplicit false

def inRanges (ranges : List (Nat × Nat)) (c : Char) : Bool :=
  ranges.any fun (first, last) => first ≤ c.toNat && c.toNat ≤ last

end SchemaShape.Text
