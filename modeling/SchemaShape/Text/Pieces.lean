/-! # Pieces of a text

The parts of a text between the separators in it. There is one more piece than separators, and the
pieces joined by the separator are the text again.
-/

namespace SchemaShape.Text
set_option autoImplicit false

def pieces (separator : Char) : List Char → List (List Char)
  | [] => [[]]
  | c :: rest =>
    if c = separator then [] :: pieces separator rest
    else match pieces separator rest with
      | [] => [[c]]
      | piece :: more => (c :: piece) :: more

theorem pieces_ne_nil (separator : Char) (text : List Char) : pieces separator text ≠ [] := by
  cases text with
  | nil => simp [pieces]
  | cons c rest =>
    simp only [pieces]
    split
    · simp
    · split <;> simp

theorem intercalate_pieces (separator : Char) (text : List Char) :
    [separator].intercalate (pieces separator text) = text := by
  induction text with
  | nil => rfl
  | cons c rest ih =>
    have ne := pieces_ne_nil separator rest
    simp only [pieces]
    split
    · next h =>
      subst h
      cases hp : pieces c rest with
      | nil => exact absurd hp ne
      | cons piece more =>
        rw [hp] at ih
        rw [List.intercalate_cons_cons, ih]
        rfl
    · cases hp : pieces separator rest with
      | nil => exact absurd hp ne
      | cons piece more =>
        rw [hp] at ih
        cases more with
        | nil => simpa using ih
        | cons next more =>
          rw [List.intercalate_cons_cons] at ih ⊢
          simp [← ih]

end SchemaShape.Text
