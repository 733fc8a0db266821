import SchemaShape.Json.Text
import SchemaShape.Json.Token

/-! # Strings read back from their quoted texts

A string between quotes is read back by the tokens' reader, whatever follows it. So two texts that
start with quoted strings and are equal start with the same string, whichever characters it has.
-/

namespace SchemaShape.Json
set_option autoImplicit false

/-! ## Characters -/

theorem string?_unitEscape {unit : Nat} (h : unit < 0x20) (done rest : List Char) :
    Token.string? done (unitEscape unit ++ rest) =
      Token.string? (Char.ofNat unit :: done) rest := by
  have hdigits : ∀ unit < 0x20,
      Text.hexDigits 4 unit =
        ['0', '0', Nat.digitChar (unit / 16), Nat.digitChar (unit % 16)] ∧
      Token.unit? '0' '0' (Nat.digitChar (unit / 16)) (Nat.digitChar (unit % 16)) = some unit ∧
      Token.isLowHalf unit = false ∧ Token.isHighHalf unit = false := by
    decide +kernel
  obtain ⟨htext, hunit, hlow, hhigh⟩ := hdigits unit h
  simp only [unitEscape, htext, List.cons_append, List.nil_append, Token.string?, hunit, hlow,
    hhigh, Bool.false_eq_true, if_false]

/-- Each of these has an escape of two characters. -/
def escapable : List Char := ['"', '\\', '\x08', '\x0c', '\n', '\r', '\t']

theorem string?_quotedChar (c : Char) (done rest : List Char) :
    Token.string? done (quotedChar c ++ rest) = Token.string? (c :: done) rest := by
  by_cases hshort : c ∈ escapable
  · simp only [escapable, List.mem_cons, List.not_mem_nil, or_false] at hshort
    rcases hshort with rfl | rfl | rfl | rfl | rfl | rfl | rfl <;> rfl
  · simp only [escapable, List.mem_cons, List.not_mem_nil, or_false, not_or] at hshort
    by_cases hcontrol : c.toNat < 0x20
    · have htext : quotedChar c = unitEscape c.toNat := by simp [quotedChar, hshort, hcontrol]
      rw [htext, string?_unitEscape hcontrol, Char.ofNat_toNat]
    · have htext : quotedChar c = [c] := by simp [quotedChar, hshort, hcontrol]
      rw [htext]
      simp [Token.string?, hshort, hcontrol]

/-! ## Strings -/

theorem string?_flatMap (text done rest : List Char) :
    Token.string? done (text.flatMap quotedChar ++ '"' :: rest) =
      some (String.ofList (done.reverse ++ text), rest) := by
  induction text generalizing done with
  | nil => simp [Token.string?]
  | cons c text ih =>
    rw [List.flatMap_cons, List.append_assoc, string?_quotedChar, ih, List.reverse_cons,
      List.append_assoc, List.singleton_append]

/-- What is quoted is read back from behind the opening quote, and no character of the rest is. -/
theorem string?_quoted (s : String) (rest : List Char) :
    Token.string? [] ((quoted s ++ rest).tail) = some (s, rest) := by
  have htext : (quoted s ++ rest).tail = s.toList.flatMap quotedChar ++ '"' :: rest := by
    rw [quoted, List.cons_append, List.cons_append, List.tail_cons, List.append_assoc,
      List.singleton_append]
  rw [htext, string?_flatMap, List.reverse_nil, List.nil_append, String.ofList_toList]

theorem quoted_append_inj {s s' : String} {rest rest' : List Char}
    (h : quoted s ++ rest = quoted s' ++ rest') : s = s' ∧ rest = rest' := by
  have hread : some (s, rest) = some (s', rest') := by
    rw [← string?_quoted s rest, h, string?_quoted]
  injection hread with hpair
  exact Prod.mk.inj hpair

theorem head?_quoted_append (s : String) (rest : List Char) :
    (quoted s ++ rest).head? = some '"' :=
  rfl

end SchemaShape.Json
