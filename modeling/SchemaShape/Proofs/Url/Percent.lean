import SchemaShape.Proofs.Url.Host

/-! # What percent-encoded texts read as

A text is read as the bytes that its escapes stand for and those of its other characters, and these as
UTF-8. Only nothing reads as nothing, and a slash in front stays there. In ASCII, which fragments are printed
in, a text reads as itself exactly if there are no escapes in it: there are no more characters than bytes,
and an escape is three characters for one byte.
-/

namespace SchemaShape
set_option autoImplicit false

/-! ## Bytes and characters -/

namespace Text.Utf8

theorem map_cons_ne_nil {ε α : Type} (result : Except ε (List α)) (x : α) :
    result.map (x :: ·) ≠ .ok [] := by
  cases result <;> nofun

theorem decodeFrom_ne_nil (start b : Nat) (rest : List Nat) :
    decodeFrom start (b :: rest) ≠ .ok [] := by
  rw [decodeFrom.eq_def]
  split
  · next heq => cases heq
  · repeat' split
    all_goals first
      | exact map_cons_ne_nil _ _
      | exact fun h => nomatch h

theorem encodeChar_ne_nil (c : Char) : ∃ b bytes, encodeChar c = b :: bytes := by
  simp only [encodeChar]
  repeat' split
  all_goals exact ⟨_, _, rfl⟩

theorem decodeFrom_ascii {b : Nat} (hb : b < 0x80) (start : Nat) (rest : List Nat) :
    decodeFrom start (b :: rest) = (decodeFrom (start + 1) rest).map (Char.ofNat b :: ·) := by
  have hlength : lengthOf? b = some 1 := by rw [lengthOf?, if_pos hb]
  rw [decodeFrom.eq_def]
  simp only [hlength]

theorem encodeChar_ascii {c : Char} (h : c.toNat < 0x80) : encodeChar c = [c.toNat] := by
  rw [encodeChar, if_pos h]

theorem decodeFrom_encode_ascii {text : List Char} (h : ∀ c ∈ text, c.toNat < 0x80) (start : Nat) :
    decodeFrom start (encode text) = .ok text := by
  induction text generalizing start with
  | nil => rfl
  | cons c rest ih =>
    have hc := h c (List.mem_cons_self ..)
    rw [encode, List.flatMap_cons, encodeChar_ascii hc, List.singleton_append, decodeFrom_ascii hc,
      ← encode, ih fun d mem => h d (List.mem_cons_of_mem _ mem), Except.map, Char.ofNat_toNat]

theorem length_of_map_cons {result : Except Failure (List Char)} {c : Char} {text : List Char}
    {bytes whole : List Nat} (h : result.map (c :: ·) = .ok text)
    (hrest : ∀ {rest}, result = .ok rest → rest.length ≤ bytes.length)
    (hlt : bytes.length < whole.length) : text.length ≤ whole.length := by
  cases result with
  | error e => cases h
  | ok rest =>
    cases h
    exact Nat.lt_of_le_of_lt (hrest rfl) hlt

theorem length_decodeFrom {start : Nat} {bytes : List Nat} {text : List Char}
    (h : decodeFrom start bytes = .ok text) : text.length ≤ bytes.length := by
  fun_induction decodeFrom start bytes generalizing text
  case case1 =>
    cases h
    exact Nat.le_refl _
  case case3 ih => exact length_of_map_cons h ih (by simp)
  case case5 ih => exact length_of_map_cons h ih (by simp only [List.length_cons]; omega)
  case case9 ih => exact length_of_map_cons h ih (by simp only [List.length_cons]; omega)
  case case15 ih => exact length_of_map_cons h ih (by simp only [List.length_cons]; omega)
  all_goals cases h

end Text.Utf8

/-! ## Escapes -/

namespace Percent

theorem decodeBytes_cons (c : Char) (rest : List Char) :
    ∃ b bytes, decodeBytes (c :: rest) = b :: bytes := by
  rw [decodeBytes.eq_def]
  split
  · split
    · exact ⟨_, _, rfl⟩
    · exact ⟨_, _, rfl⟩
  · next heq =>
    cases heq
    obtain ⟨b, bytes, hbytes⟩ := Text.Utf8.encodeChar_ne_nil c
    rw [hbytes]
    exact ⟨_, _, rfl⟩
  · next heq => cases heq

theorem eq_nil_of_decode {text : List Char} (h : decode text = .ok []) : text = [] := by
  cases text with
  | nil => rfl
  | cons c rest =>
    obtain ⟨b, bytes, hbytes⟩ := decodeBytes_cons c rest
    rw [decode, hbytes] at h
    exact absurd h (Text.Utf8.decodeFrom_ne_nil 0 b bytes)

theorem decode_slash {rest text : List Char} (h : decode ('/' :: rest) = .ok text) :
    ∃ more, text = '/' :: more := by
  have hbytes : decodeBytes ('/' :: rest) = 0x2F :: decodeBytes rest := by
    rw [decodeBytes]
    · rfl
    · rintro _ _ _ ⟨⟩
  rw [decode, hbytes, Text.Utf8.decode, Text.Utf8.decodeFrom_ascii (by decide)] at h
  cases hrest : Text.Utf8.decodeFrom (0 + 1) (decodeBytes rest) with
  | error e =>
    rw [hrest] at h
    cases h
  | ok more =>
    rw [hrest] at h
    cases h
    exact ⟨more, rfl⟩

/-- Whether a percent sign with two digits behind it stands for a byte. -/
def hasEscape : List Char → Bool
  | '%' :: a :: b :: rest =>
    (Text.hexValue? a).isSome && (Text.hexValue? b).isSome || hasEscape (a :: b :: rest)
  | _ :: rest => hasEscape rest
  | [] => false

theorem decodeBytes_of_unescaped {text : List Char} (h : hasEscape text = false) :
    decodeBytes text = Text.Utf8.encode text := by
  fun_induction decodeBytes text
  case case1 a b rest high low ha hb _ =>
    rw [hasEscape, ha, hb] at h
    cases h
  case case2 a b rest hnone ih =>
    rw [hasEscape, Bool.or_eq_false_iff] at h
    rw [ih h.2]
    rfl
  case case3 c rest hno ih =>
    rw [hasEscape] at h
    · rw [ih h]
      rfl
    · exact hno
  case case4 => rfl

/-- In an ASCII text every escape takes three characters for one byte. -/
theorem length_decodeBytes {text : List Char} (hascii : ∀ c ∈ text, c.toNat < 0x80) :
    (decodeBytes text).length ≤ text.length ∧
      (hasEscape text = true → (decodeBytes text).length < text.length) := by
  fun_induction decodeBytes text
  case case1 a b rest high low ha hb ih =>
    have hrest := (ih fun c mem => hascii c (by simp [mem])).1
    simp only [List.length_cons]
    omega
  case case2 a b rest hnone ih =>
    obtain ⟨hle, hlt⟩ := ih fun c mem => hascii c (List.mem_cons_of_mem _ mem)
    simp only [List.length_cons] at hle hlt ⊢
    refine ⟨by omega, fun hescape => ?_⟩
    rw [hasEscape, Bool.or_eq_true, Bool.and_eq_true, Option.isSome_iff_exists,
      Option.isSome_iff_exists] at hescape
    rcases hescape with ⟨⟨high, ha⟩, low, hb⟩ | hescape
    · exact (hnone high low ha hb).elim
    · have hshorter := hlt hescape
      omega
  case case3 c rest hno ih =>
    obtain ⟨hle, hlt⟩ := ih fun c mem => hascii c (List.mem_cons_of_mem _ mem)
    rw [Text.Utf8.encodeChar_ascii (hascii c (List.mem_cons_self ..)), List.singleton_append,
      List.length_cons, List.length_cons]
    refine ⟨by omega, fun hescape => ?_⟩
    rw [hasEscape] at hescape
    · have hshorter := hlt hescape
      omega
    · exact hno
  case case4 => exact ⟨Nat.le_refl _, nofun⟩

theorem decode_eq_self {text : List Char} (hascii : ∀ c ∈ text, c.toNat < 0x80) :
    decode text = .ok text ↔ hasEscape text = false := by
  constructor
  · intro h
    by_contra hescape
    have hbytes := (length_decodeBytes hascii).2 (eq_true_of_ne_false hescape)
    have hchars := Text.Utf8.length_decodeFrom h
    omega
  · intro h
    rw [decode, decodeBytes_of_unescaped h]
    exact Text.Utf8.decodeFrom_encode_ascii hascii 0

theorem ascii_encode {text : List Char} : ∀ c ∈ encode inFragment text, c.toNat < 0x80 := by
  have hdigits : ∀ digit < 16, (Nat.digitChar digit).toUpper.toNat < 0x80 := by decide
  intro c mem
  obtain ⟨d, -, hmem⟩ := List.mem_flatMap.mp mem
  rw [encodeChar] at hmem
  split at hmem
  · obtain ⟨b, -, hbyte⟩ := List.mem_flatMap.mp hmem
    rcases List.mem_cons.mp hbyte with rfl | hdigit
    · decide
    · obtain ⟨plain, hplain, rfl⟩ := List.mem_map.mp hdigit
      obtain ⟨digit, hlt, rfl⟩ := mem_hexDigits hplain
      exact hdigits digit hlt
  · next hsafe =>
    obtain rfl := List.mem_singleton.mp hmem
    simp only [inFragment, isControl, Bool.or_eq_true, decide_eq_true_eq, not_or] at hsafe
    omega

end Percent

end SchemaShape
