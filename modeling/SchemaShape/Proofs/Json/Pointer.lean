import SchemaShape.Json.Pointer

/-! # Pointers and their texts

A pointer is read back from its text, whatever characters its tokens have: a token holds no slash once it
is escaped, and escaping is undone from the left. A position is read back from its decimal digits.

So the text of a pointer leads to where the pointer leads.

The parts of a value stand in an order, that of the text: what the text has first comes first, and a part
comes before what is inside it.
-/

namespace SchemaShape
set_option autoImplicit false

/-! ## Texts cut into pieces -/

namespace Text

theorem pieces_append {separator : Char} {piece : List Char} (hfree : separator ∉ piece)
    (rest : List Char) :
    pieces separator (piece ++ separator :: rest) = piece :: pieces separator rest := by
  induction piece with
  | nil => rw [List.nil_append, pieces, if_pos rfl]
  | cons c more ih =>
    obtain ⟨hfirst, hmore⟩ := not_or.mp (mt List.mem_cons.mpr hfree)
    rw [List.cons_append, pieces, if_neg (Ne.symm hfirst), ih hmore]

theorem pieces_free {separator : Char} {piece : List Char} (hfree : separator ∉ piece) :
    pieces separator piece = [piece] := by
  induction piece with
  | nil => rfl
  | cons c more ih =>
    obtain ⟨hfirst, hmore⟩ := not_or.mp (mt List.mem_cons.mpr hfree)
    rw [pieces, if_neg (Ne.symm hfirst), ih hmore]

/-- Pieces without a separator are read back from the text that they make up. -/
theorem pieces_intercalate {separator : Char} {parts : List (List Char)} (hsome : parts ≠ [])
    (hfree : ∀ part ∈ parts, separator ∉ part) :
    pieces separator ([separator].intercalate parts) = parts := by
  induction parts with
  | nil => exact absurd rfl hsome
  | cons part rest ih =>
    rw [List.forall_mem_cons] at hfree
    cases rest with
    | nil => rw [List.intercalate_singleton, pieces_free hfree.1]
    | cons next more =>
      have hrest := ih (List.cons_ne_nil _ _) hfree.2
      rw [List.intercalate_cons_cons, List.append_assoc, List.singleton_append,
        pieces_append hfree.1, hrest]

theorem separator_not_mem_pieces {separator : Char} {text piece : List Char}
    (h : piece ∈ pieces separator text) : separator ∉ piece := by
  induction text generalizing piece with
  | nil =>
    obtain rfl := List.mem_singleton.mp h
    exact List.not_mem_nil
  | cons c rest ih =>
    rw [pieces] at h
    split at h
    · rcases List.mem_cons.mp h with rfl | hrest
      · exact List.not_mem_nil
      · exact ih hrest
    · next hfirst =>
      split at h
      · obtain rfl := List.mem_singleton.mp h
        exact fun mem => hfirst (List.mem_singleton.mp mem).symm
      · next front more hpieces =>
        rw [hpieces] at ih
        rcases List.mem_cons.mp h with rfl | hmore
        · intro mem
          rcases List.mem_cons.mp mem with heq | hmem
          · exact hfirst heq.symm
          · exact ih (List.mem_cons_self ..) hmem
        · exact ih (List.mem_cons_of_mem _ hmore)

end Text

namespace Pointer

/-! ## Tokens -/

theorem unescape_cons {c : Char} (h : c ≠ '~') (rest : List Char) :
    unescape (c :: rest) = c :: unescape rest := by
  rw [unescape]
  · rintro _ rfl
    exact absurd rfl h
  · rintro _ rfl
    exact absurd rfl h

theorem unescape_escape (token : List Char) : unescape (escape token) = token := by
  induction token with
  | nil => rfl
  | cons c rest ih =>
    rw [escape, List.flatMap_cons, ← escape, escapeChar]
    split
    · next htilde =>
      subst htilde
      exact congrArg ('~' :: ·) ih
    · next htilde =>
      split
      · next hslash =>
        subst hslash
        exact congrArg ('/' :: ·) ih
      · rw [List.singleton_append, unescape_cons htilde, ih]

theorem slash_not_mem_escape (token : List Char) : '/' ∉ escape token := by
  rw [escape, List.mem_flatMap]
  rintro ⟨c, -, hmem⟩
  rw [escapeChar] at hmem
  split at hmem
  · simp at hmem
  · split at hmem
    · simp at hmem
    · next hslash => exact hslash (List.mem_singleton.mp hmem).symm

/-! ## Whole pointers -/

theorem toList_text (pointer : Pointer) :
    (text pointer).toList = pointer.flatMap fun token => '/' :: escape token.toList :=
  String.toList_ofList

theorem pieces_text (token : String) (rest : Pointer) :
    Text.pieces '/' (escape token.toList ++ (text rest).toList) =
      (token :: rest).map fun token => escape token.toList := by
  induction rest generalizing token with
  | nil =>
    rw [toList_text, List.flatMap_nil, List.append_nil]
    exact Text.pieces_free (slash_not_mem_escape _)
  | cons next more ih =>
    rw [toList_text, List.flatMap_cons, ← toList_text, List.cons_append,
      Text.pieces_append (slash_not_mem_escape _), ih]
    rfl

theorem ofText?_text (pointer : Pointer) : ofText? (text pointer) = some pointer := by
  cases pointer with
  | nil => rfl
  | cons token rest =>
    have htext : (text (token :: rest)).toList =
        '/' :: (escape token.toList ++ (text rest).toList) := by
      rw [toList_text, List.flatMap_cons, ← toList_text, List.cons_append]
    have htokens : (token :: rest).map (fun token => String.ofList (unescape (escape token.toList))) =
        token :: rest := by
      simp only [unescape_escape, String.ofList_toList, List.map_id']
    rw [ofText?, htext]
    simp only [pieces_text, List.map_map, Option.some.injEq]
    exact htokens

/-! ## Positions -/

theorem head?_toDigits {n : Nat} (h : 0 < n) : (Nat.toDigits 10 n).head? ≠ some '0' := by
  induction n using Nat.strongRecOn with
  | ind n ih =>
    rw [Nat.toDigits_eq_if (by decide)]
    split
    · next hsmall =>
      have hdigits : ∀ n < 10, 0 < n → [n.digitChar].head? ≠ some '0' := by decide
      exact hdigits n hsmall h
    · next hlarge =>
      have hfront := ih (n / 10) (by omega) (by omega)
      have hnonempty : Nat.toDigits 10 (n / 10) ≠ [] := Nat.toDigits_ne_nil
      obtain ⟨c, rest, hdigits⟩ := List.exists_cons_of_ne_nil hnonempty
      rw [hdigits] at hfront ⊢
      exact hfront

theorem index?_toString (n : Nat) : index? (toString n) = some n := by
  have hchars : (toString n).toList = Nat.toDigits 10 n := by
    rw [Nat.toString_eq_ofList_toDigits, String.toList_ofList]
  rw [index?, hchars]
  rcases Nat.eq_zero_or_pos n with rfl | hpos
  · rfl
  · have hhead := head?_toDigits hpos
    have hvalue : Nat.ofDigitChars 10 (Nat.toDigits 10 n) 0 = n := Nat.ofDigitChars_ten_toDigits
    have hdigits : (Nat.toDigits 10 n).all Char.isDigit = true :=
      List.all_eq_true.mpr fun c mem => Nat.isDigit_of_mem_toDigits (by decide) (by decide) mem
    split
    · next hnil => exact absurd hnil Nat.toDigits_ne_nil
    · next hzero => exact absurd (hzero ▸ rfl) hhead
    · next hzero => exact absurd (hzero ▸ rfl) hhead
    · rw [if_pos hdigits, hvalue]

theorem exists_digitChar {c : Char} (h : c.isDigit = true) : ∃ digit < 10, c = Nat.digitChar digit := by
  have hdigits : ∀ n < 58, 48 ≤ n → ∃ digit < 10, Char.ofNat n = Nat.digitChar digit := by decide
  simp only [Char.isDigit, Bool.and_eq_true, decide_eq_true_eq, ge_iff_le] at h
  have hle : 48 ≤ c.toNat ∧ c.toNat ≤ 57 := h
  obtain ⟨digit, hlt, hdigit⟩ := hdigits c.toNat (by omega) hle.1
  exact ⟨digit, hlt, by rw [← hdigit, Char.ofNat_toNat]⟩

theorem toDigits_ofDigitChars {n : Nat} {digits : List Char} (hpos : 0 < n)
    (hdigits : digits.all Char.isDigit = true) :
    Nat.toDigits 10 (Nat.ofDigitChars 10 digits n) = Nat.toDigits 10 n ++ digits := by
  induction digits generalizing n with
  | nil => rw [Nat.ofDigitChars_nil, List.append_nil]
  | cons c rest ih =>
    rw [List.all_cons, Bool.and_eq_true] at hdigits
    obtain ⟨digit, hlt, rfl⟩ := exists_digitChar hdigits.1
    rw [Nat.ofDigitChars_cons_digitChar_of_lt_ten hlt, ih (by omega) hdigits.2,
      ← Nat.toDigits_append_toDigits (by decide) hpos hlt, Nat.toDigits_of_lt_base hlt,
      List.append_assoc, List.singleton_append]

/-- Only the text of a position reads as the position. -/
theorem eq_toString_of_index? {token : String} {n : Nat} (h : index? token = some n) :
    token = toString n := by
  rw [← String.toList_inj, Nat.toString_eq_ofList_toDigits, String.toList_ofList]
  rw [index?] at h
  split at h
  · cases h
  · next hzero =>
    cases h
    rw [hzero]
    rfl
  · cases h
  · next hnil hzero hlead =>
    split at h
    · next hdigits =>
      cases h
      cases htoken : token.toList with
      | nil => exact absurd htoken hnil
      | cons c rest =>
        rw [htoken, List.all_cons, Bool.and_eq_true] at hdigits
        obtain ⟨digit, hlt, rfl⟩ := exists_digitChar hdigits.1
        have hpos : 0 < digit := by
          refine Nat.pos_of_ne_zero ?_
          rintro rfl
          exact hlead rest htoken
        rw [Nat.ofDigitChars_cons_digitChar_of_lt_ten hlt, Nat.mul_zero, Nat.zero_add,
          toDigits_ofDigitChars hpos hdigits.2, Nat.toDigits_of_lt_base hlt, List.singleton_append]
    · cases h

end Pointer

namespace Json

theorem pointer?_text (value : Json) (pointer : Pointer) :
    value.pointer? (Pointer.text pointer) = value.at? pointer := by
  rw [pointer?, Pointer.ofText?_text, Option.bind_some]

theorem child?_position (items : List Json) (position : Nat) :
    (array items).child? (toString position) = items[position]? := by
  rw [child?, Pointer.index?_toString, Option.bind_some]

theorem exists_position {items : List Json} {token : String} {item : Json}
    (h : (array items).child? token = some item) :
    ∃ position : Nat, token = toString position ∧ items[position]? = some item := by
  obtain ⟨position, hindex, hitem⟩ := Option.bind_eq_some_iff.mp h
  exact ⟨position, Pointer.eq_toString_of_index? hindex, hitem⟩

/-! ## The order of parts -/

/-- Where the part that a token names stands among the parts of a value. -/
def rank : Json → String → Nat
  | object members, token => (members.map Prod.fst).idxOf token
  | array _, token => (Pointer.index? token).getD 0
  | _, _ => 0

/-- The positions on the way to a part. In their lexicographic order a part comes before the parts
inside it, and these before whatever stands behind it. -/
def trail : Json → Pointer → List Nat
  | _, [] => []
  | value, token :: rest => value.rank token :: ((value.child? token).map (·.trail rest)).getD []

def Precedes (value : Json) (pointer other : Pointer) : Prop :=
  value.trail pointer < value.trail other

theorem Precedes.asymm {value : Json} {pointer other : Pointer} (h : value.Precedes pointer other) :
    ¬ value.Precedes other pointer :=
  List.lt_asymm h

theorem precedes_inside (value : Json) (token : String) (rest : Pointer) :
    value.Precedes [] (token :: rest) :=
  List.nil_lt_cons _ _

theorem precedes_within {value child : Json} {token : String} {pointer other : Pointer}
    (hchild : value.child? token = some child) (h : child.Precedes pointer other) :
    value.Precedes (token :: pointer) (token :: other) := by
  rw [Precedes, trail, trail, hchild]
  exact List.cons_lt_cons_iff.mpr (.inr ⟨rfl, h⟩)

theorem precedes_of_rank {value : Json} {token token' : String} (h : value.rank token < value.rank token')
    (pointer other : Pointer) : value.Precedes (token :: pointer) (token' :: other) :=
  List.cons_lt_cons_iff.mpr (.inl h)

theorem rank_position (items : List Json) (position : Nat) :
    (array items).rank (toString position) = position := by
  rw [rank, Pointer.index?_toString, Option.getD_some]

theorem rank_key {members : Members} (distinct : (members.map Prod.fst).Nodup) {position : Nat}
    (h : position < members.length) : (object members).rank members[position].1 = position := by
  have hkeys : position < (members.map Prod.fst).length := by rwa [List.length_map]
  have hkey : (members.map Prod.fst)[position] = members[position].1 := List.getElem_map ..
  rw [rank, ← hkey, distinct.idxOf_getElem]

end Json

end SchemaShape
