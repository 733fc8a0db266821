import Std.Data.String.ToInt
import SchemaShape.Proofs.Json.Text
import SchemaShape.Proofs.Shape
import SchemaShape.Proofs.Url.Text
import SchemaShape.Shape.Text

/-! # Shapes told by their texts

The text of a shape starts with a word of letters, digits and underscores, which ends at a bracket, at
a brace or where the shape does. Word and bracket tell the kind of the shape, and its parts are told one
after another: behind a part stands a comma or what closes the shape, and inside quotes nothing counts.
The names of records that are not outer are not written, and only they are not told.
-/

namespace SchemaShape
set_option autoImplicit false

/-! ## Literals -/

namespace Literal

def isDouble : Literal → Bool
  | double _ => true
  | _ => false

def isString : Literal → Bool
  | string _ => true
  | _ => false

theorem mem_toString_int {value : Int} {c : Char} (mem : c ∈ (toString value).toList) :
    c = '-' ∨ c.isDigit = true := by
  have hdigit : ∀ {n : Nat}, c ∈ n.repr.toList → c.isDigit = true := by
    intro n mem
    rw [Nat.repr_eq_ofList_toDigits, String.toList_ofList] at mem
    exact Nat.isDigit_of_mem_toDigits (by decide) (by decide) mem
  cases value with
  | ofNat n => exact .inr (hdigit mem)
  | negSucc n =>
    have mem : c ∈ ("-" ++ (n + 1).repr).toList := mem
    rw [String.toList_append, List.mem_append] at mem
    rcases mem with mem | mem
    · exact .inl (by simpa using mem)
    · exact .inr (hdigit mem)

theorem free_text {value : Literal} (hdouble : value.isDouble = false)
    (hstring : value.isString = false) : Free ['"', ']'] value.text := by
  cases value with
  | string value => cases hstring
  | double value => cases hdouble
  | int value =>
    intro c mem hmark
    have hc := mem_toString_int mem
    simp only [List.mem_cons, List.not_mem_nil, or_false] at hmark
    rcases hmark with rfl | rfl <;> exact absurd hc (by decide)
  | bool value => cases value <;> decide
  | null => decide

theorem int_text_ne {value : Int} {c : Char} {text : List Char} (hsign : c ≠ '-')
    (hdigit : c.isDigit = false) : (int value).text ≠ c :: text := by
  intro heq
  have mem : c ∈ (toString value).toList := by
    have hmem : c ∈ (int value).text := heq ▸ List.mem_cons_self
    exact hmem
  rcases mem_toString_int mem with hminus | hdigit'
  · exact hsign hminus
  · rw [hdigit] at hdigit'
    cases hdigit'

theorem text_inj {value value' : Literal} (hdouble : value.isDouble = false)
    (hstring : value.isString = false) (hdouble' : value'.isDouble = false)
    (hstring' : value'.isString = false) (h : value.text = value'.text) : value = value' := by
  have hword : ∀ {value : Int} {word : Literal},
      word = bool true ∨ word = bool false ∨ word = null → (int value).text ≠ word.text := by
    intro value word hword
    rcases hword with rfl | rfl | rfl <;> exact int_text_ne (by decide) (by decide)
  cases value with
  | string value => cases hstring
  | double value => cases hdouble
  | int value =>
    cases value' with
    | string value' => cases hstring'
    | double value' => cases hdouble'
    | int value' => rw [Int.repr_inj.mp (String.toList_inj.mp h)]
    | bool value' => exact absurd h (hword (by cases value' <;> simp))
    | null => exact absurd h (hword (by simp))
  | bool value =>
    cases value' with
    | string value' => cases hstring'
    | double value' => cases hdouble'
    | int value' => exact absurd h.symm (hword (by cases value <;> simp))
    | bool value' => cases value <;> cases value' <;> first | rfl | exact absurd h (by decide)
    | null => cases value <;> exact absurd h (by decide)
  | null =>
    cases value' with
    | string value' => cases hstring'
    | double value' => cases hdouble'
    | int value' => exact absurd h.symm (hword (by simp))
    | bool value' => cases value' <;> exact absurd h (by decide)
    | null => rfl

/-- Up to its closing bracket the text tells the literal, also where it has brackets itself. -/
theorem text_append_inj {value value' : Literal} {rest rest' : List Char}
    (hdouble : value.isDouble = false) (hdouble' : value'.isDouble = false)
    (h : value.text ++ ']' :: rest = value'.text ++ ']' :: rest') : value = value' ∧ rest = rest' := by
  -- A string starts with a quote, and no other literal does.
  have hquote : ∀ {s : String} {value : Literal} {rest rest' : List Char}, value.isDouble = false →
      value.isString = false → (string s).text ++ ']' :: rest ≠ value.text ++ ']' :: rest' := by
    intro s value rest rest' hdouble hstring heq
    have hfree := free_text hdouble hstring
    have hhead : (value.text ++ ']' :: rest').head? = some '"' := heq ▸ rfl
    cases htext : value.text with
    | nil => simp [htext] at hhead
    | cons c text =>
      rw [htext] at hhead hfree
      injection hhead with hc
      exact hfree c List.mem_cons_self (by simp [hc])
  cases hstring : value.isString <;> cases hstring' : value'.isString
  · have hfree := free_text hdouble hstring
    have hfree' := free_text hdouble' hstring'
    obtain ⟨htext, hrest⟩ :=
      append_cons_inj (hfree.not_mem (by simp)) (hfree'.not_mem (by simp)) h
    exact ⟨text_inj hdouble hstring hdouble' hstring' htext, hrest⟩
  · cases value' with
    | string value' => exact absurd h.symm (hquote hdouble hstring)
    | _ => cases hstring'
  · cases value with
    | string value => exact absurd h (hquote hdouble' hstring')
    | _ => cases hstring
  · cases value with
    | string value =>
      cases value' with
      | string value' =>
        obtain ⟨hvalue, hrest⟩ := Json.quoted_append_inj h
        exact ⟨by rw [hvalue], (List.cons.inj hrest).2⟩
      | _ => cases hstring'
    | _ => cases hstring

end Literal

namespace Shape

/-! ## Words and keys -/

/-- Letters, digits and underscores. -/
def isPlain (c : Char) : Bool := isPlainStart c || c.isDigit

/-- A word does not go on here. -/
def Breaks (rest : List Char) : Prop := ∀ c ∈ rest.head?, isPlain c = false

theorem breaks_cons {c : Char} {rest : List Char} (h : isPlain c = false) : Breaks (c :: rest) := by
  intro c' mem
  rw [List.head?_cons, Option.mem_some_iff] at mem
  rw [← mem, h]

theorem takeWhile_word {word rest : List Char} (hword : word.all isPlain = true)
    (hrest : Breaks rest) : (word ++ rest).takeWhile isPlain = word := by
  rw [List.takeWhile_append_of_pos (List.all_eq_true.mp hword)]
  cases rest with
  | nil => rw [List.takeWhile_nil, List.append_nil]
  | cons c rest =>
    rw [List.takeWhile_cons_of_neg (by simp [hrest c rfl]), List.append_nil]

theorem word_append_inj {word word' rest rest' : List Char} (hword : word.all isPlain = true)
    (hword' : word'.all isPlain = true) (hrest : Breaks rest) (hrest' : Breaks rest')
    (h : word ++ rest = word' ++ rest') : word = word' ∧ rest = rest' := by
  have heq : word = word' := by
    rw [← takeWhile_word hword hrest, h, takeWhile_word hword' hrest']
  subst heq
  exact ⟨rfl, List.append_cancel_left h⟩

theorem all_isPlain {word : List Char} (h : isPlainKey word = true) : word.all isPlain = true := by
  cases word with
  | nil => rfl
  | cons c rest =>
    simp only [isPlainKey, Bool.and_eq_true] at h
    rw [List.all_cons, Bool.and_eq_true]
    exact ⟨by rw [isPlain, h.1, Bool.true_or], h.2⟩

/-- The mark behind a key and the blank. -/
def mark (required : Bool) : List Char :=
  if required then [':', ' '] else ['?', ':', ' ']

theorem breaks_mark (required : Bool) (rest : List Char) : Breaks (mark required ++ rest) := by
  cases required <;> exact breaks_cons (by decide)

theorem mark_append_inj {required required' : Bool} {rest rest' : List Char}
    (h : mark required ++ rest = mark required' ++ rest') :
    required = required' ∧ rest = rest' := by
  cases required <;> cases required' <;> simp_all [mark]

theorem plain_ne_quoted {word rest rest' : List Char} {key : String} (hword : isPlainKey word = true) :
    word ++ rest ≠ Json.quoted key ++ rest' := by
  intro heq
  have hhead : (word ++ rest).head? = some '"' := heq ▸ Json.head?_quoted_append key rest'
  cases word with
  | nil => cases hword
  | cons c word =>
    injection hhead with hc
    rw [hc] at hword
    cases hword

theorem fieldHead_append_inj {key key' : String} {required required' : Bool} {rest rest' : List Char}
    (h : fieldHead key required ++ rest = fieldHead key' required' ++ rest') :
    key = key' ∧ required = required' ∧ rest = rest' := by
  have hparts : ∀ key required rest,
      fieldHead key required ++ rest = keyText key ++ (mark required ++ rest) :=
    fun _ _ _ => List.append_assoc ..
  rw [hparts, hparts] at h
  have hkey : key = key' ∧ mark required ++ rest = mark required' ++ rest' := by
    unfold keyText at h
    split at h <;> split at h
    · next hplain hplain' =>
      obtain ⟨hkey, hmark⟩ := word_append_inj (all_isPlain hplain) (all_isPlain hplain')
        (breaks_mark _ _) (breaks_mark _ _) h
      exact ⟨String.toList_inj.mp hkey, hmark⟩
    · next hplain _ => exact absurd h (plain_ne_quoted hplain)
    · next _ hplain' => exact absurd h.symm (plain_ne_quoted hplain')
    · exact Json.quoted_append_inj h
  exact ⟨hkey.1, mark_append_inj hkey.2⟩

theorem fieldHead_append_ne {key : String} {required : Bool} {c : Char} {rest tail : List Char}
    (hplain : isPlainStart c = false) (hquote : c ≠ '"') :
    fieldHead key required ++ rest ≠ c :: tail := by
  intro heq
  rw [fieldHead, keyText] at heq
  split at heq
  · next hkey =>
    cases hchars : key.toList with
    | nil =>
      rw [hchars] at hkey
      cases hkey
    | cons c' chars =>
      rw [hchars, isPlainKey, Bool.and_eq_true] at hkey
      rw [hchars] at heq
      injection heq with hc
      rw [hc, hplain] at hkey
      cases hkey.1
  · injection heq with hc
    exact hquote hc.symm

/-! ## What is told -/

mutual

/-- The names that are not written are left empty. -/
def unnamed : Shape → Shape
  | scalar kind => scalar kind
  | literal value => literal value
  | union members => union (unnamedList members)
  | list element => list (unnamed element)
  | tuple elements => tuple (unnamedList elements)
  | mapping value => mapping (unnamed value)
  | record name outer fields => record (if outer then name else "") outer (unnamedFields fields)
  | nothing => nothing

def unnamedList : List Shape → List Shape
  | [] => []
  | shape :: rest => unnamed shape :: unnamedList rest

def unnamedFields : List (Field Shape) → List (Field Shape)
  | [] => []
  | ⟨key, required, shape⟩ :: rest => ⟨key, required, unnamed shape⟩ :: unnamedFields rest

end

mutual

/-- No literal is a double, and outer records have plain names. -/
def legible : Shape → Bool
  | scalar _ => true
  | literal value => !value.isDouble
  | union members => legibleList members
  | list element => legible element
  | tuple elements => legibleList elements
  | mapping value => legible value
  | record name outer fields => (!outer || isPlainKey name.toList) && legibleFields fields
  | nothing => true

def legibleList : List Shape → Bool
  | [] => true
  | shape :: rest => legible shape && legibleList rest

def legibleFields : List (Field Shape) → Bool
  | [] => true
  | ⟨_, _, shape⟩ :: rest => legible shape && legibleFields rest

end

/-! ## Word and body -/

/-- The word that a shape starts with. A record that is not outer has none. -/
def word : Shape → List Char
  | scalar kind => kind.text.toList
  | literal _ => ['l', 'i', 't', 'e', 'r', 'a', 'l']
  | union _ => ['u', 'n', 'i', 'o', 'n']
  | list _ => ['l', 'i', 's', 't']
  | tuple _ => ['t', 'u', 'p', 'l', 'e']
  | mapping _ => ['m', 'a', 'p']
  | record name outer _ => if outer then name.toList else []
  | nothing => ['n', 'o', 't', 'h', 'i', 'n', 'g']

/-- The brackets behind the word and all between them. -/
def body : Shape → List Char
  | scalar _ => []
  | literal value => '[' :: (value.text ++ [']'])
  | union members => '[' :: charsFirst members
  | list element => '[' :: (chars element ++ [']'])
  | tuple elements => '[' :: charsFirst elements
  | mapping value => '[' :: ("string, ".toList ++ (chars value ++ [']']))
  | record _ _ fields => '\x7b' :: charsFirstField fields
  | nothing => []

theorem chars_eq (shape : Shape) : chars shape = word shape ++ body shape := by
  cases shape with
  | scalar kind => exact (List.append_nil _).symm
  | _ => rfl

theorem charsFirst_cons (shape : Shape) (rest : List Shape) :
    charsFirst (shape :: rest) = chars shape ++ charsRest rest :=
  rfl

theorem charsRest_cons (shape : Shape) (rest : List Shape) :
    charsRest (shape :: rest) = ',' :: ' ' :: charsFirst (shape :: rest) :=
  rfl

theorem charsFirstField_cons (key : String) (required : Bool) (shape : Shape)
    (rest : List (Field Shape)) : charsFirstField (⟨key, required, shape⟩ :: rest) =
      fieldHead key required ++ (chars shape ++ charsRestField rest) :=
  List.append_assoc ..

theorem charsRestField_cons (field : Field Shape) (rest : List (Field Shape)) :
    charsRestField (field :: rest) = ',' :: ' ' :: charsFirstField (field :: rest) :=
  rfl

/-! ## Names that are not written -/

theorem word_unnamed (shape : Shape) : word (unnamed shape) = word shape := by
  cases shape with
  | record name outer fields => cases outer <;> rfl
  | _ => rw [unnamed] <;> rfl

mutual

/-- The text does not show the names that `unnamed` leaves out. -/
theorem chars_unnamed : ∀ shape : Shape, chars (unnamed shape) = chars shape
  | scalar kind => by rw [unnamed]
  | literal value => by rw [unnamed]
  | union members => by
    rw [chars_eq, chars_eq (union members), word_unnamed, unnamed, body, body,
      charsFirst_unnamed members]
  | list element => by
    rw [chars_eq, chars_eq (list element), word_unnamed, unnamed, body, body, chars_unnamed element]
  | tuple elements => by
    rw [chars_eq, chars_eq (tuple elements), word_unnamed, unnamed, body, body,
      charsFirst_unnamed elements]
  | mapping value => by
    rw [chars_eq, chars_eq (mapping value), word_unnamed, unnamed, body, body, chars_unnamed value]
  | record name outer fields => by
    rw [chars_eq, chars_eq (record name outer fields), word_unnamed, unnamed, body, body,
      charsFirstField_unnamed fields]
  | nothing => by rw [unnamed]

theorem charsFirst_unnamed : ∀ shapes : List Shape,
    charsFirst (unnamedList shapes) = charsFirst shapes
  | [] => by rw [unnamedList]
  | shape :: rest => by
    rw [unnamedList, charsFirst_cons, charsFirst_cons, chars_unnamed shape, charsRest_unnamed rest]

theorem charsRest_unnamed : ∀ shapes : List Shape,
    charsRest (unnamedList shapes) = charsRest shapes
  | [] => by rw [unnamedList]
  | shape :: rest => by
    rw [unnamedList, charsRest_cons, charsRest_cons, charsFirst_cons, charsFirst_cons,
      chars_unnamed shape, charsRest_unnamed rest]

theorem charsFirstField_unnamed : ∀ fields : List (Field Shape),
    charsFirstField (unnamedFields fields) = charsFirstField fields
  | [] => by rw [unnamedFields]
  | ⟨key, required, shape⟩ :: rest => by
    rw [unnamedFields, charsFirstField_cons, charsFirstField_cons, chars_unnamed shape,
      charsRestField_unnamed rest]

theorem charsRestField_unnamed : ∀ fields : List (Field Shape),
    charsRestField (unnamedFields fields) = charsRestField fields
  | [] => by rw [unnamedFields]
  | ⟨key, required, shape⟩ :: rest => by
    rw [unnamedFields, charsRestField_cons, charsRestField_cons, charsFirstField_cons,
      charsFirstField_cons, chars_unnamed shape, charsRestField_unnamed rest]

end

/-! ## Where a part ends -/

/-- A part ends here: the text stops, goes on to the next part or closes what has the part. -/
def Ends (rest : List Char) : Prop := ∀ c ∈ rest.head?, c ∈ [',', ']', '\x7d']

theorem ends_cons {c : Char} {rest : List Char} (h : c ∈ [',', ']', '\x7d']) : Ends (c :: rest) := by
  intro c' mem
  rw [List.head?_cons, Option.mem_some_iff] at mem
  rw [← mem]
  exact h

theorem ends_close {rest : List Char} : Ends (']' :: rest) := ends_cons (by decide)

theorem Ends.breaks {rest : List Char} (h : Ends rest) : Breaks rest := by
  intro c mem
  have hmarks : ∀ c ∈ [',', ']', '\x7d'], isPlain c = false := by
    rw [List.forall_mem_cons, List.forall_mem_cons, List.forall_mem_singleton]
    decide
  exact hmarks c (h c mem)

theorem Ends.ne_cons {rest tail : List Char} {c : Char} (h : Ends rest)
    (hc : c ∉ [',', ']', '\x7d']) : rest ≠ c :: tail := by
  rintro rfl
  exact hc (h c rfl)

theorem ends_rest (shapes : List Shape) (rest : List Char) : Ends (charsRest shapes ++ rest) := by
  cases shapes <;> exact ends_cons (by simp)

theorem ends_restField (fields : List (Field Shape)) (rest : List Char) :
    Ends (charsRestField fields ++ rest) := by
  rcases fields with _ | ⟨⟨key, required, shape⟩, fields⟩ <;> exact ends_cons (by simp)

theorem all_isPlain_word {shape : Shape} (h : shape.legible = true) :
    shape.word.all isPlain = true := by
  cases shape with
  | scalar kind => cases kind <;> decide
  | record name outer fields =>
    rw [legible, Bool.and_eq_true] at h
    cases outer with
    | false => rfl
    | true => exact all_isPlain h.1
  | _ => rfl

theorem breaks_body {shape : Shape} {rest : List Char} (h : Ends rest) :
    Breaks (shape.body ++ rest) := by
  cases shape with
  | scalar kind => exact h.breaks
  | nothing => exact h.breaks
  | _ => exact breaks_cons (by decide)

/-- The bracket or brace behind the word. -/
def opener : Shape → Option Char
  | scalar _ => none
  | record _ _ _ => some '\x7b'
  | nothing => none
  | _ => some '['

theorem head?_body (shape : Shape) (rest : List Char) :
    (shape.body ++ rest).head? = shape.opener.or rest.head? := by
  cases shape <;> rfl

theorem opener_eq {shape shape' : Shape} {rest rest' : List Char} (hends : Ends rest)
    (hends' : Ends rest') (h : shape.body ++ rest = shape'.body ++ rest') :
    shape.opener = shape'.opener := by
  have hhead : shape.opener.or rest.head? = shape'.opener.or rest'.head? := by
    rw [← head?_body, h, head?_body]
  have hopens : ∀ {shape : Shape} {c : Char}, shape.opener = some c → c ∉ [',', ']', '\x7d'] := by
    intro shape c hc
    cases shape <;> cases hc <;> decide
  cases hopener : shape.opener with
  | none =>
    cases hopener' : shape'.opener with
    | none => rfl
    | some c =>
      rw [hopener, hopener'] at hhead
      exact absurd (hends c hhead) (hopens hopener')
  | some c =>
    cases hopener' : shape'.opener with
    | none =>
      rw [hopener, hopener'] at hhead
      exact absurd (hends' c hhead.symm) (hopens hopener)
    | some c' => rw [hopener, hopener'] at hhead; exact hhead

theorem head_inj {shape shape' : Shape} {rest rest' : List Char} (hlegible : shape.legible = true)
    (hlegible' : shape'.legible = true) (hends : Ends rest) (hends' : Ends rest')
    (h : chars shape ++ rest = chars shape' ++ rest') :
    shape.word = shape'.word ∧ shape.opener = shape'.opener ∧
      shape.body ++ rest = shape'.body ++ rest' := by
  rw [chars_eq, chars_eq, List.append_assoc, List.append_assoc] at h
  obtain ⟨hword, hbody⟩ := word_append_inj (all_isPlain_word hlegible) (all_isPlain_word hlegible')
    (breaks_body hends) (breaks_body hends') h
  exact ⟨hword, opener_eq hends hends' hbody, hbody⟩

theorem not_ends_chars {shape : Shape} {rest : List Char} (hlegible : shape.legible = true)
    (hends : Ends rest) : ¬ Ends (chars shape ++ rest) := by
  intro hchars
  rw [chars_eq, List.append_assoc] at hchars
  have hnil : shape.word ++ (shape.body ++ rest) = [] ++ (shape.word ++ (shape.body ++ rest)) := rfl
  obtain ⟨hword, -⟩ :=
    word_append_inj (all_isPlain_word hlegible) rfl (breaks_body hends) hchars.breaks hnil
  cases shape with
  | scalar kind => cases kind <;> cases hword
  | record name outer fields =>
    rw [hword] at hchars
    exact hchars.ne_cons (by decide) rfl
  | _ => cases hword

/-- What follows the first shape is told like a list from its first shape on. -/
theorem charsFirst_of_charsRest {shapes shapes' : List Shape} {rest rest' : List Char}
    (h : charsRest shapes ++ rest = charsRest shapes' ++ rest') :
    charsFirst shapes ++ rest = charsFirst shapes' ++ rest' := by
  cases shapes with
  | nil =>
    cases shapes' with
    | nil => exact h
    | cons shape' shapes' => cases h
  | cons shape shapes =>
    cases shapes' with
    | nil => cases h
    | cons shape' shapes' => exact (List.cons.inj (List.cons.inj h).2).2

theorem charsFirstField_of_charsRestField {fields fields' : List (Field Shape)}
    {rest rest' : List Char} (h : charsRestField fields ++ rest = charsRestField fields' ++ rest') :
    charsFirstField fields ++ rest = charsFirstField fields' ++ rest' := by
  cases fields with
  | nil =>
    cases fields' with
    | nil => exact h
    | cons field' fields' => cases h
  | cons field fields =>
    cases fields' with
    | nil => cases h
    | cons field' fields' => exact (List.cons.inj (List.cons.inj h).2).2

/-! ## The text tells the shape -/

theorem scalar_text_inj {kind kind' : Scalar} (h : kind.text.toList = kind'.text.toList) :
    kind = kind' := by
  cases kind <;> cases kind' <;> first | rfl | exact absurd h (by decide)

theorem scalar_word_ne {kind : Scalar} : (scalar kind).word ≠ nothing.word := by
  cases kind <;> decide

theorem record_word_inj {name name' : String} {outer outer' : Bool}
    {fields fields' : List (Field Shape)} (hname : (!outer || isPlainKey name.toList) = true)
    (hname' : (!outer' || isPlainKey name'.toList) = true)
    (h : (record name outer fields).word = (record name' outer' fields').word) :
    outer = outer' ∧ (if outer then name else "") = if outer' then name' else "" := by
  have hne : ∀ {name : String}, (!true || isPlainKey name.toList) = true → name.toList ≠ [] := by
    intro name hname hnil
    rw [hnil] at hname
    cases hname
  cases outer <;> cases outer'
  · exact ⟨rfl, rfl⟩
  · exact absurd h.symm (hne hname')
  · exact absurd h (hne hname)
  · exact ⟨rfl, String.toList_inj.mp h⟩

mutual

/-- Where a part ends nothing of its text is lost: shape by shape, along the kinds of shapes. -/
theorem chars_append_inj : ∀ (shape shape' : Shape) {rest rest' : List Char},
    shape.legible = true → shape'.legible = true → Ends rest → Ends rest' →
    chars shape ++ rest = chars shape' ++ rest' →
    unnamed shape = unnamed shape' ∧ rest = rest'
  | scalar kind, shape', rest, rest', hlegible, hlegible', hends, hends', h => by
    obtain ⟨hword, hopener, hbody⟩ := head_inj hlegible hlegible' hends hends' h
    cases shape' with
    | scalar kind' => exact ⟨by rw [scalar_text_inj hword], hbody⟩
    | nothing => exact absurd hword scalar_word_ne
    | _ => cases hopener
  | literal value, shape', rest, rest', hlegible, hlegible', hends, hends', h => by
    obtain ⟨hword, hopener, hbody⟩ := head_inj hlegible hlegible' hends hends' h
    cases shape' with
    | literal value' =>
      simp only [legible, Bool.not_eq_true'] at hlegible hlegible'
      simp only [body, List.cons_append, List.append_assoc, List.nil_append, List.cons.injEq,
        true_and] at hbody
      obtain ⟨rfl, hrest⟩ := Literal.text_append_inj hlegible hlegible' hbody
      exact ⟨rfl, hrest⟩
    | _ => first | (cases hopener; done) | cases hword
  | union members, shape', rest, rest', hlegible, hlegible', hends, hends', h => by
    obtain ⟨hword, hopener, hbody⟩ := head_inj hlegible hlegible' hends hends' h
    cases shape' with
    | union members' =>
      obtain ⟨hmembers, hrest⟩ :=
        charsFirst_append_inj members members' hlegible hlegible' (List.cons.inj hbody).2
      exact ⟨by rw [unnamed, unnamed, hmembers], hrest⟩
    | _ => first | (cases hopener; done) | cases hword
  | list element, shape', rest, rest', hlegible, hlegible', hends, hends', h => by
    obtain ⟨hword, hopener, hbody⟩ := head_inj hlegible hlegible' hends hends' h
    cases shape' with
    | list element' =>
      simp only [body, List.cons_append, List.append_assoc, List.nil_append, List.cons.injEq,
        true_and] at hbody
      obtain ⟨helement, hrest⟩ := chars_append_inj element element' hlegible hlegible'
        ends_close ends_close hbody
      exact ⟨by rw [unnamed, unnamed, helement], (List.cons.inj hrest).2⟩
    | _ => first | (cases hopener; done) | cases hword
  | tuple elements, shape', rest, rest', hlegible, hlegible', hends, hends', h => by
    obtain ⟨hword, hopener, hbody⟩ := head_inj hlegible hlegible' hends hends' h
    cases shape' with
    | tuple elements' =>
      obtain ⟨helements, hrest⟩ :=
        charsFirst_append_inj elements elements' hlegible hlegible' (List.cons.inj hbody).2
      exact ⟨by rw [unnamed, unnamed, helements], hrest⟩
    | _ => first | (cases hopener; done) | cases hword
  | mapping value, shape', rest, rest', hlegible, hlegible', hends, hends', h => by
    obtain ⟨hword, hopener, hbody⟩ := head_inj hlegible hlegible' hends hends' h
    cases shape' with
    | mapping value' =>
      simp only [body, List.cons_append, List.append_assoc, List.nil_append, List.cons.injEq,
        true_and, List.append_cancel_left_eq] at hbody
      obtain ⟨hvalue, hrest⟩ := chars_append_inj value value' hlegible hlegible'
        ends_close ends_close hbody
      exact ⟨by rw [unnamed, unnamed, hvalue], (List.cons.inj hrest).2⟩
    | _ => first | (cases hopener; done) | cases hword
  | record name outer fields, shape', rest, rest', hlegible, hlegible', hends, hends', h => by
    obtain ⟨hword, hopener, hbody⟩ := head_inj hlegible hlegible' hends hends' h
    cases shape' with
    | record name' outer' fields' =>
      rw [legible, Bool.and_eq_true] at hlegible hlegible'
      obtain ⟨hfields, hrest⟩ := charsFirstField_append_inj fields fields' hlegible.2 hlegible'.2
        (List.cons.inj hbody).2
      obtain ⟨houter, hname⟩ := record_word_inj hlegible.1 hlegible'.1 hword
      exact ⟨by rw [unnamed, unnamed, hname, houter, hfields], hrest⟩
    | _ => cases hopener
  | nothing, shape', rest, rest', hlegible, hlegible', hends, hends', h => by
    obtain ⟨hword, hopener, hbody⟩ := head_inj hlegible hlegible' hends hends' h
    cases shape' with
    | nothing => exact ⟨rfl, hbody⟩
    | scalar kind' => exact absurd hword.symm scalar_word_ne
    | _ => cases hopener

theorem charsFirst_append_inj : ∀ (shapes shapes' : List Shape) {rest rest' : List Char},
    legibleList shapes = true → legibleList shapes' = true →
    charsFirst shapes ++ rest = charsFirst shapes' ++ rest' →
    unnamedList shapes = unnamedList shapes' ∧ rest = rest'
  | [], shapes', rest, rest', hlegible, hlegible', h => by
    cases shapes' with
    | nil => exact ⟨rfl, (List.cons.inj h).2⟩
    | cons shape' shapes' =>
      rw [legibleList, Bool.and_eq_true] at hlegible'
      rw [charsFirst_cons, List.append_assoc] at h
      exact absurd (h ▸ ends_close) (not_ends_chars hlegible'.1 (ends_rest shapes' rest'))
  | shape :: shapes, shapes', rest, rest', hlegible, hlegible', h => by
    rw [legibleList, Bool.and_eq_true] at hlegible
    rw [charsFirst_cons, List.append_assoc] at h
    cases shapes' with
    | nil =>
      exact absurd (h ▸ ends_close) (not_ends_chars hlegible.1 (ends_rest shapes rest))
    | cons shape' shapes' =>
      rw [legibleList, Bool.and_eq_true] at hlegible'
      rw [charsFirst_cons, List.append_assoc] at h
      obtain ⟨hshape, hshapes⟩ := chars_append_inj shape shape' hlegible.1 hlegible'.1
        (ends_rest shapes rest) (ends_rest shapes' rest') h
      obtain ⟨hshapes, hrest⟩ :=
        charsFirst_append_inj shapes shapes' hlegible.2 hlegible'.2 (charsFirst_of_charsRest hshapes)
      exact ⟨by rw [unnamedList, unnamedList, hshape, hshapes], hrest⟩

theorem charsFirstField_append_inj : ∀ (fields fields' : List (Field Shape)) {rest rest' : List Char},
    legibleFields fields = true → legibleFields fields' = true →
    charsFirstField fields ++ rest = charsFirstField fields' ++ rest' →
    unnamedFields fields = unnamedFields fields' ∧ rest = rest'
  | [], fields', rest, rest', hlegible, hlegible', h => by
    rcases fields' with _ | ⟨⟨key', required', shape'⟩, fields'⟩
    · exact ⟨rfl, (List.cons.inj h).2⟩
    · rw [charsFirstField_cons, List.append_assoc] at h
      exact absurd h.symm (fieldHead_append_ne (by decide) (by decide))
  | ⟨key, required, shape⟩ :: fields, fields', rest, rest', hlegible, hlegible', h => by
    rw [legibleFields, Bool.and_eq_true] at hlegible
    rw [charsFirstField_cons, List.append_assoc, List.append_assoc] at h
    rcases fields' with _ | ⟨⟨key', required', shape'⟩, fields'⟩
    · exact absurd h (fieldHead_append_ne (by decide) (by decide))
    · rw [legibleFields, Bool.and_eq_true] at hlegible'
      rw [charsFirstField_cons, List.append_assoc, List.append_assoc] at h
      obtain ⟨hkey, hrequired, h⟩ := fieldHead_append_inj h
      obtain ⟨hshape, h⟩ := chars_append_inj shape shape' hlegible.1 hlegible'.1
        (ends_restField fields rest) (ends_restField fields' rest') h
      obtain ⟨hfields, hrest⟩ := charsFirstField_append_inj fields fields' hlegible.2
        hlegible'.2 (charsFirstField_of_charsRestField h)
      exact ⟨by rw [unnamedFields, unnamedFields, hkey, hrequired, hshape, hfields], hrest⟩

end

/-- Two shapes have the same text when they are the same but for the names that no text shows, and
only then. Keys and strings may have any characters. -/
theorem text_eq_iff {shape shape' : Shape} (h : shape.legible = true) (h' : shape'.legible = true) :
    shape.text = shape'.text ↔ shape.unnamed = shape'.unnamed := by
  constructor
  · intro htext
    have hchars : chars shape ++ [] = chars shape' ++ [] := by
      rw [List.append_nil, List.append_nil]
      exact String.ofList_injective htext
    have hends : Ends [] := fun c mem => nomatch mem
    exact (chars_append_inj shape shape' h h' hends hends hchars).1
  · intro hunnamed
    have hchars : chars shape = chars shape' := by
      rw [← chars_unnamed shape, hunnamed, chars_unnamed]
    rw [text, text, hchars]

/-- One key that looks like a field and a half is told from two keys, and the names of nested records
are not. -/
theorem text_eq_iff_quoted_key :
    let one := record "Root" true [⟨"a\": string, \"b", false, scalar .string⟩]
    let two := record "Root" true [⟨"a", true, scalar .string⟩, ⟨"b", false, scalar .string⟩]
    let nested := fun name => record "Root" true [⟨"a", true, record name false []⟩]
    one.text ≠ two.text ∧ (nested "RootA").text = (nested "B").text := by
  refine ⟨fun h => ?_, (text_eq_iff (by decide) (by decide)).mpr (by decide)⟩
  exact absurd ((text_eq_iff (by decide) (by decide)).mp h) (by decide)

end Shape

end SchemaShape
