import SchemaShape.Compiler.State

/-! # Names of titles and of their parts

A blank separates words, so a title that is put together with a blank has the name that its parts have
one after another.
-/

namespace SchemaShape
set_option autoImplicit false

namespace Name

theorem scan_blank (inWord : Bool) (front back : List Char) :
    scan inWord (front ++ ' ' :: back) = scan inWord front ++ scan false back := by
  induction front generalizing inWord with
  | nil =>
    have hletter : Text.isLetter ' ' = false := by decide +kernel
    have hstep : scan inWord (' ' :: back) = scan false back := by
      rw [scan, hletter, if_neg Bool.false_ne_true, if_pos (.inl rfl)]
    rw [List.nil_append, hstep, scan, List.nil_append]
  | cons c rest ih =>
    rw [List.cons_append, scan, scan]
    split
    · rw [ih, List.append_assoc]
    · split
      · exact ih false
      · rw [ih, List.cons_append]

theorem ofTitle_blank (front back : String) :
    ofTitle (front ++ " " ++ back) = ofTitle front ++ ofTitle back := by
  have hblank : (front ++ " " ++ back).toList = front.toList ++ ' ' :: back.toList := by
    rw [String.toList_append, String.toList_append, List.append_assoc]
    rfl
  rw [ofTitle, ofTitle, ofTitle, hblank, scan_blank, String.ofList_append]

end Name

end SchemaShape
