import Mathlib.Data.List.TakeWhile
import SchemaShape.Proofs.Url.Host

/-! # Paths that are read

A path is only ever extended by whole segments that are neither dots nor contain a slash, and taken back
to an earlier slash. So it has no character that would end it, it starts with a slash if it has to, and
it never starts with a dot for a segment.
-/

namespace SchemaShape
set_option autoImplicit false

namespace UrlPath

/-! ## Fronts of a path -/

theorem isDotted_of_front {path path' : List Char} (h : path <+: path')
    (hundotted : Url.isDotted path' = false) : Url.isDotted path = false := by
  rw [← Bool.not_eq_true, Url.isDotted, List.isPrefixOf_iff_prefix] at hundotted ⊢
  exact fun hdotted => hundotted (hdotted.trans h)

theorem head?_of_front {path path' : List Char} (h : path <+: path') (hne : path ≠ []) :
    path.head? = path'.head? := by
  obtain ⟨rest, rfl⟩ := h
  cases path with
  | nil => exact absurd rfl hne
  | cons c path => rfl

theorem splitLast_front (path : List Char) : (splitLast path).1 <+: path := by
  rw [splitLast, ← List.reverse_suffix, List.reverse_reverse]
  exact List.dropWhile_suffix _

theorem splitLast_getLast? {path : List Char} (h : '/' ∈ path) :
    (splitLast path).1.getLast? = some '/' := by
  rw [splitLast, List.getLast?_reverse]
  cases hrest : path.reverse.dropWhile (· != '/') with
  | nil =>
    have hall := List.dropWhile_eq_nil_iff.mp hrest '/' (List.mem_reverse.mpr h)
    exact absurd hall (by decide)
  | cons c rest =>
    have hhead := List.head?_dropWhile_not (· != '/') path.reverse
    rw [hrest, List.head?_cons] at hhead
    have hc : c = '/' := by simpa using hhead
    rw [hc]
    rfl

theorem dropSlash_front (path : List Char) : dropSlash path <+: path := by
  rw [dropSlash]
  split
  · dsimp only
    split
    · exact List.prefix_refl _
    · split
      · exact List.prefix_refl _
      · exact List.dropLast_prefix _
  · exact List.prefix_refl _

theorem mem_dropSlash {path : List Char} (h : '/' ∈ path) : '/' ∈ dropSlash path := by
  rw [dropSlash]
  split
  · dsimp only
    split
    · exact h
    · next hfront =>
      split
      · exact h
      · simpa using hfront
  · exact h

theorem pop_eq (kind : SchemeKind) (path : List Char) :
    pop kind path =
      if kind = .file ∧ isNormalDrive (splitLast path).2 then path else (splitLast path).1 := rfl

theorem pop_front (kind : SchemeKind) (path : List Char) : pop kind path <+: path := by
  rw [pop_eq]
  split
  · exact List.prefix_refl _
  · exact splitLast_front path

/-! ## Characters of a path -/

theorem Building.free_push {b : Building} {kind : SchemeKind} {c : Char}
    (h : Free ['?', '#'] (b.before ++ b.segment)) :
    Free ['?', '#'] ((b.push kind c).before ++ (b.push kind c).segment) := by
  have hc : Free ['?', '#'] (Percent.encodeChar Percent.inPath c) := by
    have hmarks : ∀ mark ∈ ['?', '#'], Percent.inPath mark = true := forall_marks (by decide)
    exact Percent.free_encodeChar (by decide) (hmarks c)
  rw [push]
  simp only
  rw [← List.append_assoc]
  refine free_append.mpr ⟨?_, hc⟩
  split
  · rw [List.take_append_drop]
    exact free_append.mpr ⟨h, by decide⟩
  · exact h

theorem Building.free_close {b : Building} (kind : SchemeKind) (slash : Bool)
    (h : Free ['?', '#'] (b.before ++ b.segment)) :
    Free ['?', '#'] (b.close kind slash).before := by
  obtain ⟨hbefore, hsegment⟩ := free_append.mp h
  have hslash : ∀ path, Free ['?', '#'] path →
      Free ['?', '#'] (if path.getLast? = some '/' then path else path ++ ['/']) := by
    intro path hpath
    split
    · exact hpath
    · exact free_append.mpr ⟨hpath, by decide⟩
  rw [close]
  simp only
  split
  · have hpop : Free ['?', '#'] (pop kind (dropSlash b.before)) :=
      hbefore.subset ((pop_front kind _).trans (dropSlash_front _)).subset
    split
    · exact hslash _ hpop
    · exact hpop
  · split
    · exact hslash _ hbefore
    · refine free_append.mpr ⟨free_append.mpr ⟨hbefore, ?_⟩, ?_⟩
      · split
        · exact free_append.mpr ⟨hsegment.subset (List.take_subset ..), by decide⟩
        · exact hsegment
      · cases slash <;> decide

theorem free_append_path {kind : SchemeKind} {path text : List Char} {hasHost : Bool}
    (h : Free ['?', '#'] path) : Free ['?', '#'] (append kind path hasHost text).1 := by
  have hfold : ∀ (text : List Char) (b : Building), Free ['?', '#'] (b.before ++ b.segment) →
      Free ['?', '#'] ((text.foldl (Building.step kind) b).before ++
        (text.foldl (Building.step kind) b).segment) := by
    intro text
    induction text with
    | nil => exact fun _ h => h
    | cons c rest ih =>
      intro b h
      refine ih _ ?_
      rw [Building.step]
      split
      · rw [show (b.close kind true).segment = [] from rfl, List.append_nil]
        exact Building.free_close kind true h
      · exact Building.free_push h
  have hbuilt := Building.free_close kind false
    (hfold text { before := path, hasHost } (by rw [List.append_nil]; exact h))
  rw [append]
  simp only
  split
  · exact free_cons.mpr ⟨by decide, hbuilt.subset (List.dropWhile_suffix _).subset⟩
  · exact hbuilt

/-! ## Segments of a path -/

/-- The path so far starts and ends with a slash, and its open segment has none. Unless it started
so, it does not start with a dot for a segment. -/
structure Building.Open (start : List Char) (b : Building) : Prop where
  slash : '/' ∉ b.segment
  front : b.before.head? = some '/'
  back : b.before.getLast? = some '/'
  undotted : Url.isDotted start = false → Url.isDotted b.before = false

theorem isDotted_segment {before segment rest : List Char} (hfront : before.head? = some '/')
    (hback : before.getLast? = some '/') (hundotted : Url.isDotted before = false)
    (hslash : '/' ∉ segment) (hdot : isDot segment = false) (hrest : '.' ∉ rest) :
    Url.isDotted (before ++ segment ++ rest) = false := by
  obtain ⟨before, rfl⟩ : ∃ more, before = '/' :: more := by
    cases before with
    | nil => cases hfront
    | cons c more => exact ⟨more, by rw [List.head?_cons, Option.some.injEq] at hfront; rw [hfront]⟩
  match before with
  | [] =>
    match segment with
    | [] =>
      cases rest with
      | nil => rfl
      | cons c rest =>
        have hc : '.' ≠ c := fun heq => hrest (heq ▸ List.mem_cons_self ..)
        simp [Url.isDotted, List.isPrefixOf, hc]
    | [c] =>
      have hc : c ≠ '.' := by
        rintro rfl
        cases hdot
      simp [Url.isDotted, List.isPrefixOf, Ne.symm hc]
    | _ :: d :: _ =>
      have hd : d ≠ '/' := by
        rintro rfl
        exact hslash (by simp)
      simp [Url.isDotted, List.isPrefixOf, Ne.symm hd]
  | [c] =>
    have hc : c = '/' := by simpa using hback
    simp [Url.isDotted, List.isPrefixOf, hc]
  | c :: d :: more =>
    simp only [Url.isDotted, List.isPrefixOf, List.cons_append] at hundotted ⊢
    exact hundotted

theorem Building.open_push {start : List Char} {b : Building} {kind : SchemeKind} {c : Char}
    (hkind : kind ≠ .file) (hc : c ≠ '/') (h : b.Open start) : (b.push kind c).Open start := by
  have hpush : b.push kind c =
      { b with segment := b.segment ++ Percent.encodeChar Percent.inPath c } := by
    rw [push, if_neg fun hfile => hkind hfile.1]
  have hchar : Free ['/'] (Percent.encodeChar Percent.inPath c) :=
    Percent.free_encodeChar (by decide) fun mem => absurd (List.mem_singleton.mp mem) hc
  rw [hpush]
  refine ⟨fun mem => ?_, h.front, h.back, h.undotted⟩
  rcases List.mem_append.mp mem with hmem | hmem
  · exact h.slash hmem
  · exact hchar.not_mem (by decide) hmem

/-- What closing a segment leaves starts with a slash, and not with a dot for a segment. -/
theorem Building.open_close {start : List Char} {b : Building} {kind : SchemeKind}
    (hkind : kind ≠ .file) (h : b.Open start) :
    (b.close kind true).Open start ∧ (b.close kind false).before.head? = some '/' ∧
      (Url.isDotted start = false → Url.isDotted (b.close kind false).before = false) := by
  have hmem : '/' ∈ b.before := List.mem_of_getLast? h.back
  have hpop : pop kind (dropSlash b.before) = (splitLast (dropSlash b.before)).1 := by
    rw [pop_eq, if_neg fun hfile => hkind hfile.1]
  have hback := splitLast_getLast? (mem_dropSlash hmem)
  have hshorter := (splitLast_front (dropSlash b.before)).trans (dropSlash_front b.before)
  have hfront : (splitLast (dropSlash b.before)).1.head? = some '/' := by
    rw [head?_of_front hshorter fun hnil => by rw [hnil] at hback; cases hback]
    exact h.front
  have hextended : ∀ rest, (b.before ++ b.segment ++ rest).head? = some '/' := by
    intro rest
    rw [List.append_assoc, List.head?_append, h.front]
    rfl
  rw [close, close]
  simp only [hpop, if_neg fun hfile : kind = .file ∧ b.before.length = 1 ∧ isDrive b.segment =>
    hkind hfile.1]
  by_cases hdouble : isDoubleDot b.segment = true
  · simp only [if_pos hdouble, if_pos hback, if_true, Bool.false_eq_true, if_false]
    have hundotted := fun hstart => isDotted_of_front hshorter (h.undotted hstart)
    exact ⟨⟨List.not_mem_nil, hfront, hback, hundotted⟩, hfront, hundotted⟩
  · simp only [if_neg hdouble]
    by_cases hdot : isDot b.segment = true
    · simp only [if_pos hdot, if_pos h.back]
      exact ⟨⟨List.not_mem_nil, h.front, h.back, h.undotted⟩, h.front, h.undotted⟩
    · simp only [if_neg hdot, if_true, Bool.false_eq_true, if_false]
      have hundotted : ∀ rest, '.' ∉ rest → Url.isDotted start = false →
          Url.isDotted (b.before ++ b.segment ++ rest) = false := fun rest hrest hstart =>
        isDotted_segment h.front h.back (h.undotted hstart) h.slash (Bool.not_eq_true _ ▸ hdot) hrest
      exact ⟨⟨List.not_mem_nil, hextended _, List.getLast?_concat, hundotted _ (by decide)⟩,
        hextended _, hundotted _ (by decide)⟩

theorem open_foldl {start : List Char} {kind : SchemeKind} (hkind : kind ≠ .file)
    (text : List Char) {b : Building} (h : b.Open start) :
    (text.foldl (Building.step kind) b).Open start := by
  induction text generalizing b with
  | nil => exact h
  | cons c rest ih =>
    refine ih ?_
    rw [Building.step]
    split
    · exact (Building.open_close hkind h).1
    · next hc => exact Building.open_push hkind (fun heq => hc (.inl heq)) h

theorem rooted_append (kind : SchemeKind) {path : List Char} (hasHost : Bool) (text : List Char)
    (hfront : path.head? = some '/') (hback : path.getLast? = some '/') :
    (append kind path hasHost text).1.head? = some '/' ∧
      (kind ≠ .file → Url.isDotted path = false →
        Url.isDotted (append kind path hasHost text).1 = false) := by
  rw [append]
  by_cases hkind : kind = .file
  · simp only [if_pos hkind]
    exact ⟨rfl, fun hother => absurd hkind hother⟩
  · simp only [if_neg hkind]
    have hopen := open_foldl hkind text (b := { before := path, hasHost })
      ⟨List.not_mem_nil, hfront, hback, id⟩
    obtain ⟨-, hhead, hundotted⟩ := Building.open_close hkind hopen
    exact ⟨hhead, fun _ => hundotted⟩

end UrlPath

end SchemaShape
