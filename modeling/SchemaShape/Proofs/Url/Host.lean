import SchemaShape.Proofs.Url.Text

/-! # Characters of hosts and users

Whatever an authority is read from, what it prints has no character that would end it: percent-encoding
and Punycode put letters, digits, hyphens and percent signs in, addresses are digits between points or
colons, and a domain name with any other mark is refused.
-/

namespace SchemaShape
set_option autoImplicit false

variable {marks text : List Char}

/-! ## Texts put together -/

theorem free_intercalate {separator : List Char} {pieces : List (List Char)}
    (hseparator : Free marks separator) (h : ∀ piece ∈ pieces, Free marks piece) :
    Free marks (separator.intercalate pieces) := by
  induction pieces with
  | nil => exact free_nil
  | cons first rest ih =>
    have hrest := ih fun piece mem => h piece (List.mem_cons_of_mem _ mem)
    have hfirst := h first (List.mem_cons_self ..)
    cases rest with
    | nil =>
      rw [List.intercalate_singleton]
      exact hfirst
    | cons second rest =>
      rw [List.intercalate_cons_cons]
      exact free_append.mpr ⟨free_append.mpr ⟨hfirst, hseparator⟩, hrest⟩

theorem free_pieces {separator : Char} (h : Free marks text) :
    ∀ piece ∈ Text.pieces separator text, Free marks piece := by
  induction text with
  | nil =>
    intro piece mem
    rw [Text.pieces, List.mem_singleton] at mem
    exact mem ▸ free_nil
  | cons c rest ih =>
    obtain ⟨hc, hrest⟩ := free_cons.mp h
    intro piece mem
    rw [Text.pieces] at mem
    split at mem
    · rcases List.mem_cons.mp mem with rfl | hmem
      · exact free_nil
      · exact ih hrest piece hmem
    · split at mem
      · rw [List.mem_singleton] at mem
        exact mem ▸ free_cons.mpr ⟨hc, free_nil⟩
      · next first others hpieces =>
        have hih := ih hrest
        rw [hpieces] at hih
        rcases List.mem_cons.mp mem with rfl | hmem
        · exact free_cons.mpr ⟨hc, hih first (List.mem_cons_self ..)⟩
        · exact hih piece (List.mem_cons_of_mem _ hmem)

theorem exists_of_mem_mapM {α β : Type} {f : α → Option β} {xs : List α} {ys : List β} {y : β}
    (h : xs.mapM f = some ys) (mem : y ∈ ys) : ∃ x ∈ xs, f x = some y := by
  induction xs generalizing ys with
  | nil =>
    cases h
    cases mem
  | cons x rest ih =>
    rw [List.mapM_cons] at h
    obtain ⟨first, hfirst, h⟩ := Option.bind_eq_some_iff.mp h
    obtain ⟨others, hothers, h⟩ := Option.bind_eq_some_iff.mp h
    cases h
    rcases List.mem_cons.mp mem with rfl | hmem
    · exact ⟨x, List.mem_cons_self .., hfirst⟩
    · obtain ⟨x', mem', hx'⟩ := ih hothers hmem
      exact ⟨x', List.mem_cons_of_mem _ mem', hx'⟩

/-! ## Encoded texts -/

theorem mem_hexDigits {width value : Nat} {c : Char} (h : c ∈ Text.hexDigits width value) :
    ∃ digit < 16, c = Nat.digitChar digit := by
  have hdigits : ∀ value, ∀ c ∈ Nat.toDigits 16 value, ∃ digit < 16, c = Nat.digitChar digit := by
    intro value
    induction value using Nat.strongRecOn with
    | _ value ih =>
      intro c mem
      rw [Nat.toDigits_eq_if (by decide)] at mem
      split at mem
      · next hsmall => exact ⟨value, hsmall, List.mem_singleton.mp mem⟩
      · rcases List.mem_append.mp mem with hmem | hmem
        · exact ih (value / 16) (by omega) c hmem
        · exact ⟨value % 16, Nat.mod_lt _ (by decide), List.mem_singleton.mp hmem⟩
  rcases List.mem_append.mp h with hmem | hmem
  · exact ⟨0, by decide, (List.mem_replicate.mp hmem).2⟩
  · exact hdigits value c hmem

theorem free_hexDigits {width value : Nat} (hmarks : ∀ digit < 16, Nat.digitChar digit ∉ marks) :
    Free marks (Text.hexDigits width value) := by
  intro c mem
  obtain ⟨digit, hdigit, rfl⟩ := mem_hexDigits mem
  exact hmarks digit hdigit

namespace Percent

/-- The marks are none of the characters that percent-encoding puts in. -/
def Spared (marks : List Char) : Prop :=
  '%' ∉ marks ∧ ∀ digit < 16, (Nat.digitChar digit).toUpper ∉ marks

instance (marks : List Char) : Decidable (Spared marks) :=
  inferInstanceAs (Decidable (_ ∧ _))

theorem free_encodeChar {unsafeChar : Char → Bool} {c : Char} (spared : Spared marks)
    (h : c ∈ marks → unsafeChar c = true) : Free marks (encodeChar unsafeChar c) := by
  rw [encodeChar]
  split
  · intro d mem
    obtain ⟨b, -, hmem⟩ := List.mem_flatMap.mp mem
    rcases List.mem_cons.mp hmem with rfl | hdigit
    · exact spared.1
    · obtain ⟨plain, hplain, rfl⟩ := List.mem_map.mp hdigit
      obtain ⟨value, hvalue, rfl⟩ := mem_hexDigits hplain
      exact spared.2 value hvalue
  · next hsafe => exact free_cons.mpr ⟨fun mem => hsafe (h mem), free_nil⟩

theorem free_encode {unsafeChar : Char → Bool} (spared : Spared marks)
    (h : ∀ c ∈ text, c ∈ marks → unsafeChar c = true) : Free marks (encode unsafeChar text) := by
  intro d mem
  obtain ⟨c, hc, hmem⟩ := List.mem_flatMap.mp mem
  exact free_encodeChar spared (h c hc) d hmem

end Percent

/-! ## Addresses -/

theorem Address.free_ipv4Text {bits : Nat} (hpoint : '.' ∉ marks)
    (hdigits : ∀ c ∈ marks, c.isDigit = false) : Free marks (ipv4Text bits).toList := by
  rw [ipv4Text, String.toList_intercalate]
  refine free_intercalate (free_cons.mpr ⟨hpoint, free_nil⟩) fun piece mem c hc hmark => ?_
  obtain ⟨group, hgroup, rfl⟩ := List.mem_map.mp mem
  obtain ⟨position, -, rfl⟩ := List.mem_map.mp hgroup
  have hdigit := Nat.isDigit_of_mem_toDigits (by decide) (by decide)
    ((Nat.toList_repr (n := bits / Nat.pow 256 position % 256)) ▸ hc)
  rw [hdigits c hmark] at hdigit
  cases hdigit

theorem Address.free_ipv6Text {groups : List Nat} (hcolon : ':' ∉ marks)
    (hdigits : ∀ digit < 16, Nat.digitChar digit ∉ marks) :
    Free marks (ipv6Text groups).toList := by
  have hgroups : ∀ groups, Free marks (groupsText groups).toList := by
    intro groups
    rw [groupsText, String.toList_intercalate]
    refine free_intercalate (free_cons.mpr ⟨hcolon, free_nil⟩) fun piece mem => ?_
    obtain ⟨group, hgroup, rfl⟩ := List.mem_map.mp mem
    obtain ⟨value, -, rfl⟩ := List.mem_map.mp hgroup
    rw [String.toList_ofList]
    exact free_hexDigits hdigits
  rw [ipv6Text]
  split
  · exact hgroups groups
  · rw [String.toList_append, String.toList_append]
    exact free_append.mpr ⟨free_append.mpr ⟨hgroups _,
      free_cons.mpr ⟨hcolon, free_cons.mpr ⟨hcolon, free_nil⟩⟩⟩, hgroups _⟩

/-! ## Letters in lower case -/

theorem toLower_eq_mark {c mark : Char} (hmark : mark.toNat ≤ 0x60) (h : c.toLower = mark) :
    c = mark := by
  by_cases hupper : c.val ≥ 'A'.val ∧ c.val ≤ 'Z'.val
  · have hshift : ('a'.val - 'A'.val).toNat = 32 := rfl
    have hcode : mark.toNat = (c.val + ('a'.val - 'A'.val)).toNat := by
      rw [← h]
      exact congrArg Char.toNat (dif_pos hupper)
    have hlow : 65 ≤ c.val.toNat := hupper.1
    have hhigh : c.val.toNat ≤ 90 := hupper.2
    rw [UInt32.toNat_add, hshift] at hcode
    omega
  · exact (dif_neg hupper).symm.trans h

theorem toNat_ofNat (code : Nat) :
    (Char.ofNat code).toNat = code ∨ (Char.ofNat code).toNat = 0 := by
  by_cases hvalid : code.isValidChar
  · exact .inl (congrArg Char.toNat (dif_pos hvalid))
  · exact .inr (congrArg Char.toNat (dif_neg hvalid))

/-- The lower case of a letter outside ASCII is a letter in lower case. -/
theorem Text.lowerRuns_above : ∀ run ∈ lowerRuns, 0x60 < run.first + run.shift := by
  decide +kernel

theorem Text.free_lower {c : Char} (hmarks : ∀ mark ∈ marks, 0 < mark.toNat ∧ mark.toNat ≤ 0x60)
    (h : c ∉ marks) : Free marks (lower c) := by
  have hsingle : ∀ code, 0x60 < code → Free marks [Char.ofNat code] := by
    intro code hcode
    refine free_cons.mpr ⟨fun mem => ?_, free_nil⟩
    obtain ⟨hpositive, hbound⟩ := hmarks _ mem
    rcases toNat_ofNat code with hcode' | hcode' <;> omega
  rw [lower]
  split
  · refine free_cons.mpr ⟨fun mem => ?_, free_nil⟩
    exact h (toLower_eq_mark (hmarks _ mem).2 rfl ▸ mem)
  · next hcode =>
    split
    · refine free_cons.mpr ⟨fun mem => ?_, hsingle 0x307 (by decide)⟩
      exact absurd (hmarks _ mem).2 (by decide)
    · refine hsingle _ ?_
      cases hrun : lowerRuns.findSome? (·.image? c.toNat) with
      | none =>
        rw [Option.getD_none]
        omega
      | some code =>
        obtain ⟨run, mem, himage⟩ := List.exists_of_findSome?_eq_some hrun
        have habove := lowerRuns_above run mem
        rw [CaseRun.image?] at himage
        split at himage
        · next hrange =>
          cases himage
          rw [Option.getD_some]
          omega
        · cases himage

/-! ## Punycode -/

namespace Punycode

theorem mem_digits {bias scale value digit : Nat} (h : digit ∈ digits bias scale value) :
    digit < 36 := by
  induction scale, value using digits.induct bias with
  | case1 scale value least hsmall =>
    rw [digits, if_pos hsmall, List.mem_singleton] at h
    have hleast : least ≤ 26 := by simp only [least, threshold]; omega
    omega
  | case2 scale value least hlarge ih =>
    have hleast : least ≤ 26 := by simp only [least, threshold]; omega
    rw [digits, if_neg hlarge] at h
    rcases List.mem_cons.mp h with heq | hmem
    · have hrest := Nat.mod_lt (value - least) (show 0 < 36 - least by omega)
      have hdigit : digit = least + (value - least) % (36 - least) := heq
      omega
    · exact ih hmem

variable (hdigits : ∀ digit < 36, digitChar digit ∉ marks)

include hdigits

theorem Writer.free_pass {code : Nat} {w : Writer} (h : Free marks w.written) (c : Char) :
    Free marks (w.pass code c).written := by
  rw [pass]
  split
  · exact h
  · split
    · refine free_append.mpr ⟨h, fun d mem => ?_⟩
      obtain ⟨digit, hmem, rfl⟩ := List.mem_map.mp mem
      exact hdigits digit (mem_digits hmem)
    · exact h

theorem Writer.free_writeCodes {label : List Char} {start : Nat} {codes : List Nat} {w : Writer}
    (h : Free marks w.written) : Free marks (writeCodes label start codes w).written := by
  induction codes generalizing start w with
  | nil => exact h
  | cons code rest ih =>
    have hfold : ∀ (label : List Char) (w : Writer), Free marks w.written →
        Free marks (label.foldl (pass code) w).written := by
      intro label
      induction label with
      | nil => exact fun _ h => h
      | cons c others ih => exact fun w h => ih _ (w.free_pass hdigits h c)
    exact ih (hfold label _ h)

theorem free_encode {label : List Char} (hhyphen : '-' ∉ marks) (h : Free marks label) :
    Free marks (encode label) := by
  refine Writer.free_writeCodes hdigits ?_
  split
  · exact free_nil
  · exact free_append.mpr ⟨h.subset (List.filter_subset_self ..), free_cons.mpr ⟨hhyphen, free_nil⟩⟩

end Punycode

/-! ## Hosts -/

/-- The characters that end a host. -/
def hostMarks : List Char := [':', '/', '?', '#', '@']

namespace Domain

theorem free_image {c : Char} {image : List Char} (h : image? c = some image) :
    Free hostMarks image := by
  have hforbidden : ∀ c, isForbidden c = false → c ∉ hostMarks := by
    intro c hfalse mem
    have hmarks : ∀ mark ∈ hostMarks, isForbidden mark = true := forall_marks (by decide)
    rw [hmarks c mem] at hfalse
    cases hfalse
  rw [image?] at h
  split at h
  · cases h
  · next hallowed =>
    rw [Bool.or_eq_true, not_or, Bool.not_eq_true, Bool.not_eq_true] at hallowed
    split at h
    · cases h
    · split at h
      · cases h
        exact free_nil
      · split at h
        · cases h
          decide
        · split at h
          · simp only at h
            split at h
            · cases h
            · next hplain =>
              cases h
              exact free_cons.mpr ⟨hforbidden _ (Bool.not_eq_true _ ▸ hplain), free_nil⟩
          · cases h
            exact Text.free_lower (forall_marks (by decide)) (hforbidden c hallowed.2)

theorem free_labelToAscii {label coded : List Char} (hlabel : Free hostMarks label)
    (h : labelToAscii? label = some coded) : Free hostMarks coded := by
  rw [labelToAscii?] at h
  split at h
  · split at h
    · cases h
      exact hlabel
    · cases h
  · split at h
    · cases h
      exact hlabel
    · split at h
      · cases h
        exact free_append.mpr ⟨by decide, Punycode.free_encode (by decide) (by decide) hlabel⟩
      · cases h

theorem free_toAscii {domain ascii : List Char} (h : toAscii? domain = some ascii) :
    Free hostMarks ascii := by
  obtain ⟨mapped, hmapped, h⟩ := Option.bind_eq_some_iff.mp h
  obtain ⟨labels, hlabels, h⟩ := Option.bind_eq_some_iff.mp h
  cases h
  have hfree : Free hostMarks mapped.flatten := by
    intro c mem
    obtain ⟨image, hmem, hc⟩ := List.mem_flatten.mp mem
    obtain ⟨source, -, himage⟩ := exists_of_mem_mapM hmapped hmem
    exact free_image himage c hc
  refine free_intercalate (by decide) fun piece mem => ?_
  obtain ⟨label, hmem, hpiece⟩ := exists_of_mem_mapM hlabels mem
  exact free_labelToAscii (free_pieces hfree label hmem) hpiece

end Domain

/-- A text that may stand for a host: it is not ended before its end, and colons are in brackets. -/
def IsHost (host : String) : Prop :=
  Free ['/', '?', '#', '@'] host.toList ∧ (':' ∉ host.toList ∨ host.toList.getLast? = some ']')

namespace Host

theorem isHost_of_free {host : String} (h : Free hostMarks host.toList) : IsHost host :=
  ⟨fun c mem hmark => h c mem (List.mem_cons_of_mem _ hmark), .inl (h.not_mem (by decide))⟩

theorem isHost_bracketed {text : List Char} {host : String}
    (h : bracketed? text = some (.ok host)) : IsHost host := by
  unfold bracketed? at h
  split at h
  · rw [Option.some.injEq] at h
    split at h
    · split at h
      · next groups _ =>
        cases h
        rw [IsHost, String.toList_append, String.toList_append]
        refine ⟨free_append.mpr ⟨free_append.mpr ⟨by decide, ?_⟩, by decide⟩, .inr ?_⟩
        · exact Address.free_ipv6Text (by decide) (by decide)
        · exact List.getLast?_concat
      · cases h
    · cases h
  · cases h

theorem isHost_ofDomain {text : List Char} {host : String} (h : ofDomain text = .ok host) :
    IsHost host := by
  rw [ofDomain] at h
  split at h
  · next hbracketed => exact isHost_bracketed (h ▸ hbracketed)
  · split at h
    · cases h
    · cases h
    · next domain _ hascii =>
      obtain ⟨decoded, -, hascii⟩ := Option.bind_eq_some_iff.mp hascii
      split at h
      · split at h
        · cases h
          exact isHost_of_free (Address.free_ipv4Text (by decide) (forall_marks (by decide)))
        · cases h
      · cases h
        refine isHost_of_free ?_
        rw [String.toList_ofList]
        exact Domain.free_toAscii hascii

theorem isHost_ofOpaque {text : List Char} {host : String} (h : ofOpaque text = .ok host) :
    IsHost host := by
  rw [ofOpaque] at h
  split at h
  · next hbracketed => exact isHost_bracketed (h ▸ hbracketed)
  · split at h
    · cases h
    · next hallowed =>
      cases h
      refine isHost_of_free ?_
      rw [String.toList_ofList]
      refine Percent.free_encode (by decide) fun c mem hmark => absurd ?_ hallowed
      have hmarks : ∀ mark ∈ hostMarks, isForbidden mark = true := forall_marks (by decide)
      exact List.any_eq_true.mpr ⟨c, mem, hmarks c hmark⟩

end Host

/-! ## Authorities -/

namespace Authority

theorem free_userinfoText (text : List Char) :
    Free ['/', '?', '#'] (userinfoText text).toList ∧
      (userinfoText text = "" ∨ ∃ user, userinfoText text = user ++ "@") := by
  have hencode : ∀ text, Free ['/', '?', '#'] (Percent.encode Percent.inUserinfo text) := by
    have hmarks : ∀ mark ∈ ['/', '?', '#'], Percent.inUserinfo mark = true :=
      forall_marks (by decide)
    exact fun text => Percent.free_encode (by decide) fun c _ hmark => hmarks c hmark
  rw [userinfoText]
  split
  · exact ⟨free_nil, .inl rfl⟩
  · constructor
    · rw [String.toList_ofList]
      refine free_append.mpr ⟨free_append.mpr ⟨hencode _, ?_⟩, by decide⟩
      split
      · exact free_nil
      · exact free_cons.mpr ⟨by decide, hencode _⟩
    · exact .inr ⟨_, String.ofList_append⟩

theorem formed_of {userinfo host : String} {port : Option Nat}
    (huser : Free ['/', '?', '#'] userinfo.toList ∧ (userinfo = "" ∨ ∃ user, userinfo = user ++ "@"))
    (hhost : IsHost host) : Formed { userinfo, host, port } :=
  ⟨huser.1, huser.2, hhost.1, hhost.2⟩

end Authority

end SchemaShape
