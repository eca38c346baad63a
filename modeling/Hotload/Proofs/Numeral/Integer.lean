import Hotload.Proofs.Numeral
import Hotload.Proofs.Text.Blank

/-!
Reading an integer from digits of ASCII that blanks surround. All blanks but the four separators are skipped; a separator
is taken for a part of the numeral, and then there is none.
-/
namespace Hotload.Numeral
open Text

variable {c : Char} {before digits after s : List Char}

/-- A character that is a blank, but not next to a numeral. -/
def IsSeparator (c : Char) : Prop :=
  0x1c ≤ c.toNat ∧ c.toNat ≤ 0x1f

theorem isNumeralBlank_iff : isNumeralBlank c = true ↔ isBlank c = true ∧ ¬IsSeparator c := by
  rw [isNumeralBlank, Bool.and_eq_true, Bool.not_eq_true', ← Bool.not_eq_true, Bool.and_eq_true, decide_eq_true_eq,
    decide_eq_true_eq]
  exact Iff.rfl

theorem mem_blankPoints (h : isBlank c = true) : c.toNat ∈ blankPoints :=
  List.contains_iff_mem.1 h

/-- A blank is no part of a run of digits. -/
theorem not_run_of_isBlank (h : isBlank c = true) : (isDigit c || c = '_') = false := by
  have hzeros : ∀ p ∈ blankPoints, digitZeros.find? (fun z => z ≤ p && p ≤ z + 9) = none := by decide
  have hdigit : isDigit c = false := by
    rw [isDigit, digitValue?, hzeros _ (mem_blankPoints h)]
    rfl
  have hne : c ≠ '_' := by
    rintro rfl
    cases h
  rw [hdigit, decide_eq_false hne]
  rfl

theorem takeSign_cons (hminus : c ≠ '-') (hplus : c ≠ '+') (s : List Char) : takeSign (c :: s) = (false, c :: s) := by
  unfold takeSign
  split
  · next h => exact absurd (List.cons.inj h).1 hminus
  · next h => exact absurd (List.cons.inj h).1 hplus
  · rfl

theorem underscoresFit_of_isDigit (h : ∀ c ∈ digits, c.isDigit = true) : underscoresFit digits = true := by
  have hne : ∀ c ∈ digits, c ≠ '_' := fun c hc => ne_underscore_of_isMark (.inl (h c hc))
  induction digits with
  | nil => rfl
  | cons c r ih =>
    have hc := hne c List.mem_cons_self
    cases r with
    | nil => simpa [underscoresFit] using hc
    | cons d r =>
      rw [underscoresFit, ih (fun d hd => h d (List.mem_cons_of_mem _ hd)) fun d hd => hne d (List.mem_cons_of_mem _ hd)]
      simp [hc]

theorem length_digitValues (h : ∀ c ∈ digits, c.isDigit = true) : (digitValues digits).length = digits.length := by
  induction digits with
  | nil => rfl
  | cons c r ih =>
    rw [digitValues, List.filterMap_cons, digitValue_of_isDigit (h c List.mem_cons_self)]
    exact congrArg (· + 1) (ih fun d hd => h d (List.mem_cons_of_mem c hd))

/-- What follows the digits has to be skipped to the end. -/
theorem readInteger_digits (hblank : ∀ c ∈ before, isNumeralBlank c = true) (hne : digits ≠ [])
    (hd : ∀ c ∈ digits, c.isDigit = true) (hlen : digits.length ≤ digitLimit) (hafter : ∀ c ∈ after, isBlank c = true) :
    readInteger (before ++ digits ++ after) =
      if after.all isNumeralBlank then .ok (Nat.ofDigitChars 10 digits 0) else .error .malformed := by
  have hnoblank : ∀ c ∈ digits, isNumeralBlank c = false := fun c hc => isNumeralBlank_of_isMark (.inl (hd c hc))
  have hskip : (before ++ digits ++ after).dropWhile isNumeralBlank = digits ++ after := by
    rw [List.append_assoc]
    exact dropWhile_before hblank hnoblank hne after
  have hsign : takeSign (digits ++ after) = (false, digits ++ after) := by
    obtain ⟨c, r, rfl⟩ := List.exists_cons_of_ne_nil hne
    have hc := hd c List.mem_cons_self
    exact takeSign_cons (by rintro rfl; cases hc) (by rintro rfl; cases hc) _
  obtain ⟨hrun, hrest⟩ := run_append (p := fun c => isDigit c || c = '_') (s := digits) (t := after)
    (fun c hc => by rw [isDigit_of_isDigit (hd c hc)]; rfl)
    fun c hc => not_run_of_isBlank (hafter c (List.mem_of_mem_head? hc))
  have hhead : digits.head? ≠ some '_' := by
    obtain ⟨c, r, rfl⟩ := List.exists_cons_of_ne_nil hne
    simpa using ne_underscore_of_isMark (.inl (hd c List.mem_cons_self))
  have hvalues : (digitValues digits).isEmpty = false := by
    rw [List.isEmpty_eq_false_iff, ← List.length_pos_iff, length_digitValues hd]
    exact List.length_pos_iff.2 hne
  have hshort : ¬digitLimit < (digitValues digits).length := by
    rw [length_digitValues hd]
    exact Nat.not_lt.2 hlen
  simp only [readInteger, hskip, hsign, hrun, hrest, hhead, underscoresFit_of_isDigit hd, hvalues, if_neg hshort,
    digitValues_eq hd]
  rfl

/-- A text without a digit at its start is no numeral. -/
theorem readInteger_of_skip (hskip : s.dropWhile isNumeralBlank = c :: after) (hminus : c ≠ '-') (hplus : c ≠ '+')
    (hrun : (isDigit c || c = '_') = false) : readInteger s = .error .malformed := by
  have htake : (c :: after).takeWhile (fun c => isDigit c || c = '_') = [] := by
    rw [List.takeWhile_cons, hrun, if_neg Bool.false_ne_true]
  simp only [readInteger, hskip, takeSign_cons hminus hplus, htake]
  rfl

/-- At a separator in front of the digits there is no numeral. -/
theorem readInteger_separator (hblank : ∀ c ∈ before, isBlank c = true) (hsep : ∃ c ∈ before, IsSeparator c) (s : List Char) :
    readInteger (before ++ s) = .error .malformed := by
  obtain ⟨d, hd, hdsep⟩ := hsep
  obtain ⟨skipped, hbefore, hskipped⟩ := exists_dropWhile isNumeralBlank before
  have hne : before.dropWhile isNumeralBlank ≠ [] := fun h =>
    (isNumeralBlank_iff.1 (List.dropWhile_eq_nil_iff.1 h d hd)).2 hdsep
  obtain ⟨c, r, hcons⟩ := List.exists_cons_of_ne_nil hne
  have hstop : isNumeralBlank c = false := by
    have hhead := List.head_dropWhile_not isNumeralBlank hne
    simpa only [hcons, List.head_cons] using hhead
  rw [hcons] at hbefore
  have hc : isBlank c = true := hblank c (by simp [hbefore])
  have hcsep : IsSeparator c := by
    by_contra hnsep
    rw [isNumeralBlank_iff.2 ⟨hc, hnsep⟩] at hstop
    cases hstop
  have hskip : (before ++ s).dropWhile isNumeralBlank = c :: (r ++ s) := by
    rw [hbefore, List.append_assoc, List.dropWhile_append_of_pos hskipped, List.cons_append, List.dropWhile_cons, hstop,
      if_neg Bool.false_ne_true]
  exact readInteger_of_skip hskip (by rintro rfl; cases hc) (by rintro rfl; cases hc) (not_run_of_isBlank hc)

/-- Digits are read just if none of the blanks around them is a separator. -/
theorem readInteger_blanks (hne : digits ≠ []) (hd : ∀ c ∈ digits, c.isDigit = true) (hlen : digits.length ≤ digitLimit)
    (hblank : ∀ c ∈ before ++ after, isBlank c = true) :
    readInteger (before ++ digits ++ after) = .ok (Nat.ofDigitChars 10 digits 0) ∧
        (∀ c ∈ before ++ digits ++ after, ¬IsSeparator c) ∨
      readInteger (before ++ digits ++ after) = .error .malformed ∧ ∃ c ∈ before ++ digits ++ after, IsSeparator c := by
  have hbefore : ∀ c ∈ before, isBlank c = true := fun c hc => hblank c (List.mem_append_left _ hc)
  have hafter : ∀ c ∈ after, isBlank c = true := fun c hc => hblank c (List.mem_append_right _ hc)
  by_cases hsep : ∃ c ∈ before, IsSeparator c
  · obtain ⟨c, hc, hcsep⟩ := hsep
    rw [List.append_assoc]
    exact .inr ⟨readInteger_separator hbefore ⟨c, hc, hcsep⟩ _, c, List.mem_append_left _ hc, hcsep⟩
  · have hskip : ∀ c ∈ before, isNumeralBlank c = true := fun c hc =>
      isNumeralBlank_iff.2 ⟨hbefore c hc, fun h => hsep ⟨c, hc, h⟩⟩
    rw [readInteger_digits hskip hne hd hlen hafter]
    by_cases hrest : ∃ c ∈ after, IsSeparator c
    · obtain ⟨c, hc, hcsep⟩ := hrest
      have hall : ¬after.all isNumeralBlank = true := fun h =>
        (isNumeralBlank_iff.1 (List.all_eq_true.1 h c hc)).2 hcsep
      exact .inr ⟨if_neg hall, c, List.mem_append_right _ hc, hcsep⟩
    · have hall : after.all isNumeralBlank = true := List.all_eq_true.2 fun c hc =>
        isNumeralBlank_iff.2 ⟨hafter c hc, fun h => hrest ⟨c, hc, h⟩⟩
      refine .inl ⟨if_pos hall, fun c hc hcsep => ?_⟩
      obtain hc | hc := List.mem_append.1 hc
      · obtain hc | hc := List.mem_append.1 hc
        · exact hsep ⟨c, hc, hcsep⟩
        · have hdigit := (isDigit_iff_toNat.1 (hd c hc)).1
          have hupper := hcsep.2
          omega
      · exact hrest ⟨c, hc, hcsep⟩

end Hotload.Numeral
