import Hotload.Proofs.CommandLine.Start
import Hotload.Proofs.Numeral
import Hotload.Proofs.Text.Blank

/-!
Which delays are accepted. A text is accepted if it is digits of ASCII with blanks around them whose number a timer can
wait, and a number if a timer can wait it. What is refused is reported as a launch failure, with two exceptions: more
digits than may be read, and an integer of more digits than may be shown.
-/
namespace Hotload.Delay

open Text Numeral

/-- A text is some digits with blanks around them. -/
structure Writes (digits s : List Char) : Prop where
  ne_nil : digits ≠ []
  isDigit : ∀ c ∈ digits, c.isDigit = true
  within : ∃ before after, s = before ++ digits ++ after ∧ ∀ c ∈ before ++ after, isBlank c = true

variable {digits s : List Char} {text : String} {n i : Int} {f : Failure}

theorem isAsciiDigit_eq (c : Char) : isAsciiDigit c = c.isDigit := by
  rw [Bool.eq_iff_iff, isDigit_iff_toNat, isAsciiDigit, Bool.and_eq_true, decide_eq_true_eq, decide_eq_true_eq]

theorem asciiDigitValues_eq (h : ∀ c ∈ digits, c.isDigit = true) :
    ofDigits (digits.filterMap asciiDigitValue?) = Nat.ofDigitChars 10 digits 0 := by
  rw [← digitValues_eq h, digitValues]
  congr 1
  refine List.filterMap_congr fun c hc => ?_
  obtain ⟨hl, hh⟩ := isDigit_iff_toNat.1 (h c hc)
  rw [digitValue_of_isDigit (h c hc), asciiDigitValue?, if_pos (by simp [hl, hh])]
  rfl

theorem isBlank_of_isDigit {c : Char} (h : c.isDigit = true) : isBlank c = false := by
  obtain ⟨hl, hh⟩ := isDigit_iff_toNat.1 h
  simp [isBlank, blankPoints]
  omega

theorem isNumeral_iff : isNumeral digits = true ↔ digits ≠ [] ∧ ∀ c ∈ digits, c.isDigit = true := by
  rw [isNumeral, Bool.and_eq_true, Bool.not_eq_true', List.isEmpty_eq_false_iff, List.all_eq_true]
  simp only [isAsciiDigit_eq]

/-- Trimming gives the digits back. -/
theorem Writes.trim_eq (h : Writes digits s) : trim s = digits := by
  obtain ⟨before, after, rfl, hblank⟩ := h.within
  exact trimBy_append hblank (fun c hc => isBlank_of_isDigit (h.isDigit c hc)) h.ne_nil

theorem writes_trim (h : isNumeral (trim s) = true) : Writes (trim s) s := by
  obtain ⟨hne, hdigits⟩ := isNumeral_iff.1 h
  exact ⟨hne, hdigits, exists_trimBy isBlank s⟩

theorem Writes.unique {digits' : List Char} (h : Writes digits s) (h' : Writes digits' s) : digits = digits' :=
  h.trim_eq.symm.trans h'.trim_eq

theorem number_of_writes (h : Writes digits text.toList) :
    number (.text text) = if digitLimit < digits.length then .error (.tooManyDigits digits.length)
      else .ok (Nat.ofDigitChars 10 digits 0) := by
  have hshown : (Value.text text).shown = text := rfl
  simp only [number, hshown, h.trim_eq, isNumeral_iff.2 ⟨h.ne_nil, h.isDigit⟩, if_true, asciiDigitValues_eq h.isDigit]

theorem number_of_not_writes (h : ∀ digits, ¬Writes digits text.toList) :
    number (.text text) = .error (.invalidDelay text) := by
  have hnumeral : ¬isNumeral (trim text.toList) = true := fun hn => h _ (writes_trim hn)
  have hshown : (Value.text text).shown = text := rfl
  simp only [number, hshown, if_neg hnumeral]
  rfl

/-- The ways in which a text is read. -/
inductive Reading (text : String) : Outcome Int → Prop where
  | delay {digits : List Char} : Writes digits text.toList → digits.length ≤ digitLimit →
      Nat.ofDigitChars 10 digits 0 ≤ limit → Reading text (.ok (Nat.ofDigitChars 10 digits 0))
  | tooLong {digits : List Char} : Writes digits text.toList → digits.length ≤ digitLimit →
      limit < Nat.ofDigitChars 10 digits 0 → Reading text (.error (.delayTooLong text limit))
  | tooManyDigits {digits : List Char} : Writes digits text.toList → digitLimit < digits.length →
      Reading text (.error (.tooManyDigits digits.length))
  | malformed : (∀ digits, ¬Writes digits text.toList) → Reading text (.error (.invalidDelay text))

theorem reading_parse (text : String) : Reading text (parse (.text text)) := by
  by_cases hw : ∃ digits, Writes digits text.toList
  · obtain ⟨digits, hw⟩ := hw
    rw [parse, number_of_writes hw]
    by_cases hd : digitLimit < digits.length
    · rw [if_pos hd]
      exact .tooManyDigits hw hd
    · have hnonneg : ¬(Nat.ofDigitChars 10 digits 0 : Int) < 0 := by omega
      rw [if_neg hd]
      simp only [bind, Except.bind, if_neg hnonneg, Int.ofNat_lt]
      split
      · next hl => exact .tooLong hw (Nat.not_lt.1 hd) hl
      · next hl => exact .delay hw (Nat.not_lt.1 hd) (Nat.not_lt.1 hl)
  · have hnone : ∀ digits, ¬Writes digits text.toList := fun digits h => hw ⟨digits, h⟩
    rw [parse, number_of_not_writes hnone]
    exact .malformed hnone

theorem parse_int (i : Int) :
    parse (.int i) = if 0 ≤ i ∧ i ≤ limit then .ok i
      else if i < 0 then .error (refusal (.int i) .invalidDelay) else .error (refusal (.int i) (.delayTooLong · limit)) := by
  simp only [parse, number, bind, Except.bind]
  by_cases hneg : i < 0
  · rw [if_pos hneg, if_neg (by omega), if_pos hneg]
  · by_cases hl : (limit : Int) < i
    · rw [if_neg hneg, if_pos hl, if_neg (by omega), if_neg hneg]
    · rw [if_neg hneg, if_neg hl, if_pos (by omega)]
      rfl

theorem isShowable_int : (Value.int i).isShowable = true ↔ i.natAbs < 10 ^ digitLimit := by
  rw [Value.isShowable, decide_eq_true_eq, Binary64.pow10_eq]

/-- A number that is refused is reported as a launch failure if it can be shown. -/
theorem kind_refusal {report : String → Failure} (hr : ∀ given, (report given).kind = .own .launch) :
    (refusal (.int i) report).kind = .own .launch ∧ i.natAbs < 10 ^ digitLimit ∨
      refusal (.int i) report = .tooLongToShow ∧ ¬i.natAbs < 10 ^ digitLimit := by
  rw [refusal, ← isShowable_int]
  cases (Value.int i).isShowable with
  | true => exact .inl ⟨hr _, rfl⟩
  | false => exact .inr ⟨rfl, Bool.false_ne_true⟩

theorem parse_int_refused (h : ¬(0 ≤ i ∧ i ≤ limit)) : ∃ f, parse (.int i) = .error f := by
  rw [parse_int, if_neg h]
  split <;> exact ⟨_, rfl⟩

theorem parse_int_error (h : parse (.int i) = .error f) : ¬(0 ≤ i ∧ i ≤ limit) ∧
    (f.kind = .own .launch ∧ i.natAbs < 10 ^ digitLimit ∨ f = .tooLongToShow ∧ ¬i.natAbs < 10 ^ digitLimit) := by
  rw [parse_int] at h
  split at h
  · cases h
  · next hi =>
    refine ⟨hi, ?_⟩
    split at h
    · rw [← Except.error.inj h]
      exact kind_refusal fun _ => rfl
    · rw [← Except.error.inj h]
      exact kind_refusal fun _ => rfl

theorem parse_text_ok_iff : parse (.text text) = .ok n ↔ ∃ digits, Writes digits text.toList ∧
    digits.length ≤ digitLimit ∧ n = Nat.ofDigitChars 10 digits 0 ∧ n ≤ limit := by
  constructor
  · intro h
    have hr := reading_parse text
    rw [h] at hr
    cases hr with
    | delay hw hd hl => exact ⟨_, hw, hd, rfl, Int.ofNat_le.2 hl⟩
  · rintro ⟨digits, hw, hd, rfl, hl⟩
    have hr := reading_parse text
    generalize parse (.text text) = r at hr ⊢
    cases hr with
    | delay hw' => rw [hw.unique hw']
    | tooLong hw' _ hl' =>
      rw [hw.unique hw'] at hl
      omega
    | tooManyDigits hw' hd' =>
      rw [hw.unique hw'] at hd
      omega
    | malformed hnone => exact absurd hw (hnone digits)

theorem parse_text_launch_iff : (∃ f, parse (.text text) = .error f ∧ f.kind = .own .launch) ↔
    ∀ digits, Writes digits text.toList → digits.length ≤ digitLimit ∧ limit < Nat.ofDigitChars 10 digits 0 := by
  constructor
  · rintro ⟨f, h, hf⟩ digits hw
    have hr := reading_parse text
    rw [h] at hr
    cases hr with
    | tooLong hw' hd hl =>
      rw [hw.unique hw']
      exact ⟨hd, hl⟩
    | tooManyDigits => cases hf
    | malformed hnone => exact absurd hw (hnone digits)
  · intro h
    have hr := reading_parse text
    generalize parse (.text text) = r at hr ⊢
    cases hr with
    | delay hw _ hl => exact absurd hl (Nat.not_le.2 (h _ hw).2)
    | tooLong => exact ⟨_, rfl, rfl⟩
    | tooManyDigits hw hd => exact absurd (h _ hw).1 (Nat.not_le.2 hd)
    | malformed => exact ⟨_, rfl, rfl⟩

theorem parse_text_tooManyDigits_iff {count : Nat} : parse (.text text) = .error (.tooManyDigits count) ↔
    ∃ digits, Writes digits text.toList ∧ digitLimit < digits.length ∧ count = digits.length := by
  constructor
  · intro h
    have hr := reading_parse text
    rw [h] at hr
    cases hr with
    | tooManyDigits hw hd => exact ⟨_, hw, hd, rfl⟩
  · rintro ⟨digits, hw, hd, rfl⟩
    rw [parse, number_of_writes hw, if_pos hd]
    rfl

theorem parse_int_ok_iff : parse (.int i) = .ok n ↔ n = i ∧ 0 ≤ i ∧ i ≤ limit := by
  constructor
  · intro h
    by_cases hi : 0 ≤ i ∧ i ≤ limit
    · rw [parse_int, if_pos hi] at h
      cases h
      exact ⟨rfl, hi⟩
    · obtain ⟨f, hf⟩ := parse_int_refused hi
      rw [hf] at h
      cases h
  · rintro ⟨rfl, hi⟩
    rw [parse_int, if_pos hi]

theorem parse_int_launch_iff : (∃ f, parse (.int i) = .error f ∧ f.kind = .own .launch) ↔
    ¬(0 ≤ i ∧ i ≤ limit) ∧ i.natAbs < 10 ^ digitLimit := by
  constructor
  · rintro ⟨f, h, hf⟩
    obtain ⟨hi, ⟨-, hsmall⟩ | ⟨rfl, -⟩⟩ := parse_int_error h
    · exact ⟨hi, hsmall⟩
    · cases hf
  · rintro ⟨hi, hsmall⟩
    obtain ⟨f, h⟩ := parse_int_refused hi
    obtain ⟨-, ⟨hf, -⟩ | ⟨-, hlarge⟩⟩ := parse_int_error h
    · exact ⟨f, h, hf⟩
    · exact absurd hsmall hlarge

theorem limit_lt : limit < 10 ^ digitLimit :=
  calc limit < 10 ^ 13 := by decide
    _ ≤ 10 ^ digitLimit := Nat.pow_le_pow_right (by norm_num) (by decide)

theorem parse_int_tooLong_iff : parse (.int i) = .error .tooLongToShow ↔ 10 ^ digitLimit ≤ i.natAbs := by
  constructor
  · intro h
    obtain ⟨-, ⟨hkind, -⟩ | ⟨-, hlarge⟩⟩ := parse_int_error h
    · cases hkind
    · exact Nat.not_lt.1 hlarge
  · intro hlarge
    have hlimit := limit_lt
    obtain ⟨f, h⟩ := parse_int_refused (i := i) (by omega)
    obtain ⟨-, ⟨-, hsmall⟩ | ⟨rfl, -⟩⟩ := parse_int_error h
    · exact absurd hsmall (Nat.not_lt.2 hlarge)
    · exact h

/-- A text is accepted just if it writes a number that a timer can wait with digits that can be read, and any other one is
reported as a launch failure unless it has too many digits; a number is accepted just if a timer can wait it, and any other
one is reported as a launch failure unless it is too long to show. Whatever is refused, nothing is done on its account. -/
theorem parse_ok_iff (text : String) (i n : Int) :
    (parse (.text text) = .ok n ↔ ∃ digits, Writes digits text.toList ∧ digits.length ≤ digitLimit ∧
      n = Nat.ofDigitChars 10 digits 0 ∧ n ≤ limit) ∧
    ((∃ f, parse (.text text) = .error f ∧ f.kind = .own .launch) ↔
      ∀ digits, Writes digits text.toList → digits.length ≤ digitLimit ∧ limit < Nat.ofDigitChars 10 digits 0) ∧
    (∀ count, parse (.text text) = .error (.tooManyDigits count) ↔
      ∃ digits, Writes digits text.toList ∧ digitLimit < digits.length ∧ count = digits.length) ∧
    (parse (.int i) = .ok n ↔ n = i ∧ 0 ≤ i ∧ i ≤ limit) ∧
    ((∃ f, parse (.int i) = .error f ∧ f.kind = .own .launch) ↔ ¬(0 ≤ i ∧ i ≤ limit) ∧ i.natAbs < 10 ^ digitLimit) ∧
    (parse (.int i) = .error .tooLongToShow ↔ 10 ^ digitLimit ≤ i.natAbs) ∧
    ∀ given library entry delay h settings f, Settings.load h.platform.basis h.environment = .ok settings →
      parse ((delay.map Value.text).getD (.int settings.reloadDelay)) = .error f →
        CommandLine.runStart given library entry delay h = (.error f, h) :=
  ⟨parse_text_ok_iff, parse_text_launch_iff, fun _ => parse_text_tooManyDigits_iff, parse_int_ok_iff, parse_int_launch_iff,
    parse_int_tooLong_iff, fun _ _ _ _ _ _ _ => CommandLine.runStart_of_refused⟩

/-- Letters are refused at the start, and nothing is loaded. -/
theorem parse_ok_iff_letters :
    parse (.text "abc") = .error (.invalidDelay "abc") ∧
      CommandLine.runStart none "app.munlib" "main" (some "abc") .bare = (.error (.invalidDelay "abc"), .bare) := by
  have hparse : parse (.text "abc") = .error (.invalidDelay "abc") := rfl
  obtain ⟨settings, hsettings⟩ : ∃ settings, Settings.load Host.bare.platform.basis Host.bare.environment = .ok settings :=
    ⟨_, rfl⟩
  exact ⟨hparse, (parse_ok_iff "abc" 0 0).2.2.2.2.2.2 none "app.munlib" "main" (some "abc") .bare settings _ hsettings hparse⟩

theorem writes_zeros {count : Nat} (h : count ≠ 0) : Writes (List.replicate count '0') (List.replicate count '0') where
  ne_nil := by simpa using h
  isDigit c hc := by
    rw [(List.mem_replicate.1 hc).2]
    rfl
  within := ⟨[], [], by simp, by simp⟩

theorem ofDigitChars_zeros (count : Nat) : Nat.ofDigitChars 10 (List.replicate count '0') 0 = 0 := by
  induction count with
  | zero => rfl
  | succ count ih =>
    rw [List.replicate_succ, Nat.ofDigitChars_cons]
    exact ih

/-- Zeros that are too many to read are not accepted as a delay of zero, nor reported as a launch failure. A number that is
too long to show is not reported as one, either. -/
theorem parse_ok_iff_fails :
    (∃ text digits, Writes digits text.toList ∧ Nat.ofDigitChars 10 digits 0 ≤ limit ∧
      parse (.text text) = .error (.tooManyDigits 4301) ∧ (Failure.tooManyDigits 4301).kind ≠ .own .launch) ∧
    ∃ i : Int, parse (.int i) = .error .tooLongToShow ∧ Failure.tooLongToShow.kind ≠ .own .launch := by
  have hwrites : Writes (List.replicate 4301 '0') (String.ofList (List.replicate 4301 '0')).toList := by
    rw [String.toList_ofList]
    exact writes_zeros (by decide)
  have hmany : digitLimit < (List.replicate 4301 '0').length := by
    rw [List.length_replicate]
    decide
  have hlarge (bound : Nat) : ∃ i : Int, bound ≤ i.natAbs := ⟨bound, (Int.natAbs_natCast bound).ge⟩
  obtain ⟨i, hi⟩ := hlarge (10 ^ digitLimit)
  refine ⟨⟨_, _, hwrites, (ofDigitChars_zeros 4301).trans_le (Nat.zero_le limit), ?_, by decide⟩, i,
    parse_int_tooLong_iff.2 hi, by decide⟩
  exact parse_text_tooManyDigits_iff.2 ⟨_, hwrites, hmany, List.length_replicate.symm⟩

end Hotload.Delay
