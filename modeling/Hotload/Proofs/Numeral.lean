import Hotload.Binary64.Layout
import Hotload.Numeral
import Hotload.Numeral.Written
import Hotload.Proofs.Binary64.Decimal

/-!
Reading a numeral that is written with digits of ASCII: it is read as the decimal that it denotes. The steps of reading
are met one after another: nothing is trimmed, no underscore is dropped, no word is found, and each run of digits ends
where it was written to end.
-/
namespace Hotload.Numeral
open Text Binary64

variable {c : Char} {s : List Char}

theorem isDigit_iff_toNat : c.isDigit = true ↔ 48 ≤ c.toNat ∧ c.toNat ≤ 57 := by
  rw [Char.isDigit, Bool.and_eq_true, decide_eq_true_eq, decide_eq_true_eq, ge_iff_le, UInt32.le_iff_toNat_le,
    UInt32.le_iff_toNat_le]
  exact Iff.rfl

theorem digitValue_of_isDigit (h : c.isDigit = true) : digitValue? c = some (c.toNat - '0'.toNat) := by
  obtain ⟨hl, hh⟩ := isDigit_iff_toNat.1 h
  simp [digitValue?, digitZeros, hl, hh]

theorem isDigit_of_isDigit (h : c.isDigit = true) : isDigit c = true := by
  rw [isDigit, digitValue_of_isDigit h]
  rfl

/-- The characters of a numeral. -/
def IsMark (c : Char) : Prop :=
  c.isDigit = true ∨ c = '-' ∨ c = '+' ∨ c = '.' ∨ c = 'e'

theorem isNumeralBlank_of_isMark (h : IsMark c) : isNumeralBlank c = false := by
  obtain h | rfl | rfl | rfl | rfl := h
  · obtain ⟨hl, hh⟩ := isDigit_iff_toNat.1 h
    have hblank : isBlank c = false := by
      simp [isBlank, blankPoints]
      omega
    rw [isNumeralBlank, hblank, Bool.false_and]
  all_goals decide

theorem ne_underscore_of_isMark (h : IsMark c) : c ≠ '_' := by
  rintro rfl
  simp [IsMark, Char.isDigit] at h

theorem digitValues_eq (h : ∀ c ∈ s, c.isDigit = true) : ofDigits (digitValues s) = Nat.ofDigitChars 10 s 0 := by
  have hfold (n : Nat) : (digitValues s).foldl (fun n d => 10 * n + d) n = Nat.ofDigitChars 10 s n := by
    induction s generalizing n with
    | nil => rfl
    | cons c s ih =>
      have hc := digitValue_of_isDigit (h c List.mem_cons_self)
      rw [digitValues, List.filterMap_cons, hc, Nat.ofDigitChars_cons]
      exact ih (fun d hd => h d (List.mem_cons_of_mem c hd)) _
  exact hfold 0

theorem dropWhile_eq_self {p : Char → Bool} (h : ∀ c ∈ s, p c = false) : s.dropWhile p = s := by
  cases s with
  | nil => rfl
  | cons c s => rw [List.dropWhile_cons, h c List.mem_cons_self, if_neg Bool.false_ne_true]

theorem trimBy_eq_self {p : Char → Bool} (h : ∀ c ∈ s, p c = false) : trimBy p s = s := by
  have hr : ∀ c ∈ s.reverse, p c = false := fun c hc => h c (List.mem_reverse.1 hc)
  rw [trimBy, dropWhile_eq_self h, dropWhile_eq_self hr, List.reverse_reverse]

theorem dropUnderscores_eq_self (h : ∀ c ∈ s, c ≠ '_') (afterDigit : Bool) : dropUnderscores afterDigit s = some s := by
  induction s generalizing afterDigit with
  | nil => rfl
  | cons c s ih =>
    unfold dropUnderscores
    rw [if_neg (h c List.mem_cons_self), ih fun d hd => h d (List.mem_cons_of_mem c hd)]
    rfl

theorem lowerAscii_of_isDigit (h : c.isDigit = true) : lowerAscii c = c := by
  obtain ⟨-, hh⟩ := isDigit_iff_toNat.1 h
  simp only [lowerAscii, Bool.and_eq_true, decide_eq_true_eq]
  rw [if_neg (by omega)]

/-- What starts with a digit is no word. -/
theorem word_ne (h : c.isDigit = true) {word : String} (hw : word.toList.head?.all (!·.isDigit) = true) :
    String.ofList ((c :: s).map lowerAscii) ≠ word := by
  rintro rfl
  rw [String.toList_ofList, List.map_cons, lowerAscii_of_isDigit h] at hw
  simp [h] at hw

/-- A run ends where a character follows that is not of its class. -/
theorem run_append {p : Char → Bool} {t : List Char} (hs : ∀ c ∈ s, p c = true) (ht : ∀ c ∈ t.head?, p c = false) :
    (s ++ t).takeWhile p = s ∧ (s ++ t).dropWhile p = t := by
  rw [List.takeWhile_append_of_pos hs, List.dropWhile_append_of_pos hs]
  cases t with
  | nil => simp
  | cons c t => simp [ht c rfl]

theorem run_eq_self {t : List Char} (h : ∀ c ∈ s, c.isDigit = true) (ht : ∀ c ∈ t.head?, isDigit c = false) :
    (s ++ t).takeWhile isDigit = s ∧ (s ++ t).dropWhile isDigit = t :=
  run_append (fun c hc => isDigit_of_isDigit (h c hc)) ht

theorem readExponent_exponentText {e : Option (Bool × List Char)} (hne : ∀ d, e = some d → d.2 ≠ [])
    (hd : ∀ d, e = some d → ∀ c ∈ d.2, c.isDigit = true) :
    readExponent (Written.exponentText e) = some (Written.exponentValue e) := by
  match e with
  | none => rfl
  | some (negative, ds) =>
    have hall : ds.all isDigit = true := List.all_eq_true.2 fun c hc => isDigit_of_isDigit (hd _ rfl c hc)
    have hsign : takeSign ((if negative then '-' else '+') :: ds) = (negative, ds) := by
      cases negative <;> rfl
    have hempty : ds.isEmpty = false := by
      rw [List.isEmpty_eq_false_iff]
      exact hne _ rfl
    simp only [Written.exponentText, Written.exponentValue, readExponent, hsign, hall, hempty, digitValues_eq (hd _ rfl)]
    simp

namespace Written

variable (w : Written)

theorem isDigit_whole : ∀ c ∈ w.whole, c.isDigit = true :=
  fun c hc => w.isDigit c (List.mem_append_left _ hc)

theorem isDigit_places : ∀ c ∈ w.places, c.isDigit = true :=
  fun c hc => w.isDigit c (List.mem_append_right _ hc)

theorem isMark_text : ∀ c ∈ w.text, IsMark c := by
  have hexp : ∀ c ∈ exponentText w.exponent, IsMark c := by
    cases he : w.exponent with
    | none => simp [exponentText]
    | some e =>
      intro c hc
      have hd := w.exponent_isDigit e he c
      simp only [exponentText, List.mem_cons] at hc
      obtain rfl | rfl | hc := hc
      · simp [IsMark]
      · cases e.1 <;> simp [IsMark]
      · exact .inl (hd hc)
  intro c hc
  simp only [text, List.mem_append] at hc
  obtain hc | hc | hc := hc
  · exact .inl (w.isDigit_whole c hc)
  · split at hc
    · simp at hc
    · obtain rfl | hc := List.mem_cons.1 hc
      · simp [IsMark]
      · exact .inl (w.isDigit_places c hc)
  · exact hexp c hc

theorem text_eq_cons : ∃ c r, w.text = c :: r ∧ c.isDigit = true := by
  obtain ⟨c, r, hw⟩ := List.exists_cons_of_ne_nil w.whole_ne_nil
  have hc : c ∈ w.whole := hw ▸ List.mem_cons_self
  exact ⟨c, _, by rw [text, hw, List.cons_append], w.isDigit_whole c hc⟩

theorem head_exponentText : ∀ c ∈ (exponentText w.exponent).head?, Numeral.isDigit c = false := by
  cases w.exponent with
  | none => simp [exponentText]
  | some e =>
    intro c hc
    obtain rfl : 'e' = c := by simpa [exponentText] using hc
    decide

/-- A numeral is read as what it denotes. -/
theorem readUnsigned_text (negative : Bool) :
    readUnsigned negative w.text = some (ofDecimal negative w.decimal.digits w.decimal.power) := by
  obtain ⟨c, r, hcons, hc⟩ := w.text_eq_cons
  have hinf : String.ofList (w.text.map lowerAscii) ≠ "inf" := hcons ▸ word_ne hc rfl
  have hinfinity : String.ofList (w.text.map lowerAscii) ≠ "infinity" := hcons ▸ word_ne hc rfl
  have hnan : String.ofList (w.text.map lowerAscii) ≠ "nan" := hcons ▸ word_ne hc rfl
  have hexp := readExponent_exponentText w.exponent_ne_nil w.exponent_isDigit
  have hwhole : w.whole.isEmpty = false := by
    rw [List.isEmpty_eq_false_iff]
    exact w.whole_ne_nil
  have hdigits := digitValues_eq w.isDigit
  simp only [readUnsigned, hinf, hinfinity, hnan, decide_false, Bool.or_self, Bool.false_eq_true, if_false]
  by_cases hplaces : w.places = []
  · have htext : w.text = w.whole ++ exponentText w.exponent := by
      rw [text, if_pos hplaces, List.nil_append]
    obtain ⟨htake, hdrop⟩ := run_eq_self w.isDigit_whole w.head_exponentText
    have hdot (r : List Char) : exponentText w.exponent ≠ '.' :: r := by
      cases w.exponent <;> simp [exponentText]
    rw [hplaces] at hdigits
    simp only [htext, htake, hdrop, hwhole, decimal, hplaces, Bool.false_and, Bool.false_eq_true, if_false]
    rw [hexp, Option.map_some, hdigits]
  · have htext : w.text = w.whole ++ '.' :: (w.places ++ exponentText w.exponent) := by
      rw [text, if_neg hplaces, List.cons_append]
    obtain ⟨htake, hdrop⟩ := run_eq_self (t := '.' :: (w.places ++ exponentText w.exponent)) w.isDigit_whole (by
      intro c hc
      obtain rfl : '.' = c := by simpa using hc
      decide)
    obtain ⟨htake', hdrop'⟩ := run_eq_self w.isDigit_places w.head_exponentText
    simp only [htext, htake, hdrop, htake', hdrop', hwhole, hexp, hdigits, Bool.false_and, Bool.false_eq_true, if_false]
    rfl

/-- The sign in front of it is read, too. -/
theorem readReal_signed_text (x : Binary64) :
    readReal (x.signed w.text) = some (ofDecimal x.isNegative w.decimal.digits w.decimal.power) := by
  have hmark : ∀ c ∈ x.signed w.text, IsMark c := by
    unfold signed
    split
    · intro c hc
      obtain rfl | hc := List.mem_cons.1 hc
      · simp [IsMark]
      · exact w.isMark_text c hc
    · exact w.isMark_text
  have hsign : takeSign (x.signed w.text) = (x.isNegative, w.text) := by
    unfold signed
    split
    · next h => rw [h]; rfl
    · next h =>
      obtain ⟨c, r, hcons, hc⟩ := w.text_eq_cons
      rw [Bool.not_eq_true] at h
      rw [hcons, h]
      unfold takeSign
      split
      · simp_all [Char.isDigit]
      · simp_all [Char.isDigit]
      · rfl
  rw [readReal, trimBy_eq_self fun c hc => isNumeralBlank_of_isMark (hmark c hc),
    dropUnderscores_eq_self fun c hc => ne_underscore_of_isMark (hmark c hc), Option.bind_some, hsign]
  exact w.readUnsigned_text x.isNegative

end Written

theorem ofDigitChars_lt (h : ∀ c ∈ s, c.isDigit = true) : Nat.ofDigitChars 10 s 0 < 10 ^ s.length := by
  induction s with
  | nil => simp
  | cons c s ih =>
    have hc := isDigit_iff_toNat.1 (h c List.mem_cons_self)
    have hs := ih fun d hd => h d (List.mem_cons_of_mem c hd)
    have hdigit : c.toNat - '0'.toNat ≤ 9 := by
      change c.toNat - 48 ≤ 9
      omega
    rw [Nat.ofDigitChars_cons, Nat.ofDigitChars_eq_ofDigitChars_zero, Nat.mul_zero, Nat.zero_add, List.length_cons, pow_succ]
    have := Nat.mul_le_mul_left (10 ^ s.length) hdigit
    omega

theorem le_ofDigitChars (hc : c.isDigit = true) (h0 : c ≠ '0') : 10 ^ s.length ≤ Nat.ofDigitChars 10 (c :: s) 0 := by
  have hdigit : 1 ≤ c.toNat - '0'.toNat := by
    have hl := (isDigit_iff_toNat.1 hc).1
    have hne : c.toNat ≠ 48 := fun h => h0 (Char.toNat_inj.1 h)
    change 1 ≤ c.toNat - 48
    omega
  rw [Nat.ofDigitChars_cons, Nat.ofDigitChars_eq_ofDigitChars_zero, Nat.mul_zero, Nat.zero_add]
  have := Nat.mul_le_mul_left (10 ^ s.length) hdigit
  omega

/-- As many digits with the same value are the same digits. -/
theorem ofDigitChars_inj {t : List Char} (hs : ∀ c ∈ s, c.isDigit = true) (ht : ∀ c ∈ t, c.isDigit = true)
    (hlen : s.length = t.length) (h : Nat.ofDigitChars 10 s 0 = Nat.ofDigitChars 10 t 0) : s = t := by
  induction s generalizing t with
  | nil => exact (List.eq_nil_of_length_eq_zero hlen.symm).symm
  | cons c s ih =>
    obtain ⟨d, t, rfl⟩ := List.exists_cons_of_length_pos (show 0 < t.length by simp [← hlen])
    have hslen : s.length = t.length := Nat.succ.inj hlen
    have hs' : ∀ c ∈ s, c.isDigit = true := fun c hc => hs c (List.mem_cons_of_mem _ hc)
    have ht' : ∀ c ∈ t, c.isDigit = true := fun c hc => ht c (List.mem_cons_of_mem _ hc)
    have hslt := ofDigitChars_lt hs'
    have htlt := ofDigitChars_lt ht'
    rw [Nat.ofDigitChars_cons, Nat.ofDigitChars_cons, Nat.ofDigitChars_eq_ofDigitChars_zero,
      Nat.ofDigitChars_eq_ofDigitChars_zero (l := t), hslen] at h
    rw [hslen] at hslt
    simp only [Nat.mul_zero, Nat.zero_add] at h
    -- the first digit is the quotient by the power of ten, the other digits are the remainder
    have hrest : Nat.ofDigitChars 10 s 0 = Nat.ofDigitChars 10 t 0 := by
      have := congrArg (· % 10 ^ t.length) h
      simpa [Nat.mul_add_mod, Nat.mod_eq_of_lt hslt, Nat.mod_eq_of_lt htlt] using this
    have hfirst : c.toNat - '0'.toNat = d.toNat - '0'.toNat := by
      rw [hrest] at h
      exact Nat.eq_of_mul_eq_mul_left (Nat.pow_pos (by norm_num)) (Nat.add_right_cancel h)
    have hc := isDigit_iff_toNat.1 (hs c List.mem_cons_self)
    have hd := isDigit_iff_toNat.1 (ht d List.mem_cons_self)
    have hcd : c = d := by
      refine Char.toNat_inj.1 ?_
      change c.toNat - 48 = d.toNat - 48 at hfirst
      omega
    rw [hcd, ih hs' ht' hslen hrest]

namespace Written.IsPositional

variable {w v : Written}

/-- The last place is not zero, so the digits are no multiple of ten. -/
theorem digits_mod_ne_zero (hw : w.IsPositional) (hne : w.places ≠ []) : w.decimal.digits % 10 ≠ 0 := by
  obtain ⟨p, c, hp⟩ : ∃ p c, w.places = p ++ [c] := ⟨_, _, (List.dropLast_append_getLast hne).symm⟩
  have hc := isDigit_iff_toNat.1 (w.isDigit_places c (by simp [hp]))
  have h0 : c ≠ '0' := by
    rintro rfl
    exact hw.places (by simp [hp])
  have hne48 : c.toNat ≠ 48 := fun h => h0 (Char.toNat_inj.1 h)
  have hdigits : w.decimal.digits = 10 * Nat.ofDigitChars 10 (w.whole ++ p) 0 + (c.toNat - 48) := by
    rw [decimal, hp, ← List.append_assoc, Nat.ofDigitChars_append, Nat.ofDigitChars_cons, Nat.ofDigitChars_nil]
    rfl
  omega

theorem places_length_le (hw : w.IsPositional) (hv : v.IsPositional) (h : w.decimal.value = v.decimal.value) :
    v.places.length ≤ w.places.length := by
  by_contra hlt
  obtain ⟨i, hi⟩ := Nat.exists_eq_add_of_lt (not_le.1 hlt)
  refine hv.digits_mod_ne_zero (List.ne_nil_of_length_pos (by omega)) ?_
  have hpow : v.decimal.power + (i + 1 : Nat) = w.decimal.power := by
    simp only [decimal, hw.exponent, hv.exponent]
    omega
  rw [Decimal.value, Decimal.value, ← hpow, zpow_add₀ (by norm_num), zpow_natCast, mul_comm (10 ^ v.decimal.power), ← mul_assoc]
    at h
  have hdigits : w.decimal.digits * 10 ^ (i + 1) = v.decimal.digits := by
    exact_mod_cast mul_right_cancel₀ (show (10 : ℚ) ^ v.decimal.power ≠ 0 by positivity) h
  rw [← hdigits, pow_succ, ← Nat.mul_assoc]
  exact Nat.mul_mod_left _ _

theorem whole_length_le (hv : v.IsPositional) (hlen : w.places.length = v.places.length)
    (h : w.decimal.digits = v.decimal.digits) : v.whole.length ≤ w.whole.length := by
  by_contra hlt
  obtain ⟨c, r, hr⟩ := List.exists_cons_of_ne_nil v.whole_ne_nil
  have hwpos := List.length_pos_of_ne_nil w.whole_ne_nil
  have hc0 : c ≠ '0' := by
    rintro rfl
    have hone := congrArg List.length (hv.whole (by rw [hr]; rfl))
    rw [List.length_singleton] at hone
    omega
  have hlow := le_ofDigitChars (s := r ++ v.places) (v.isDigit_whole c (hr ▸ List.mem_cons_self)) hc0
  rw [← List.cons_append, ← hr] at hlow
  have hhigh := ofDigitChars_lt w.isDigit
  change w.decimal.digits < _ at hhigh
  change _ ≤ v.decimal.digits at hlow
  have hpow : 10 ^ (w.whole ++ w.places).length ≤ 10 ^ (r ++ v.places).length := by
    refine Nat.pow_le_pow_right (by norm_num) ?_
    rw [hr, List.length_cons] at hlt
    simp only [List.length_append]
    omega
  omega

/-- Positional numerals of one value are written in one way. -/
theorem text_eq (hw : w.IsPositional) (hv : v.IsPositional) (h : w.decimal.value = v.decimal.value) : w.text = v.text := by
  have hplaces := Nat.le_antisymm (hv.places_length_le hw h.symm) (hw.places_length_le hv h)
  have hpower : w.decimal.power = v.decimal.power := by
    simp only [decimal, hw.exponent, hv.exponent, hplaces]
  have hdigits : w.decimal.digits = v.decimal.digits := by
    rw [Decimal.value, Decimal.value, hpower] at h
    exact_mod_cast mul_right_cancel₀ (show (10 : ℚ) ^ v.decimal.power ≠ 0 by positivity) h
  have hwhole := Nat.le_antisymm (hw.whole_length_le hplaces.symm hdigits.symm) (hv.whole_length_le hplaces hdigits)
  have happend : w.whole ++ w.places = v.whole ++ v.places :=
    ofDigitChars_inj w.isDigit v.isDigit (by simp [hplaces, hwhole]) hdigits
  obtain ⟨hwhole', hplaces'⟩ := List.append_inj happend hwhole
  rw [text, text, hwhole', hplaces', hw.exponent, hv.exponent]

end Written.IsPositional

end Hotload.Numeral
