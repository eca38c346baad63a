import Hotload.Binary64.Layout
import Hotload.Numeral.Written
import Mathlib.Data.List.Basic
import Mathlib.Tactic.NormNum
import Mathlib.Tactic.Ring

/-!
Both written forms of a decimal are numerals that denote it, whether the point is among its digits, after them or before
them. The positional one has no needless zero if the decimal has none to begin with.
-/
namespace Hotload.Binary64
open Numeral (Written)

variable {d : Decimal} {n : Nat}

theorem isDigit_of_mem_digits : ∀ c ∈ Nat.toDigits 10 n, c.isDigit = true :=
  fun _ hc => Nat.isDigit_of_mem_toDigits (by norm_num) (le_refl 10) hc

theorem isDigit_zeros : ∀ c ∈ zeros n, c.isDigit = true := by
  intro c hc
  obtain rfl := List.eq_of_mem_replicate hc
  rfl

theorem ofDigitChars_zeros (m : Nat) : Nat.ofDigitChars 10 (zeros n) m = 10 ^ n * m :=
  Nat.ofDigitChars_replicate_zero

theorem ofDigitChars_digits : Nat.ofDigitChars 10 (Nat.toDigits 10 n) 0 = n :=
  Nat.ofDigitChars_toDigits (by norm_num) (le_refl 10)

theorem head_digits (h : 0 < n) : (Nat.toDigits 10 n).head? ≠ some '0' := by
  induction n using Nat.strongRecOn with
  | ind n ih =>
    rw [Nat.toDigits_eq_if (by norm_num)]
    split
    · simp [Nat.digitChar_eq_zero]
      omega
    · rw [List.head?_append_of_ne_nil _ Nat.toDigits_ne_nil]
      exact ih (n / 10) (by omega) (by omega)

theorem getLast_digits (h : n % 10 ≠ 0) : (Nat.toDigits 10 n).getLast? ≠ some '0' := by
  have hlast : (n % 10).digitChar ≠ '0' := by simpa [Nat.digitChar_eq_zero] using h
  rw [Nat.toDigits_eq_if (by norm_num)]
  split
  · next hlt => simpa [Nat.mod_eq_of_lt hlt] using hlast
  · simpa using hlast

/-- Digits with a point: at least one digit stands before it, and the number of places is the one asked for. -/
theorem withPoint_eq {ds : List Char} (hds : ∀ c ∈ ds, c.isDigit = true) {places : Nat} (hplaces : 0 < places) :
    ∃ w p, withPoint ds places = w ++ '.' :: p ∧ w ≠ [] ∧ p.length = places ∧ (∀ c ∈ w ++ p, c.isDigit = true) ∧
      Nat.ofDigitChars 10 (w ++ p) 0 = Nat.ofDigitChars 10 ds 0 ∧
      (ds.head? ≠ some '0' → w.head? = some '0' → w = ['0']) ∧
      (ds.getLast? ≠ some '0' → ds ≠ [] → p.getLast? ≠ some '0') := by
  unfold withPoint
  split
  · next h =>
    have hsplit : ds.take (ds.length - places) ++ ds.drop (ds.length - places) = ds := List.take_append_drop _ _
    refine ⟨_, _, rfl, ?_, ?_, ?_, ?_, fun hhead hw => ?_, fun hlast _ => ?_⟩
    · intro hnil
      have := congrArg List.length hnil
      simp at this
      omega
    · simp
      omega
    · rw [hsplit]
      exact hds
    · rw [hsplit]
    · rw [List.head?_take, if_neg (by omega)] at hw
      exact absurd hw hhead
    · rw [List.getLast?_drop, if_neg (by omega)]
      exact hlast
  · next h =>
    refine ⟨['0'], zeros (places - ds.length) ++ ds, rfl, by simp, ?_, ?_, ?_, fun _ _ => rfl, fun hlast hne => ?_⟩
    · simp [zeros]
      omega
    · intro c hc
      simp only [List.mem_append, List.mem_singleton] at hc
      obtain rfl | hc | hc := hc
      · rfl
      · exact isDigit_zeros c hc
      · exact hds c hc
    · have hzero : ['0'] ++ (zeros (places - ds.length) ++ ds) = zeros (places - ds.length + 1) ++ ds := rfl
      rw [hzero, Nat.ofDigitChars_append, ofDigitChars_zeros, Nat.mul_zero]
    · rw [List.getLast?_append_of_ne_nil _ hne]
      exact hlast

/-- A whole number in all its digits. -/
theorem Decimal.value_eq_digits (hp : 0 ≤ d.power) :
    d.value = (Nat.ofDigitChars 10 (Nat.toDigits 10 d.digits ++ zeros d.power.toNat) 0 : Nat) := by
  obtain ⟨i, hi⟩ := Int.eq_ofNat_of_zero_le hp
  rw [Nat.ofDigitChars_append, ofDigitChars_digits, ofDigitChars_zeros, value, hi, Int.toNat_natCast, zpow_natCast]
  push_cast
  ring

/-- The positional form of a decimal without needless zeros is positional. -/
theorem Decimal.exists_positional (hd : d.power < 0 → d.digits % 10 ≠ 0) :
    ∃ w : Written, w.text = d.positional ∧ w.IsPositional ∧ w.decimal.value = d.value := by
  have hdigits := isDigit_of_mem_digits (n := d.digits)
  unfold positional
  dsimp only
  split
  · next hp =>
    split
    · next h0 =>
      refine ⟨⟨['0'], [], none, by simp, by simp, nofun, nofun⟩, rfl, ⟨rfl, fun _ => rfl, by simp⟩, ?_⟩
      simp [Written.decimal, value, h0, Nat.ofDigitChars_cons]
    · next h0 =>
      have hall : ∀ c ∈ Nat.toDigits 10 d.digits ++ zeros d.power.toNat ++ [], c.isDigit = true := by
        intro c hc
        rw [List.append_nil] at hc
        exact (List.mem_append.1 hc).elim (hdigits c) (isDigit_zeros c)
      refine ⟨⟨_, [], none, by simp [Nat.toDigits_ne_nil], hall, nofun, nofun⟩, ?_, ⟨rfl, fun h => ?_, by simp⟩, ?_⟩
      · simp [Written.text, Written.exponentText]
      · dsimp only at h
        rw [List.head?_append_of_ne_nil _ Nat.toDigits_ne_nil] at h
        exact absurd h (head_digits (Nat.pos_of_ne_zero h0))
      · rw [d.value_eq_digits hp]
        simp [Written.decimal, value, Written.exponentValue]
  · next hp =>
    have hlast := hd (by omega)
    obtain ⟨w, p, htext, hne, hlen, hall, hvalue, hhead, htail⟩ :=
      withPoint_eq hdigits (show 0 < (-d.power).toNat by omega)
    have hp : p ≠ [] := List.ne_nil_of_length_pos (by omega)
    refine ⟨⟨w, p, none, hne, hall, nofun, nofun⟩, ?_, ⟨rfl, ?_, ?_⟩, ?_⟩
    · simp [Written.text, Written.exponentText, hp, htext]
    · exact hhead (head_digits (Nat.pos_of_ne_zero fun h0 => hlast (by rw [h0])))
    · exact htail (getLast_digits hlast) Nat.toDigits_ne_nil
    · have hpower : Written.exponentValue none - p.length = d.power := by
        rw [hlen]
        simp only [Written.exponentValue]
        omega
      rw [Written.decimal, hpower, hvalue, ofDigitChars_digits]

theorem exponentText_eq (e : Int) :
    ∃ x : Bool × List Char, 'e' :: exponentText e = Written.exponentText (some x) ∧ Written.exponentValue (some x) = e ∧
      x.2 ≠ [] ∧ ∀ c ∈ x.2, c.isDigit = true := by
  have hdigits := isDigit_of_mem_digits (n := e.natAbs)
  have hne : Nat.toDigits 10 e.natAbs ≠ [] := Nat.toDigits_ne_nil
  have hvalue : Nat.ofDigitChars 10 (Nat.toDigits 10 e.natAbs) 0 = e.natAbs := ofDigitChars_digits
  unfold exponentText
  generalize Nat.toDigits 10 e.natAbs = ds at *
  refine ⟨(e < 0, if ds.length < 2 then '0' :: ds else ds), ?_, ?_, ?_, ?_⟩
  · simp [Written.exponentText]
  · have hpad : Nat.ofDigitChars 10 (if ds.length < 2 then '0' :: ds else ds) 0 = e.natAbs := by
      split
      · simpa [Nat.ofDigitChars_cons] using hvalue
      · exact hvalue
    simp only [Written.exponentValue, hpad, decide_eq_true_eq]
    omega
  · dsimp only
    split
    · simp
    · exact hne
  · dsimp only
    intro c hc
    split at hc
    · obtain rfl | hc := List.mem_cons.1 hc
      · rfl
      · exact hdigits c hc
    · exact hdigits c hc

/-- The form with an exponent denotes the decimal, too. -/
theorem Decimal.exists_roundTrip (hd : d.power < 0 → d.digits % 10 ≠ 0) :
    ∃ w : Written, w.text = d.roundTrip ∧ w.decimal.value = d.value := by
  have hdigits := isDigit_of_mem_digits (n := d.digits)
  have hvalue : Nat.ofDigitChars 10 (Nat.toDigits 10 d.digits) 0 = d.digits := ofDigitChars_digits
  obtain ⟨first, rest, hds⟩ := List.exists_cons_of_ne_nil (Nat.toDigits_ne_nil (n := d.digits) (b := 10))
  unfold roundTrip
  dsimp only
  split
  · next h0 =>
    refine ⟨⟨['0'], ['0'], none, by simp, by simp, nofun, nofun⟩, rfl, ?_⟩
    simp [Written.decimal, value, h0, Nat.ofDigitChars_cons]
  next h0 =>
  split
  · obtain ⟨w, htext, -, hval⟩ := exists_positional hd
    split
    · next hp =>
      have hall : ∀ c ∈ Nat.toDigits 10 d.digits ++ zeros d.power.toNat ++ ['0'], c.isDigit = true := by
        intro c hc
        simp only [List.mem_append, List.mem_singleton] at hc
        obtain (hc | hc) | rfl := hc
        · exact hdigits c hc
        · exact isDigit_zeros c hc
        · rfl
      refine ⟨⟨_, ['0'], none, by simp [Nat.toDigits_ne_nil], hall, nofun, nofun⟩, ?_, ?_⟩
      · simp [Written.text, Written.exponentText, positional, hp, h0]
      · rw [d.value_eq_digits hp]
        simp only [Written.decimal, value, Written.exponentValue, Nat.ofDigitChars_append _ (m := ['0'])]
        simp [Nat.ofDigitChars_cons]
        ring
    · exact ⟨w, htext, hval⟩
  · obtain ⟨e, htext, hexp, hne, hall⟩ := exponentText_eq (d.power + (Nat.toDigits 10 d.digits).length - 1)
    rw [hds] at hdigits hvalue htext hexp ⊢
    refine ⟨⟨[first], rest, some e, by simp, by simpa using hdigits, ?_, ?_⟩, ?_, ?_⟩
    · rintro _ ⟨⟩
      exact hne
    · rintro _ ⟨⟩
      exact hall
    · rw [htext]
      cases rest <;> simp [Written.text]
    · have hpower : Written.exponentValue (some e) - rest.length = d.power := by
        rw [hexp, List.length_cons]
        omega
      rw [Written.decimal, hpower, List.singleton_append, hvalue]

end Hotload.Binary64
