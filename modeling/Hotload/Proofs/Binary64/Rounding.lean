import Hotload.Binary64.Value
import Mathlib.Tactic.FieldSimp
import Mathlib.Tactic.Linarith
import Mathlib.Tactic.Positivity
import Mathlib.Tactic.Ring

/-!
Rounding is correct: a quotient goes to the magnitude whose boundaries it lies between. Boundaries grow with the magnitude,
so at most one magnitude is rounded to, and rounding is monotone. A number that is finite is the rounding of its value.
-/
namespace Hotload.Binary64

variable {n m k : Nat} {v w : ℚ}

theorem pow2_eq (n : Nat) : pow2 n = 2 ^ n := rfl

theorem pow10_eq (n : Nat) : pow10 n = 10 ^ n := rfl

theorem gap_pos (n : Nat) : (0 : ℚ) < 2 ^ gapExponent n := by positivity

theorem valueAt_zero : valueAt 0 = 0 := by simp [valueAt]

/-- A significand on the unit of the `k`-th binade; the least binade has all the smaller ones. -/
theorem valueAt_eq {j : Nat} (hj : j < 2 ^ 53) (hk : k = 0 ∨ 2 ^ 52 ≤ j) :
    valueAt (k * 2 ^ 52 + j) = j * 2 ^ (k - 1074 : Int) ∧ gapExponent (k * 2 ^ 52 + j) = k - 1074 := by
  by_cases h : j < 2 ^ 52
  · obtain rfl : k = 0 := by omega
    have hdiv : j / 2 ^ 52 = 0 := Nat.div_eq_of_lt h
    have hmod : j % 2 ^ 52 = j := Nat.mod_eq_of_lt h
    simp only [valueAt, gapExponent, pow2_eq, Nat.zero_mul, Nat.zero_add, hdiv, hmod, if_true]
    exact ⟨rfl, rfl⟩
  · have hdiv : (k * 2 ^ 52 + j) / 2 ^ 52 = k + 1 := by omega
    have hmod : (k * 2 ^ 52 + j) % 2 ^ 52 + 2 ^ 52 = j := by omega
    have hexp : gapExponent (k * 2 ^ 52 + j) = k - 1074 := by
      simp only [gapExponent, pow2_eq, hdiv]
      omega
    refine ⟨?_, hexp⟩
    simp only [valueAt, hexp, pow2_eq, hdiv, hmod, Nat.succ_ne_zero, if_false]

/-- Every magnitude is a significand on the unit of a binade. -/
theorem exists_binade (n : Nat) : ∃ k j, n = k * 2 ^ 52 + j ∧ j < 2 ^ 53 ∧ (k = 0 ∨ 2 ^ 52 ≤ j) := by
  by_cases h : n < 2 ^ 52
  · exact ⟨0, n, by omega, by omega, .inl rfl⟩
  · exact ⟨n / 2 ^ 52 - 1, n % 2 ^ 52 + 2 ^ 52, by omega, by omega, .inr (by omega)⟩

theorem two_zpow_succ (e : Int) : (2 : ℚ) ^ (e + 1) = 2 * 2 ^ e := by
  rw [zpow_add_one₀ (by norm_num), mul_comm]

theorem valueAt_top (k : Nat) : valueAt (k * 2 ^ 52 + 2 ^ 53) = 2 ^ 53 * 2 ^ (k - 1074 : Int) := by
  have h := (valueAt_eq (k := k + 1) (j := 2 ^ 52) (by norm_num) (.inr (le_refl _))).1
  have hexp : ((k + 1 : Nat) - 1074 : Int) = (k - 1074 : Int) + 1 := by omega
  rw [show (k + 1) * 2 ^ 52 + 2 ^ 52 = k * 2 ^ 52 + 2 ^ 53 by omega, hexp, two_zpow_succ] at h
  rw [h]
  push_cast
  ring

theorem valueAt_succ (n : Nat) : valueAt (n + 1) = valueAt n + 2 ^ gapExponent n := by
  obtain ⟨k, j, rfl, hj, hk⟩ := exists_binade n
  obtain ⟨hv, hg⟩ := valueAt_eq hj hk
  rw [hv, hg]
  by_cases h : j + 1 < 2 ^ 53
  · have hnext := (valueAt_eq (k := k) h (by omega)).1
    rw [Nat.add_assoc, hnext]
    push_cast
    ring
  · obtain rfl : j = 2 ^ 53 - 1 := by omega
    rw [show k * 2 ^ 52 + (2 ^ 53 - 1) + 1 = k * 2 ^ 52 + 2 ^ 53 by omega, valueAt_top]
    norm_num
    ring

theorem valueAt_lt_boundary (n : Nat) : valueAt n < boundary n := by
  have := gap_pos n
  unfold boundary
  linarith

theorem boundary_lt_valueAt (n : Nat) : boundary n < valueAt (n + 1) := by
  have := gap_pos n
  rw [valueAt_succ]
  unfold boundary
  linarith

theorem valueAt_strictMono : StrictMono valueAt :=
  strictMono_nat_of_lt_succ fun n => (valueAt_lt_boundary n).trans (boundary_lt_valueAt n)

theorem boundary_strictMono : StrictMono boundary :=
  strictMono_nat_of_lt_succ fun n => (boundary_lt_valueAt n).trans (valueAt_lt_boundary (n + 1))

theorem valueAt_nonneg (n : Nat) : 0 ≤ valueAt n := by
  rw [← valueAt_zero]
  exact valueAt_strictMono.monotone (Nat.zero_le n)

namespace Rounds

/-- Of two neighbours that share a boundary one is odd, so a value at the boundary is not rounded to both. -/
theorem mono (hv : Rounds v n) (hw : Rounds w m) (h : v ≤ w) : n ≤ m := by
  by_contra hlt
  obtain ⟨k, rfl⟩ : ∃ k, n = k + 1 := ⟨n - 1, by omega⟩
  have hge := hv.ge k rfl
  have hle := hw.le
  have hmono : boundary m ≤ boundary k := boundary_strictMono.monotone (by omega)
  have hmk : m = k := boundary_strictMono.injective (by linarith)
  subst hmk
  have hodd := hv.even (.inr ⟨m, rfl, by linarith⟩)
  have heven := hw.even (.inl (by linarith))
  omega

theorem unique (h : Rounds v n) (h' : Rounds v m) : n = m :=
  Nat.le_antisymm (h.mono h' (le_refl v)) (h'.mono h (le_refl v))

theorem valueAt (n : Nat) : Rounds (valueAt n) n where
  le := (valueAt_lt_boundary n).le
  ge k hk := by
    subst hk
    exact (boundary_lt_valueAt k).le
  even h := by
    obtain h | ⟨k, rfl, h⟩ := h
    · exact absurd h (valueAt_lt_boundary n).ne
    · exact absurd h (boundary_lt_valueAt k).ne'

/-- A value at least as large as that of a magnitude is not rounded to a smaller one. -/
theorem le_of_valueAt_le (h : Rounds v n) (hm : Binary64.valueAt m ≤ v) : m ≤ n :=
  (Rounds.valueAt m).mono h hm

theorem ge_of_le_valueAt (h : Rounds v n) (hm : v ≤ Binary64.valueAt m) : n ≤ m :=
  h.mono (Rounds.valueAt m) hm

/-- What lies between two values that are rounded to a magnitude is rounded to it, too. -/
theorem between {u : ℚ} (hv : Rounds v n) (hw : Rounds w n) (hvu : v ≤ u) (huw : u ≤ w) : Rounds u n where
  le := huw.trans hw.le
  ge k hk := (hv.ge k hk).trans hvu
  even h := by
    obtain h | ⟨k, hk, h⟩ := h
    · exact hw.even (.inl (le_antisymm hw.le (h ▸ huw)))
    · exact hv.even (.inr ⟨k, hk, le_antisymm (h ▸ hvu) (hv.ge k hk)⟩)

end Rounds

/-- On the unit of a binade, rounding to an integer is rounding to a magnitude. -/
theorem rounds_of_scaled {u : ℚ} (hm : m ≤ 2 ^ 53) (hk : k = 0 ∨ 2 ^ 52 ≤ u) (hu : u < 2 ^ 53) (hle : u ≤ m + 1 / 2)
    (hge : m - 1 / 2 ≤ u) (heven : u = m + 1 / 2 ∨ u = m - 1 / 2 → m % 2 = 0) (hkm : k = 0 ∨ 2 ^ 52 ≤ m) :
    Rounds (u * 2 ^ (k - 1074 : Int)) (k * 2 ^ 52 + m) := by
  have hunit : (0 : ℚ) < 2 ^ (k - 1074 : Int) := by positivity
  have hparity : (k * 2 ^ 52 + m) % 2 = m % 2 := by omega
  have hbound {j : Nat} (hj : j < 2 ^ 53) (hkj : k = 0 ∨ 2 ^ 52 ≤ j) :
      boundary (k * 2 ^ 52 + j) = (j + 1 / 2) * 2 ^ (k - 1074 : Int) := by
    obtain ⟨hv, hg⟩ := valueAt_eq hj hkj
    rw [boundary, hv, hg]
    ring
  -- above: a significand of 54 bits is the first one of the next binade, well above the value
  have habove : u * 2 ^ (k - 1074 : Int) < boundary (k * 2 ^ 52 + m) ∨
      boundary (k * 2 ^ 52 + m) = (m + 1 / 2) * 2 ^ (k - 1074 : Int) := by
    obtain hm | rfl := Nat.lt_or_eq_of_le hm
    · exact .inr (hbound hm hkm)
    · refine .inl (lt_trans ?_ (valueAt_lt_boundary _))
      rw [valueAt_top]
      exact mul_lt_mul_of_pos_right hu hunit
  -- below: the least significand of a binade has a smaller gap below it, and the value is not there
  have hbelow (j : Nat) (hj : k * 2 ^ 52 + m = j + 1) : boundary j < u * 2 ^ (k - 1074 : Int) ∨
      boundary j = (m - 1 / 2) * 2 ^ (k - 1074 : Int) := by
    by_cases hfirst : k ≠ 0 ∧ m = 2 ^ 52
    · left
      obtain ⟨hk0, rfl⟩ := hfirst
      have hv := (valueAt_eq (k := k) (j := 2 ^ 52) (by norm_num) hkm).1
      refine lt_of_lt_of_le (boundary_lt_valueAt j) ?_
      rw [← hj, hv]
      push_cast
      exact mul_le_mul_of_nonneg_right (hk.resolve_left hk0) hunit.le
    · right
      obtain ⟨i, rfl⟩ : ∃ i, m = i + 1 := ⟨m - 1, by omega⟩
      rw [show j = k * 2 ^ 52 + i by omega, hbound (by omega) (by omega)]
      push_cast
      ring
  refine ⟨?_, fun j hj => ?_, fun h => ?_⟩
  · obtain h | h := habove
    · exact h.le
    · rw [h]
      exact mul_le_mul_of_nonneg_right hle hunit.le
  · obtain h | h := hbelow j hj
    · exact h.le
    · rw [h]
      exact mul_le_mul_of_nonneg_right hge hunit.le
  · rw [hparity]
    obtain h | ⟨j, hj, h⟩ := h
    · obtain ha | ha := habove
      · exact absurd h ha.ne
      · exact heven (.inl (mul_right_cancel₀ hunit.ne' (h.trans ha)))
    · obtain hb | hb := hbelow j hj
      · exact absurd h hb.ne'
      · exact heven (.inr (mul_right_cancel₀ hunit.ne' (h.trans hb)))

variable {num den : Nat}

theorem roundQuotient_cases (num den : Nat) :
    (roundQuotient num den = num / den ∧ 2 * (num % den) ≤ den ∧ (2 * (num % den) = den → num / den % 2 = 0)) ∨
      (roundQuotient num den = num / den + 1 ∧ den ≤ 2 * (num % den) ∧
        (2 * (num % den) = den → (num / den + 1) % 2 = 0)) := by
  simp only [roundQuotient]
  split
  · exact .inl ⟨rfl, by omega, by omega⟩
  · split
    · exact .inr ⟨rfl, by omega, by omega⟩
    · split
      · exact .inl ⟨rfl, by omega, by omega⟩
      · exact .inr ⟨rfl, by omega, by omega⟩

theorem div_eq_add_mod (num : Nat) (h : 0 < den) : (num : ℚ) / den = (num / den : Nat) + (num % den : Nat) / den := by
  have hd : (den : ℚ) ≠ 0 := by exact_mod_cast h.ne'
  have hsum : (num : ℚ) = den * (num / den : Nat) + (num % den : Nat) := by
    exact_mod_cast (Nat.div_add_mod num den).symm
  rw [div_eq_iff hd, add_mul, div_mul_cancel₀ _ hd, mul_comm]
  exact hsum

theorem roundQuotient_spec (num : Nat) (h : 0 < den) :
    (num : ℚ) / den ≤ roundQuotient num den + 1 / 2 ∧ roundQuotient num den - 1 / 2 ≤ (num : ℚ) / den ∧
      ((num : ℚ) / den = roundQuotient num den + 1 / 2 ∨ (num : ℚ) / den = roundQuotient num den - 1 / 2 →
        roundQuotient num den % 2 = 0) := by
  have hd : (0 : ℚ) < den := by exact_mod_cast h
  have hlt : (num % den : Nat) / (den : ℚ) < 1 := by
    rw [div_lt_one hd]
    exact_mod_cast Nat.mod_lt num h
  have hnonneg : (0 : ℚ) ≤ (num % den : Nat) / den := by positivity
  have hle {a b : Nat} : (a : ℚ) / den ≤ b / den ↔ a ≤ b := by
    rw [div_le_div_iff_of_pos_right hd, Nat.cast_le]
  have hhalf : (den : ℚ) / den = 1 := div_self hd.ne'
  have htwice : ((2 * (num % den) : Nat) : ℚ) / den = 2 * ((num % den : Nat) / den) := by
    push_cast
    ring
  rw [div_eq_add_mod num h]
  obtain ⟨hr, hc, heven⟩ | ⟨hr, hc, heven⟩ := roundQuotient_cases num den
  · rw [hr]
    have hc' : 2 * ((num % den : Nat) / (den : ℚ)) ≤ 1 := by rw [← htwice, ← hhalf]; exact hle.2 hc
    refine ⟨by linarith, by linarith, fun ht => heven ?_⟩
    have h1 : 2 * ((num % den : Nat) / (den : ℚ)) = 1 := by obtain ht | ht := ht <;> linarith
    exact Nat.le_antisymm hc (hle.1 (by rw [htwice, hhalf, h1]))
  · rw [hr]
    have hc' : 1 ≤ 2 * ((num % den : Nat) / (den : ℚ)) := by rw [← htwice, ← hhalf]; exact hle.2 hc
    push_cast
    refine ⟨by linarith, by linarith, fun ht => heven ?_⟩
    have h1 : 2 * ((num % den : Nat) / (den : ℚ)) = 1 := by obtain ht | ht := ht <;> linarith
    exact Nat.le_antisymm (hle.1 (by rw [htwice, hhalf, h1])) hc

/-- The power of two that a quotient reaches, found from the lengths of its two sides. -/
theorem exists_log (hn : 0 < num) (hd : 0 < den) :
    ∃ f : Int, scaleOf num den = max (-1074) (f - 52) ∧ (2 : ℚ) ^ f ≤ num / den ∧ (num : ℚ) / den < 2 ^ (f + 1) := by
  have hd' : (0 : ℚ) < den := by exact_mod_cast hd
  have hnlow : ((2 ^ Nat.log2 num : Nat) : ℚ) ≤ num := by exact_mod_cast Nat.log2_self_le hn.ne'
  have hnhigh : (num : ℚ) < (2 ^ (Nat.log2 num + 1) : Nat) := by exact_mod_cast Nat.lt_log2_self
  have hdlow : ((2 ^ Nat.log2 den : Nat) : ℚ) ≤ den := by exact_mod_cast Nat.log2_self_le hd.ne'
  have hdhigh : (den : ℚ) < (2 ^ (Nat.log2 den + 1) : Nat) := by exact_mod_cast Nat.lt_log2_self
  push_cast at hnlow hnhigh hdlow hdhigh
  generalize hl : (Nat.log2 num : Int) - Nat.log2 den = l
  have hhigh : (num : ℚ) / den < 2 ^ (l + 1) := by
    rw [div_lt_iff₀ hd']
    calc (num : ℚ) < 2 ^ (Nat.log2 num + 1) := hnhigh
      _ = 2 ^ (l + 1) * 2 ^ Nat.log2 den := by
        rw [← zpow_natCast, ← zpow_natCast, ← zpow_add₀ (by norm_num)]
        congr 1
        push_cast
        omega
      _ ≤ 2 ^ (l + 1) * den := mul_le_mul_of_nonneg_left hdlow (by positivity)
  have hlow : (2 : ℚ) ^ (l - 1) ≤ num / den := by
    rw [le_div_iff₀ hd']
    calc (2 : ℚ) ^ (l - 1) * den ≤ 2 ^ (l - 1) * 2 ^ (Nat.log2 den + 1) :=
        mul_le_mul_of_nonneg_left hdhigh.le (by positivity)
      _ = 2 ^ Nat.log2 num := by
        rw [← zpow_natCast, ← zpow_natCast, ← zpow_add₀ (by norm_num)]
        congr 1
        push_cast
        omega
      _ ≤ num := hnlow
  have hreached : (if 0 ≤ l then den * pow2 l.toNat ≤ num else den ≤ num * pow2 (-l).toNat) ↔ (2 : ℚ) ^ l ≤ num / den := by
    rw [le_div_iff₀ hd']
    split
    · next h =>
      obtain ⟨i, rfl⟩ := Int.eq_ofNat_of_zero_le h
      rw [Int.toNat_natCast, pow2_eq, zpow_natCast, mul_comm]
      exact_mod_cast Iff.rfl
    · next h =>
      obtain ⟨i, rfl⟩ : ∃ i : Nat, l = -i := ⟨(-l).toNat, by omega⟩
      rw [neg_neg, Int.toNat_natCast, pow2_eq, zpow_neg, zpow_natCast, inv_mul_le_iff₀ (by positivity), mul_comm num]
      exact_mod_cast Iff.rfl
  rw [scaleOf, hl]
  by_cases h : (2 : ℚ) ^ l ≤ num / den
  · exact ⟨l, by simp only [hreached.2 h, if_true], h, hhigh⟩
  · refine ⟨l - 1, by simp only [mt hreached.1 h, if_false], hlow, ?_⟩
    rw [Int.sub_add_cancel]
    exact not_le.1 h

/-- The scale leaves a quotient of 53 bits, or it is the least one. -/
theorem scaleOf_spec (hn : 0 < num) (hd : 0 < den) :
    ∃ k : Nat, scaleOf num den = (k - 1074 : Int) ∧ (num : ℚ) / den < 2 ^ 53 * 2 ^ (k - 1074 : Int) ∧
      (k = 0 ∨ 2 ^ 52 * 2 ^ (k - 1074 : Int) ≤ (num : ℚ) / den) := by
  obtain ⟨f, hs, hlow, hhigh⟩ := exists_log hn hd
  have hpow (i : Nat) (e : Int) : (2 : ℚ) ^ i * 2 ^ e = 2 ^ (i + e) := by
    rw [← zpow_natCast, ← zpow_add₀ (by norm_num)]
  rw [hs]
  by_cases h : f - 52 ≤ -1074
  · refine ⟨0, by omega, hhigh.trans_le ?_, .inl rfl⟩
    rw [hpow]
    exact zpow_le_zpow_right₀ (by norm_num) (by omega)
  · refine ⟨(f - 52 + 1074).toNat, by omega, ?_, .inr ?_⟩
    · rw [hpow]
      refine hhigh.trans_le (zpow_le_zpow_right₀ (by norm_num) (by omega))
    · rw [hpow]
      refine (zpow_le_zpow_right₀ (by norm_num) (by omega)).trans hlow

/-- Rounding a quotient is correct, up to infinity. -/
theorem nearestMagnitude_spec (num : Nat) (hd : 0 < den) :
    ∃ n, nearestMagnitude num den = min infiniteMagnitude n ∧ Rounds ((num : ℚ) / den) n := by
  obtain rfl | hn := Nat.eq_zero_or_pos num
  · refine ⟨0, by simp only [nearestMagnitude, if_true, Nat.min_zero], ?_⟩
    rw [Nat.cast_zero, zero_div, ← valueAt_zero]
    exact .valueAt 0
  obtain ⟨k, hs, hhigh, hlow⟩ := scaleOf_spec hn hd
  have hunit : (0 : ℚ) < 2 ^ (k - 1074 : Int) := by positivity
  have hd' : (0 : ℚ) < den := by exact_mod_cast hd
  -- the quotient in units, as it is rounded to an integer
  obtain ⟨a, b, hb, hm, hab⟩ : ∃ a b, 0 < b ∧
      (if 0 ≤ scaleOf num den then roundQuotient num (den * pow2 (scaleOf num den).toNat)
        else roundQuotient (num * pow2 (-scaleOf num den).toNat) den) = roundQuotient a b ∧
      (num : ℚ) / den = (a : ℚ) / b * 2 ^ (k - 1074 : Int) := by
    rw [hs]
    split
    · next h =>
      obtain ⟨i, hi⟩ := Int.eq_ofNat_of_zero_le h
      refine ⟨_, _, Nat.mul_pos hd (Nat.two_pow_pos i), by rw [hi, Int.toNat_natCast, pow2_eq], ?_⟩
      rw [hi, zpow_natCast]
      push_cast
      field_simp
    · next h =>
      obtain ⟨i, hi⟩ : ∃ i : Nat, (k - 1074 : Int) = -i := ⟨(-(k - 1074 : Int)).toNat, by omega⟩
      refine ⟨_, _, hd, by rw [hi, neg_neg, Int.toNat_natCast, pow2_eq], ?_⟩
      rw [hi, zpow_neg, zpow_natCast]
      push_cast
      field_simp
  obtain ⟨hle, hge, heven⟩ := roundQuotient_spec a hb
  rw [hab] at hhigh hlow
  have hu : (a : ℚ) / b < 2 ^ 53 := lt_of_mul_lt_mul_right hhigh hunit.le
  have hk : k = 0 ∨ 2 ^ 52 ≤ (a : ℚ) / b := hlow.imp_right fun h => le_of_mul_le_mul_right h hunit
  have hm53 : roundQuotient a b ≤ 2 ^ 53 := by
    have : (roundQuotient a b : ℚ) < (2 ^ 53 + 1 : Nat) := by
      push_cast
      linarith
    exact Nat.le_of_lt_succ (by exact_mod_cast this)
  have hm52 : k = 0 ∨ 2 ^ 52 ≤ roundQuotient a b := by
    refine hk.imp_right fun h => ?_
    have : ((2 ^ 52 : Nat) : ℚ) < (roundQuotient a b + 1 : Nat) := by
      push_cast
      linarith
    exact Nat.le_of_lt_succ (by exact_mod_cast this)
  have hrounds := rounds_of_scaled hm53 hk hu hle hge heven hm52
  refine ⟨_, ?_, hab ▸ hrounds⟩
  have hk' : (scaleOf num den + 1074).toNat = k := by omega
  rw [nearestMagnitude, if_neg hn.ne']
  dsimp only
  rw [hm, hk', pow2_eq]

variable {x y : Binary64} {negative : Bool}

theorem infiniteMagnitude_lt : infiniteMagnitude < 2 ^ 63 := by decide

theorem toNat_ofMagnitude (hn : n < 2 ^ 63) :
    (ofMagnitude negative n).bits.toNat = if negative then n + 2 ^ 63 else n := by
  cases negative <;> simp [ofMagnitude, ofNatBits, pow2_eq] <;> omega

theorem magnitude_ofMagnitude (hn : n < 2 ^ 63) : (ofMagnitude negative n).magnitude = n := by
  rw [magnitude, toNat_ofMagnitude hn, pow2_eq]
  cases negative
  · exact Nat.mod_eq_of_lt hn
  · simpa using hn

theorem isNegative_ofMagnitude (hn : n < 2 ^ 63) : (ofMagnitude negative n).isNegative = negative := by
  rw [isNegative, toNat_ofMagnitude hn, pow2_eq]
  cases negative
  · simpa using hn
  · simp

theorem magnitude_lt (x : Binary64) : x.magnitude < 2 ^ 63 :=
  Nat.mod_lt _ (by decide)

/-- The sign and the magnitude are all there is to a number. -/
theorem ext_magnitude (hs : x.isNegative = y.isNegative) (hm : x.magnitude = y.magnitude) : x = y := by
  have hx := x.bits.toNat_lt
  have hy := y.bits.toNat_lt
  rw [isNegative, isNegative, decide_eq_decide] at hs
  simp only [magnitude, pow2_eq] at hs hm
  obtain ⟨a⟩ := x
  obtain ⟨b⟩ := y
  exact congrArg mk (UInt64.toNat_inj.1 (by dsimp only at *; omega))

theorem ofMagnitude_magnitude (x : Binary64) : ofMagnitude x.isNegative x.magnitude = x :=
  ext_magnitude (isNegative_ofMagnitude x.magnitude_lt) (magnitude_ofMagnitude x.magnitude_lt)

theorem isFinite_iff : x.isFinite = true ↔ x.magnitude < infiniteMagnitude := by
  simp [isFinite]

/-- Rounding with a sign gives a finite number just if its magnitude is the one that the value is rounded to. -/
theorem ofMagnitude_min_eq (hv : Rounds v n) (hx : x.isFinite = true) :
    ofMagnitude x.isNegative (min infiniteMagnitude n) = x ↔ Rounds v x.magnitude := by
  have hmin : min infiniteMagnitude n < 2 ^ 63 := (Nat.min_le_left ..).trans_lt infiniteMagnitude_lt
  rw [isFinite_iff] at hx
  constructor
  · intro h
    have hm := congrArg magnitude h
    rw [magnitude_ofMagnitude hmin] at hm
    obtain rfl : n = x.magnitude := by omega
    exact hv
  · intro h
    obtain rfl := hv.unique h
    rw [Nat.min_eq_right hx.le, ofMagnitude_magnitude]

end Hotload.Binary64
