import Hotload.Proofs.Binary64.Rounding

/-!
Decimals are read correctly. A decimal reads as a finite number just if its value is rounded to the number; what is said
without looking at the power of ten, far beyond the largest number or below the least one, is no exception.
-/
namespace Hotload.Binary64

variable {x : Binary64} {d : Decimal}

theorem gridPoint_den_pos (count : Nat) (power : Int) : 0 < (gridPoint count power).2 := by
  unfold gridPoint
  split
  · exact Nat.one_pos
  · exact Nat.pow_pos (by norm_num)

theorem gridPoint_value (count : Nat) (power : Int) :
    ((gridPoint count power).1 : ℚ) / (gridPoint count power).2 = count * 10 ^ power := by
  unfold gridPoint
  split
  · next h =>
    obtain ⟨i, rfl⟩ := Int.eq_ofNat_of_zero_le h
    rw [Int.toNat_natCast, pow10_eq, zpow_natCast]
    push_cast
    ring
  · next h =>
    obtain ⟨i, rfl⟩ : ∃ i : Nat, power = -i := ⟨(-power).toNat, by omega⟩
    rw [neg_neg, Int.toNat_natCast, pow10_eq, zpow_neg, zpow_natCast]
    push_cast
    rfl

theorem decimalLength_pos (n : Nat) : 0 < decimalLength n :=
  Nat.length_toDigits_pos

theorem lt_pow_decimalLength (n : Nat) : n < 10 ^ decimalLength n :=
  (Nat.length_toDigits_le_iff (by norm_num) (decimalLength_pos n)).1 (Nat.le_refl _)

theorem pow_le_of_decimalLength {n k : Nat} (hn : 0 < n) (hk : decimalLength n = k + 1) : 10 ^ k ≤ n := by
  by_contra h
  obtain rfl | hpos := Nat.eq_zero_or_pos k
  · omega
  · have := (Nat.length_toDigits_le_iff (b := 10) (by norm_num) hpos).2 (not_le.1 h)
    unfold decimalLength at hk
    omega

theorem Decimal.value_lt (d : Decimal) : d.value < 10 ^ (d.power + d.length) := by
  have h : (d.digits : ℚ) < (10 ^ d.length : Nat) := by exact_mod_cast lt_pow_decimalLength d.digits
  rw [value, zpow_add₀ (by norm_num), mul_comm (10 ^ d.power), zpow_natCast]
  push_cast at h
  exact mul_lt_mul_of_pos_right h (by positivity)

theorem Decimal.le_value (hd : 0 < d.digits) : (10 : ℚ) ^ (d.power + d.length - 1) ≤ d.value := by
  obtain ⟨k, hk⟩ : ∃ k, d.length = k + 1 := ⟨d.length - 1, by have := decimalLength_pos d.digits; unfold length; omega⟩
  have h : ((10 ^ k : Nat) : ℚ) ≤ d.digits := by exact_mod_cast pow_le_of_decimalLength hd hk
  rw [value, hk, show d.power + (k + 1 : Nat) - 1 = k + d.power by omega, zpow_add₀ (by norm_num), zpow_natCast]
  push_cast at h
  exact mul_le_mul_of_nonneg_right h (by positivity)

theorem two_pow_le : (2 : ℚ) ^ 1023 ≤ 10 ^ 308 :=
  calc (2 : ℚ) ^ 1023 = (2 ^ 93) ^ 11 := by rw [← pow_mul]
    _ ≤ (10 ^ 28) ^ 11 := by
      refine pow_le_pow_left₀ (by positivity) ?_ 11
      norm_num
    _ = 10 ^ 308 := by rw [← pow_mul]

theorem valueAt_infinite : valueAt infiniteMagnitude = 2 ^ 1024 := by
  have h := (valueAt_eq (k := 2046) (j := 2 ^ 52) (by norm_num) (.inr (le_refl _))).1
  rw [show 2046 * 2 ^ 52 + 2 ^ 52 = infiniteMagnitude by decide] at h
  rw [h, show ((2046 : Nat) : Int) - 1074 = (972 : Nat) by norm_num, zpow_natCast, Nat.cast_pow, Nat.cast_ofNat, ← pow_add]

/-- From here on a value is rounded to infinity. -/
theorem boundary_largest : boundary (infiniteMagnitude - 1) = 2 ^ 1024 - 2 ^ 970 := by
  have hgap : (2 : ℚ) ^ gapExponent (infiniteMagnitude - 1) = 2 * 2 ^ 970 := by
    rw [show gapExponent (infiniteMagnitude - 1) = (971 : Nat) by decide, zpow_natCast, pow_succ']
  have hsucc := valueAt_succ (infiniteMagnitude - 1)
  rw [show infiniteMagnitude - 1 + 1 = infiniteMagnitude by decide, valueAt_infinite, hgap] at hsucc
  rw [boundary, hgap, hsucc, mul_div_cancel_left₀ _ two_ne_zero, two_mul, ← add_assoc, add_sub_cancel_right]

theorem rounds_finite_iff {v : ℚ} {n : Nat} (h : Rounds v n) : n < infiniteMagnitude ↔ v < 2 ^ 1024 - 2 ^ 970 := by
  rw [← boundary_largest]
  constructor
  · intro hn
    have hle : boundary n ≤ boundary (infiniteMagnitude - 1) := boundary_strictMono.monotone (by omega)
    refine lt_of_le_of_ne (h.le.trans hle) fun heq => ?_
    -- halfway to infinity a value goes there, as the largest number is odd
    have hlargest : n = infiniteMagnitude - 1 := boundary_strictMono.injective (le_antisymm hle (heq ▸ h.le))
    have heven := h.even (.inl (hlargest ▸ heq))
    rw [hlargest] at heven
    exact absurd heven (by decide)
  · intro hv
    by_contra hn
    have hge := h.ge (n - 1) (by rw [infiniteMagnitude, pow2_eq] at hn; omega)
    have hle : boundary (infiniteMagnitude - 1) ≤ boundary (n - 1) := boundary_strictMono.monotone (by omega)
    exact absurd hv (hle.trans hge).not_gt

theorem valueAt_infinite_le : valueAt infiniteMagnitude ≤ 10 ^ (309 : Int) := by
  rw [valueAt_infinite, show (309 : Int) = (309 : Nat) by norm_num, zpow_natCast, pow_succ, pow_succ _ 308]
  exact mul_le_mul two_pow_le (by norm_num) (by norm_num) (by positivity)

theorem boundary_zero : boundary 0 = (2 ^ 1075)⁻¹ := by
  rw [boundary, valueAt_zero, show gapExponent 0 = -(1074 : Nat) by decide, zpow_neg, zpow_natCast, pow_succ]
  field_simp
  norm_num

theorem le_boundary_zero : (10 : ℚ) ^ (-324 : Int) ≤ boundary 0 := by
  rw [boundary_zero, show (-324 : Int) = -(324 : Nat) by norm_num, zpow_neg, zpow_natCast]
  refine inv_anti₀ (by positivity) ?_
  calc (2 : ℚ) ^ 1075 = 2 ^ 1023 * 2 ^ 52 := by rw [← pow_add]
    _ ≤ 10 ^ 308 * 10 ^ 16 := mul_le_mul two_pow_le (by norm_num) (by positivity) (by positivity)
    _ = 10 ^ 324 := by rw [← pow_add]

/-- A decimal is rounded to a magnitude, up to infinity. -/
theorem ofDecimal_spec (negative : Bool) (d : Decimal) :
    ∃ n, ofDecimal negative d.digits d.power = ofMagnitude negative (min infiniteMagnitude n) ∧ Rounds d.value n := by
  obtain ⟨n, hn, hr⟩ := nearestMagnitude_spec (gridPoint d.digits d.power).1 (gridPoint_den_pos d.digits d.power)
  rw [gridPoint_value] at hr
  refine ⟨n, ?_, hr⟩
  rw [← hn]
  unfold ofDecimal
  split
  · next h =>
    rw [hn]
    have hzero : Rounds d.value 0 := by
      rw [Decimal.value, h, Nat.cast_zero, zero_mul, ← valueAt_zero]
      exact .valueAt 0
    rw [hr.unique hzero, Nat.min_zero]
  dsimp only
  split
  · next h htop =>
    have hle : valueAt infiniteMagnitude ≤ d.value := by
      refine (valueAt_infinite_le.trans ?_).trans (Decimal.le_value (Nat.pos_of_ne_zero h))
      exact zpow_le_zpow_right₀ (by norm_num) (by unfold Decimal.length; omega)
    rw [hn, Nat.min_eq_left (hr.le_of_valueAt_le hle)]
    rfl
  split
  · next h _ htop =>
    have hzero : Rounds d.value 0 := by
      have hlt : d.value < boundary 0 := by
        refine (d.value_lt.trans_le ?_).trans_le le_boundary_zero
        exact zpow_le_zpow_right₀ (by norm_num) (by unfold Decimal.length; omega)
      exact ⟨hlt.le, nofun, fun _ => rfl⟩
    rw [hn, hr.unique hzero, Nat.min_zero]
  · unfold gridPoint
    split <;> rfl

/-- A decimal reads as a finite number just if it is rounded to the number. -/
theorem Decimal.readsAs_iff (hx : x.isFinite = true) : d.ReadsAs x ↔ Rounds d.value x.magnitude := by
  obtain ⟨n, hn, hr⟩ := ofDecimal_spec x.isNegative d
  rw [ReadsAs, hn]
  exact ofMagnitude_min_eq hr hx

end Hotload.Binary64
