import Hotload.Proofs.Binary64.Decimal
import Mathlib.Tactic.NormNum

/-!
The shortest decimal is the one that is asked for. A point of a decimal grid reads back just if it lies within the interval
of the number, and of all such points those next to the number come first; so a grid without them has none. The coarsest
grid that has one gives the fewest digits, and its nearest point is the nearest decimal of that length.
-/
namespace Hotload.Binary64

variable {x : Binary64} {k c : Nat} {p : Int}

theorem boundary_eq_sub (k : Nat) : boundary k = valueAt (k + 1) - 2 ^ gapExponent k / 2 := by
  rw [valueAt_succ, boundary]
  ring

theorem gapExponent_mono {m n : Nat} (h : m ≤ n) : gapExponent m ≤ gapExponent n := by
  have := Nat.div_le_div_right (c := 2 ^ 52) h
  simp only [gapExponent, pow2_eq]
  omega

/-- The gap below a number is half as wide where a binade starts. -/
theorem gapExponent_pred (k : Nat) :
    gapExponent k = if (k + 1) % 2 ^ 52 = 0 ∧ 1 < (k + 1) / 2 ^ 52 then gapExponent (k + 1) - 1 else gapExponent (k + 1) := by
  simp only [gapExponent, pow2_eq]
  split <;> omega

/-- The ends of the interval, and the number itself, in quarters of the unit. -/
theorem interval_eq (x : Binary64) :
    0 < x.interval.den ∧
      (x.interval.value : ℚ) / x.interval.den = 4 * x.significand * 2 ^ (x.exponent - 2) ∧
      (x.interval.high : ℚ) / x.interval.den = (4 * x.significand + 2) * 2 ^ (x.exponent - 2) ∧
      (x.interval.low : ℚ) / x.interval.den =
        (4 * x.significand - (if x.fraction = 0 ∧ 1 < x.exponentField then 1 else 2) : Nat) * 2 ^ (x.exponent - 2) := by
  have hbelow : (if (x.fraction = 0 && 1 < x.exponentField) = true then 1 else 2) =
      if x.fraction = 0 ∧ 1 < x.exponentField then 1 else 2 := by simp
  simp only [interval, hbelow]
  generalize (if x.fraction = 0 ∧ 1 < x.exponentField then 1 else 2) = below
  by_cases h : 0 ≤ x.exponent - 2
  · obtain ⟨i, hi⟩ := Int.eq_ofNat_of_zero_le h
    simp only [hi, Int.natCast_nonneg, if_true, Int.toNat_natCast, pow2_eq, zpow_natCast, Nat.one_pos, true_and]
    push_cast
    refine ⟨?_, ?_, ?_⟩ <;> ring
  · obtain ⟨i, hi⟩ : ∃ i : Nat, x.exponent - 2 = -i := ⟨(-(x.exponent - 2)).toNat, by omega⟩
    simp only [h, if_false]
    simp only [hi, neg_neg, Int.toNat_natCast, pow2_eq, zpow_neg, zpow_natCast, Nat.mul_one]
    push_cast
    exact ⟨Nat.two_pow_pos i, rfl, rfl, rfl⟩

theorem interval_spec (hk : x.magnitude = k + 1) :
    (x.interval.value : ℚ) / x.interval.den = x.value ∧ (x.interval.high : ℚ) / x.interval.den = boundary (k + 1) ∧
      (x.interval.low : ℚ) / x.interval.den = boundary k := by
  obtain ⟨-, hvalue, hhigh, hlow⟩ := x.interval_eq
  have hunit : (2 : ℚ) ^ x.exponent = 4 * 2 ^ (x.exponent - 2) := by
    rw [show x.exponent = (x.exponent - 2) + (2 : Nat) by omega, zpow_add₀ (by norm_num), zpow_natCast]
    norm_num
    ring
  have hexp : gapExponent (k + 1) = x.exponent := by rw [← hk]; rfl
  have hval : valueAt (k + 1) = x.significand * 2 ^ x.exponent := by
    rw [← hk]
    rfl
  have hpos : 0 < x.significand := by
    have h := valueAt_strictMono (Nat.succ_pos k)
    rw [valueAt_zero, hval] at h
    exact Nat.pos_of_ne_zero fun h0 => by simp [h0] at h
  have hpred : gapExponent k =
      if x.fraction = 0 ∧ 1 < x.exponentField then x.exponent - 1 else x.exponent := by
    rw [gapExponent_pred, hexp, ← hk]
    rfl
  refine ⟨?_, ?_, ?_⟩
  · rw [hvalue, value, hk, hval, hunit]
    ring
  · rw [hhigh, boundary, hval, hexp, hunit]
    ring
  · rw [hlow, boundary_eq_sub, hval, hpred]
    split
    · rw [Nat.cast_sub (by omega), show x.exponent - 1 = x.exponent - 2 + 1 by omega, two_zpow_succ, hunit]
      push_cast
      ring
    · rw [Nat.cast_sub (by omega), hunit]
      push_cast
      ring

/-- The interval holds what is rounded to the number. -/
theorem contains_iff (hk : x.magnitude = k + 1) {num den : Nat} (hd : 0 < den) :
    x.interval.contains num den = true ↔ Rounds ((num : ℚ) / den) x.magnitude := by
  obtain ⟨-, hhigh, hlow⟩ := interval_spec hk
  have hden := x.interval_eq.1
  have hclosed : x.interval.closed = decide (x.magnitude % 2 = 0) := by
    have hparity : x.significand % 2 = x.magnitude % 2 := by
      have hs : x.significand = x.fraction ∨ x.significand = x.fraction + pow2 52 := by
        unfold significand
        split
        · exact .inl rfl
        · exact .inr rfl
      simp only [fraction, pow2_eq] at hs
      omega
    rw [← hparity]
    rfl
  have hd' : (0 : ℚ) < den := by exact_mod_cast hd
  have hden' : (0 : ℚ) < x.interval.den := by exact_mod_cast hden
  -- the cross products compare the quotients
  have hleft {a : Nat} : a * den ≤ num * x.interval.den ↔ (a : ℚ) / x.interval.den ≤ num / den := by
    rw [div_le_div_iff₀ hden' hd']
    exact_mod_cast Iff.rfl
  have hright {a : Nat} : num * x.interval.den ≤ a * den ↔ (num : ℚ) / den ≤ a / x.interval.den := by
    rw [div_le_div_iff₀ hd' hden']
    exact_mod_cast Iff.rfl
  rw [Interval.contains, hclosed, hk]
  by_cases heven : (k + 1) % 2 = 0
  · simp only [heven, decide_true, if_true, Bool.and_eq_true, decide_eq_true_eq, hleft, hright, hhigh, hlow]
    constructor
    · rintro ⟨hl, hh⟩
      exact ⟨hh, fun j hj => Nat.succ.inj hj ▸ hl, fun _ => heven⟩
    · intro h
      exact ⟨h.ge k rfl, h.le⟩
  · simp only [heven, decide_false, Bool.false_eq_true, if_false, Bool.and_eq_true, decide_eq_true_eq, ← not_le, hleft,
      hright, hhigh, hlow]
    rw [not_le, not_le]
    constructor
    · rintro ⟨hl, hh⟩
      refine ⟨hh.le, fun j hj => Nat.succ.inj hj ▸ hl.le, ?_⟩
      rintro (h | ⟨j, hj, h⟩)
      · exact absurd h hh.ne
      · exact absurd (Nat.succ.inj hj ▸ h) hl.ne'
    · intro h
      refine ⟨lt_of_le_of_ne (h.ge k rfl) fun he => heven (h.even (.inr ⟨k, rfl, he.symm⟩)), ?_⟩
      exact lt_of_le_of_ne h.le fun he => heven (h.even (.inl he))

/-- A point of a grid that reads as the number, its sign apart. -/
def Reaches (x : Binary64) (p : Int) (c : Nat) : Prop :=
  Rounds (c * 10 ^ p) x.magnitude

theorem contains_gridPoint (hk : x.magnitude = k + 1) :
    x.interval.contains (gridPoint c p).1 (gridPoint c p).2 = true ↔ x.Reaches p c := by
  rw [contains_iff hk (gridPoint_den_pos c p), gridPoint_value]
  exact Iff.rfl

/-- A number that is a quotient of steps lies between the multiples next to it, and twice the remainder tells to which of
them it is nearer. -/
theorem between_steps (num : Nat) {den : Nat} (hd : 0 < den) {v g : ℚ} (hg : 0 < g) (hv : v = (num : ℚ) / den * g) :
    0 ≤ v - (num / den : Nat) * g ∧ 0 < (num / den + 1 : Nat) * g - v ∧
      (2 * (num % den) ≤ den ↔ v - (num / den : Nat) * g ≤ (num / den + 1 : Nat) * g - v) ∧
      (den ≤ 2 * (num % den) ↔ (num / den + 1 : Nat) * g - v ≤ v - (num / den : Nat) * g) := by
  have hd' : (0 : ℚ) < den := by exact_mod_cast hd
  have hlow : v - (num / den : Nat) * g = (num % den : Nat) / den * g := by
    rw [hv, div_eq_add_mod num hd]
    ring
  have hhigh : (num / den + 1 : Nat) * g - v = (1 - (num % den : Nat) / den) * g := by
    rw [hv, div_eq_add_mod num hd]
    push_cast
    ring
  have hlt : (num % den : Nat) / (den : ℚ) < 1 := by
    rw [div_lt_one hd']
    exact_mod_cast Nat.mod_lt num hd
  rw [hlow, hhigh, mul_le_mul_iff_left₀ hg, mul_le_mul_iff_left₀ hg]
  refine ⟨by positivity, mul_pos (sub_pos.2 hlt) hg, ?_, ?_⟩
  · rw [le_sub_iff_add_le, ← two_mul, ← mul_div_assoc, div_le_one hd']
    exact_mod_cast Iff.rfl
  · rw [sub_le_iff_le_add, ← two_mul, ← mul_div_assoc, one_le_div hd']
    exact_mod_cast Iff.rfl

/-- A grid is searched next to the number: the neighbour below and the one above. -/
theorem onGrid_cases (hk : x.magnitude = k + 1) (p : Int) :
    ∃ c : Nat, c * 10 ^ p ≤ x.value ∧ x.value < (c + 1 : Nat) * 10 ^ p ∧
      ((x.interval.onGrid p = none ∧ ¬ x.Reaches p c ∧ ¬ x.Reaches p (c + 1)) ∨
        (x.interval.onGrid p = some c ∧ x.Reaches p c ∧ (x.Reaches p (c + 1) →
          x.value - c * 10 ^ p ≤ (c + 1 : Nat) * 10 ^ p - x.value ∧
            (x.value - c * 10 ^ p = (c + 1 : Nat) * 10 ^ p - x.value → c % 2 = 0))) ∨
        (x.interval.onGrid p = some (c + 1) ∧ x.Reaches p (c + 1) ∧ (x.Reaches p c →
          (c + 1 : Nat) * 10 ^ p - x.value ≤ x.value - c * 10 ^ p ∧
            (x.value - c * 10 ^ p = (c + 1 : Nat) * 10 ^ p - x.value → (c + 1) % 2 = 0)))) := by
  have hunit := gridPoint_value 1 p
  have hnum : 0 < (gridPoint 1 p).1 := by
    by_contra h
    have : (0 : ℚ) < (1 : Nat) * 10 ^ p := by positivity
    rw [← hunit, Nat.eq_zero_of_not_pos h] at this
    simp at this
  have hden := gridPoint_den_pos 1 p
  have hi := x.interval_eq.1
  generalize hn : x.interval.value * (gridPoint 1 p).2 = num
  generalize hd : x.interval.den * (gridPoint 1 p).1 = den
  -- the number, counted in steps of the grid
  have hv : x.value = (num : ℚ) / den * 10 ^ p := by
    have hi' : (x.interval.den : ℚ) ≠ 0 := by exact_mod_cast hi.ne'
    have hnum' : ((gridPoint 1 p).1 : ℚ) ≠ 0 := by exact_mod_cast hnum.ne'
    have hden' : ((gridPoint 1 p).2 : ℚ) ≠ 0 := by exact_mod_cast hden.ne'
    rw [Nat.cast_one, one_mul] at hunit
    rw [← (interval_spec hk).1, ← hunit, ← hn, ← hd]
    push_cast
    field_simp
  obtain ⟨hlow, hhigh, hle, hge⟩ := between_steps num (hd ▸ Nat.mul_pos hi hnum) (by positivity) hv
  have heq : 2 * (num % den) = den ↔ x.value - (num / den : Nat) * 10 ^ p = (num / den + 1 : Nat) * 10 ^ p - x.value :=
    ⟨fun h => le_antisymm (hle.1 h.le) (hge.1 h.ge), fun h => Nat.le_antisymm (hle.2 h.le) (hge.2 h.ge)⟩
  refine ⟨num / den, sub_nonneg.1 hlow, sub_pos.1 hhigh, ?_⟩
  have hc := contains_gridPoint (c := num / den) (p := p) hk
  have hc' := contains_gridPoint (c := num / den + 1) (p := p) hk
  simp only [Interval.onGrid, hn, hd]
  generalize x.interval.contains (gridPoint (num / den) p).1 (gridPoint (num / den) p).2 = below at hc
  generalize x.interval.contains (gridPoint (num / den + 1) p).1 (gridPoint (num / den + 1) p).2 = above at hc'
  rw [← hc, ← hc', ← hle, ← hge, ← heq]
  match below, above with
  | false, false => simp
  | true, false => simp
  | false, true => simp
  | true, true =>
    by_cases hupper : 2 * (num % den) > den ∨ 2 * (num % den) = den ∧ num / den % 2 = 1
    · simp [hupper]
      omega
    · simp [hupper]
      omega

theorem gridPoint_le {a b : Nat} (h : a ≤ b) (p : Int) : (a : ℚ) * 10 ^ p ≤ b * 10 ^ p := by
  have h' : (a : ℚ) ≤ b := by exact_mod_cast h
  exact mul_le_mul_of_nonneg_right h' (by positivity)

/-- Without a point next to the number a grid has no point that reads as the number. -/
theorem not_reaches_of_onGrid (hk : x.magnitude = k + 1) (h : x.interval.onGrid p = none) (n : Nat) : ¬ x.Reaches p n := by
  intro hn
  have hself : Rounds x.value x.magnitude := .valueAt _
  obtain ⟨f, hle, hlt, ⟨-, hbelow, habove⟩ | ⟨hf, -⟩ | ⟨hf, -⟩⟩ := onGrid_cases hk p
  · obtain hnf | hnf := Nat.lt_or_ge f n
    · exact habove (hself.between hn hlt.le (gridPoint_le hnf p))
    · exact hbelow (hn.between hself (gridPoint_le hnf p) hle)
  · simp [h] at hf
  · simp [h] at hf

/-- The point that a grid is searched for is the nearest one; of two equally near ones it is the even one. -/
theorem onGrid_nearest (hk : x.magnitude = k + 1) (h : x.interval.onGrid p = some c) :
    x.Reaches p c ∧ ∀ n : Nat, x.Reaches p n → x.distance ⟨c, p⟩ ≤ x.distance ⟨n, p⟩ ∧
      (x.distance ⟨n, p⟩ = x.distance ⟨c, p⟩ → n ≠ c → c % 2 = 0) := by
  have hself : Rounds x.value x.magnitude := .valueAt _
  have hg : (0 : ℚ) < 10 ^ p := by positivity
  obtain ⟨f, hle, hlt, hcases⟩ := onGrid_cases hk p
  have hbelow {n : Nat} (hn : n ≤ f) : x.distance ⟨n, p⟩ = x.value - n * 10 ^ p := by
    rw [distance, Decimal.value, abs_sub_comm, abs_of_nonneg (sub_nonneg.2 ((gridPoint_le hn p).trans hle))]
  have habove {n : Nat} (hn : f < n) : x.distance ⟨n, p⟩ = n * 10 ^ p - x.value := by
    rw [distance, Decimal.value, abs_of_nonneg (sub_nonneg.2 (hlt.le.trans (gridPoint_le hn p)))]
  have hinj {a b : Nat} (hab : (a : ℚ) * 10 ^ p = b * 10 ^ p) : a = b := by
    exact_mod_cast mul_right_cancel₀ hg.ne' hab
  obtain ⟨hf, -⟩ | ⟨hf, hreach, hother⟩ | ⟨hf, hreach, hother⟩ := hcases
  · simp [h] at hf
  · obtain rfl : c = f := by simpa [h] using hf
    refine ⟨hreach, fun n hn => ?_⟩
    rw [hbelow (le_refl c)]
    obtain hnf | hnf := Nat.lt_or_ge c n
    · have hnext := gridPoint_le (Nat.succ_le_of_lt hnf) p
      obtain ⟨hnear, heven⟩ := hother (hself.between hn hlt.le hnext)
      rw [habove hnf]
      exact ⟨by linarith, fun he _ => heven (by linarith)⟩
    · have hnext := gridPoint_le hnf p
      rw [hbelow hnf]
      exact ⟨by linarith, fun he hne => absurd (hinj (by linarith)) hne⟩
  · obtain rfl : c = f + 1 := by simpa [h] using hf
    refine ⟨hreach, fun n hn => ?_⟩
    rw [habove (Nat.lt_succ_self f)]
    obtain hnf | hnf := Nat.lt_or_ge f n
    · have hnext := gridPoint_le (Nat.succ_le_of_lt hnf) p
      rw [habove hnf]
      exact ⟨by linarith, fun he hne => absurd (hinj (by linarith)) hne⟩
    · have hnext := gridPoint_le hnf p
      obtain ⟨hnear, heven⟩ := hother (hn.between hself hnext hle)
      rw [hbelow hnf]
      exact ⟨by linarith, fun he _ => heven (by linarith)⟩

theorem mem_powers : p ∈ powers ↔ -350 ≤ p ∧ p ≤ 309 := by
  simp only [powers, List.mem_map, List.mem_range]
  constructor
  · rintro ⟨i, hi, rfl⟩
    omega
  · intro h
    exact ⟨(309 - p).toNat, by omega, by omega⟩

theorem powers_descending : powers.Pairwise (· > ·) := by
  rw [powers, List.pairwise_map]
  refine List.pairwise_lt_range.imp fun h => ?_
  omega

/-- The first power in the order of the search is the largest one. -/
theorem findSome_powers {β : Type} {f : Int → Option β} {b : β} (h : powers.findSome? f = some b) :
    ∃ p, f p = some b ∧ ∀ q, p < q → q ≤ 309 → f q = none := by
  obtain ⟨before, p, after, hsplit, hp, hnone⟩ := List.findSome?_eq_some_iff.1 h
  refine ⟨p, hp, fun q hpq hq => ?_⟩
  have hmem : p ∈ powers := by simp [hsplit]
  have hq' : q ∈ powers := mem_powers.2 ⟨(mem_powers.1 hmem).1.trans hpq.le, hq⟩
  have hdesc := powers_descending
  rw [hsplit] at hq' hdesc
  obtain hq' | hq' := List.mem_append.1 hq'
  · exact hnone q hq'
  · obtain rfl | hq' := List.mem_cons.1 hq'
    · exact absurd hpq (lt_irrefl _)
    · have := List.rel_of_pairwise_cons (List.pairwise_append.1 hdesc).2.1 hq'
      exact absurd hpq (lt_asymm this)

theorem boundary_pos (n : Nat) : 0 < boundary n :=
  (valueAt_nonneg n).trans_lt (valueAt_lt_boundary n)

theorem not_reaches_zero (hk : x.magnitude = k + 1) (p : Int) : ¬ x.Reaches p 0 := by
  intro h
  have hge := h.ge k hk
  rw [Nat.cast_zero, zero_mul] at hge
  exact absurd (boundary_pos k) hge.not_gt

/-- On the grids beyond the largest number there is nothing to find. -/
theorem lt_of_reaches (hx : x.isFinite = true) (hk : x.magnitude = k + 1) (h : x.Reaches p c) : p < 309 := by
  by_contra hp
  have hc : 1 ≤ c := Nat.one_le_iff_ne_zero.2 fun h0 => not_reaches_zero hk p (h0 ▸ h)
  have hpow : (10 : ℚ) ^ (309 : Int) ≤ 10 ^ p := zpow_le_zpow_right₀ (by norm_num) (by omega)
  have hone := gridPoint_le hc p
  rw [Nat.cast_one, one_mul] at hone
  have := h.le_of_valueAt_le (valueAt_infinite_le.trans (hpow.trans hone))
  rw [isFinite_iff] at hx
  omega

/-- On the least grid the next point above a number is not yet halfway to the next number. -/
theorem onGrid_least (hk : x.magnitude = k + 1) : x.interval.onGrid (-350) ≠ none := by
  intro h
  obtain ⟨f, hle, hlt, -⟩ := onGrid_cases hk (-350)
  have hstep : (10 : ℚ) ^ (-350 : Int) < boundary 0 :=
    (zpow_lt_zpow_right₀ (by norm_num) (by norm_num)).trans_le le_boundary_zero
  have hgap : boundary 0 ≤ 2 ^ gapExponent x.magnitude / 2 := by
    rw [boundary, valueAt_zero, zero_add]
    have : (2 : ℚ) ^ gapExponent 0 ≤ 2 ^ gapExponent x.magnitude :=
      zpow_le_zpow_right₀ (by norm_num) (gapExponent_mono (Nat.zero_le _))
    linarith
  have habove : ((f + 1 : Nat) : ℚ) * 10 ^ (-350 : Int) < boundary x.magnitude := by
    rw [boundary, ← value, Nat.cast_succ, add_one_mul]
    linarith
  have hbelow : boundary k < ((f + 1 : Nat) : ℚ) * 10 ^ (-350 : Int) := by
    refine (boundary_lt_valueAt k).trans ?_
    rw [← hk]
    exact hlt
  refine not_reaches_of_onGrid hk h (f + 1) ⟨habove.le, fun j hj => ?_, ?_⟩
  · obtain rfl : j = k := by omega
    exact hbelow.le
  · rintro (he | ⟨j, hj, he⟩)
    · exact absurd he habove.ne
    · obtain rfl : j = k := by omega
      exact absurd he hbelow.ne'

/-- The decimal found is on the coarsest grid that has a point for the number. -/
theorem shortest_spec (hx : x.isFinite = true) (hk : x.magnitude = k + 1) :
    ∃ c p, x.shortest = ⟨c, p⟩ ∧ x.interval.onGrid p = some c ∧ ∀ q n, x.Reaches q n → q ≤ p := by
  have hzero : x.isZero = false := by simp [isZero, hk]
  rw [shortest, hzero, if_neg Bool.false_ne_true]
  dsimp only
  obtain hnone | ⟨d, hd⟩ := Option.eq_none_or_eq_some
      (powers.findSome? fun p => (x.interval.onGrid p).map (⟨·, p⟩ : Nat → Decimal))
  · have hleast := List.findSome?_eq_none_iff.1 hnone (-350) (mem_powers.2 (by omega))
    exact absurd (Option.map_eq_none_iff.1 hleast) (onGrid_least hk)
  · rw [hd]
    obtain ⟨p, hp, hcoarser⟩ := findSome_powers hd
    obtain ⟨c, hc, rfl⟩ := Option.map_eq_some_iff.1 hp
    refine ⟨c, p, rfl, hc, fun q n hn => ?_⟩
    by_contra hq
    have hfree := hcoarser q (by omega) (lt_of_reaches hx hk hn).le
    exact not_reaches_of_onGrid hk (Option.map_eq_none_iff.1 hfree) n hn

/-- The least number is a little less than five units of the 324th decimal place. -/
theorem least_bounds :
    49 / 10 * (10 : ℚ) ^ (-324 : Int) < 2 ^ (-1074 : Int) ∧ (2 : ℚ) ^ (-1074 : Int) < 5 * 10 ^ (-324 : Int) := by
  have hlow : 49 * 2 ^ 1074 < 10 * 10 ^ 324 := by decide +kernel
  have hhigh : 10 ^ 324 < 5 * 2 ^ 1074 := by decide +kernel
  have htwo : (2 : ℚ) ^ (-1074 : Int) = ((2 ^ 1074 : Nat) : ℚ)⁻¹ := by rw [Nat.cast_pow, ← zpow_natCast, ← zpow_neg]; rfl
  have hten : (10 : ℚ) ^ (-324 : Int) = ((10 ^ 324 : Nat) : ℚ)⁻¹ := by rw [Nat.cast_pow, ← zpow_natCast, ← zpow_neg]; rfl
  have htwo' : (0 : ℚ) < (2 ^ 1074 : Nat) := by rw [Nat.cast_pow]; positivity
  have hten' : (0 : ℚ) < (10 ^ 324 : Nat) := by rw [Nat.cast_pow]; positivity
  have hlow' : 49 * ((2 ^ 1074 : Nat) : ℚ) < 10 * (10 ^ 324 : Nat) := by exact_mod_cast hlow
  have hhigh' : ((10 ^ 324 : Nat) : ℚ) < 5 * (2 ^ 1074 : Nat) := by exact_mod_cast hhigh
  rw [htwo, hten]
  generalize ((2 ^ 1074 : Nat) : ℚ) = a at *
  generalize ((10 ^ 324 : Nat) : ℚ) = b at *
  rw [← div_eq_mul_inv, ← div_eq_mul_inv, div_lt_iff₀ hten', lt_div_iff₀ hten', inv_mul_eq_div, lt_div_iff₀ htwo',
    div_lt_iff₀ htwo']
  exact ⟨by linarith, hhigh'⟩

/-- If nine steps of a grid read as the number and ten do, too, the number is nearer to ten. Only the numbers below ten
times the least one have an interval this wide, and of those only the second one holds a power of ten and its
predecessor. -/
theorem nine_and_ten (hk : x.magnitude = k + 1) (hnine : x.Reaches p 9) (hten : x.Reaches p 10) :
    19 / 2 * 10 ^ p < x.value := by
  by_contra hv
  rw [not_lt] at hv
  have hg : (0 : ℚ) < 10 ^ p := by positivity
  have hhigh : ((10 : Nat) : ℚ) * 10 ^ p ≤ boundary x.magnitude := hten.le
  have hlow : boundary k ≤ ((9 : Nat) : ℚ) * 10 ^ p := hnine.ge k hk
  obtain ⟨b, j, hj, hj53, hjb⟩ := exists_binade x.magnitude
  obtain ⟨hval, hgap⟩ := valueAt_eq hj53 hjb
  rw [← hj] at hval hgap
  rw [boundary, ← value, hgap] at hhigh
  change x.value = _ at hval
  push_cast at hhigh hlow
  -- the gap is as wide as a step of the grid, so the number counts at most nine gaps
  have hwide : (10 : ℚ) ^ p ≤ 2 ^ (b - 1074 : Int) := by linarith
  have hunit : (0 : ℚ) < 2 ^ (b - 1074 : Int) := by positivity
  have hj9 : j < 10 := by
    have h : (j : ℚ) * 2 ^ (b - 1074 : Int) < (10 : Nat) * 2 ^ (b - 1074 : Int) := by
      push_cast
      linarith
    exact_mod_cast lt_of_mul_lt_mul_right h hunit.le
  obtain rfl : b = 0 := by omega
  have hjk : j = k + 1 := by omega
  subst hjk
  obtain ⟨hvalk, hgapk⟩ := valueAt_eq (k := 0) (j := k) (by omega) (.inl rfl)
  rw [Nat.zero_mul, Nat.zero_add] at hvalk hgapk
  rw [boundary, hvalk, hgapk] at hlow
  rw [hval, Nat.cast_succ] at hv hhigh
  obtain ⟨hleast, hmost⟩ := least_bounds
  rw [show ((0 : Nat) - 1074 : Int) = -1074 by norm_num] at *
  have htenth : (10 : ℚ) ^ (-324 : Int) = 10 * 10 ^ (-325 : Int) := by
    rw [← zpow_one_add₀ (by norm_num)]
    rfl
  have hdecimal : (10 : ℚ) ^ (-323 : Int) = 10 * 10 ^ (-324 : Int) := by
    rw [← zpow_one_add₀ (by norm_num)]
    rfl
  have hk0 : (0 : ℚ) ≤ k * 2 ^ (-1074 : Int) := by positivity
  obtain hp | rfl | hp := lt_trichotomy p (-324)
  · have hsmall : (10 : ℚ) ^ p ≤ 10 ^ (-325 : Int) := zpow_le_zpow_right₀ (by norm_num) (by omega)
    linarith
  · have hfirst : k = 0 := by
      by_contra hne
      have hone : (1 : ℚ) ≤ k := by exact_mod_cast Nat.one_le_iff_ne_zero.2 hne
      have := mul_le_mul_of_nonneg_right hone hunit.le
      linarith
    rw [hfirst, Nat.cast_zero] at hhigh
    linarith
  · have hlarge : (10 : ℚ) ^ (-323 : Int) ≤ 10 ^ p := zpow_le_zpow_right₀ (by norm_num) (by omega)
    linarith

/-- A decimal of at most the same length on a finer grid leaves a power of ten between itself and the decimal found,
which is then a single digit. -/
theorem reaches_of_finer {d : Decimal} {q : Int} {n : Nat} (hd : 0 < d.digits) (hreach : x.Reaches d.power d.digits)
    (hcoarsest : ∀ q n, x.Reaches q n → q ≤ d.power) (hfine : Rounds (n * 10 ^ q) x.magnitude)
    (hlt : q + decimalLength n < d.power + d.length) :
    d.length = 1 ∧ x.Reaches d.power 1 := by
  have hpow : x.Reaches (d.power + d.length - 1) 1 := by
    rw [Reaches, Nat.cast_one, one_mul]
    refine hfine.between hreach ?_ (Decimal.le_value hd)
    refine (Decimal.value_lt ⟨n, q⟩).le.trans (zpow_le_zpow_right₀ (by norm_num) ?_)
    change q + decimalLength n ≤ _
    omega
  have hle := hcoarsest _ _ hpow
  have hpos := decimalLength_pos d.digits
  change 0 < d.length at hpos
  have hone : d.length = 1 := by omega
  refine ⟨hone, ?_⟩
  rw [hone] at hpow
  simpa using hpow

theorem digits_pos_of_reaches (hk : x.magnitude = k + 1) (h : x.Reaches p c) : 0 < c :=
  Nat.pos_of_ne_zero fun h0 => not_reaches_zero hk p (h0 ▸ h)

/-- A decimal of one digit is nearer to the number than every digit of a finer grid. -/
theorem distance_lt_of_finer {n : Nat} {q : Int} (hk : x.magnitude = k + 1) (hc : x.interval.onGrid p = some c)
    (hone : x.Reaches p 1) (hfine : Rounds (n * 10 ^ q) x.magnitude) (hn : n < 10) (hq : q < p) :
    x.distance ⟨c, p⟩ < x.distance ⟨n, q⟩ := by
  obtain ⟨-, hnearest⟩ := onGrid_nearest hk hc
  refine (hnearest 1 hone).1.trans_lt ?_
  have hstep : (10 : ℚ) ^ p = 10 * 10 ^ (p - 1) := by
    rw [← zpow_one_add₀ (by norm_num)]
    congr 1
    omega
  have hg : (0 : ℚ) < 10 ^ (p - 1) := by positivity
  have hnine : (n : ℚ) * 10 ^ q ≤ (9 : Nat) * 10 ^ (p - 1) := by
    refine (mul_le_mul_of_nonneg_left ?_ (Nat.cast_nonneg n)).trans (gridPoint_le (Nat.le_of_lt_succ hn) (p - 1))
    exact zpow_le_zpow_right₀ (by norm_num) (by omega)
  have hten : x.Reaches (p - 1) 10 := by
    rw [Reaches, Nat.cast_one, one_mul, hstep] at hone
    exact hone
  have hmid : 19 / 2 * 10 ^ (p - 1) < x.value := by
    refine nine_and_ten hk (hfine.between hten hnine ?_) hten
    exact gridPoint_le (by norm_num) (p - 1)
  push_cast at hnine
  simp only [distance, Decimal.value, Nat.cast_one, one_mul, hstep]
  rw [abs_sub_comm (n * 10 ^ q : ℚ), abs_of_nonneg (show 0 ≤ x.value - n * 10 ^ q by linarith), abs_lt]
  constructor <;> linarith

/-- The shortest decimal of a finite number is the shortest one that reads back as the number. -/
theorem isShortest_shortest (hx : x.isFinite = true) : x.IsShortest x.shortest := by
  obtain hk | ⟨k, hk⟩ : x.magnitude = 0 ∨ ∃ k, x.magnitude = k + 1 := by
    cases x.magnitude with
    | zero => exact .inl rfl
    | succ k => exact .inr ⟨k, rfl⟩
  · have hzero : x.shortest = ⟨0, 0⟩ := by simp [shortest, isZero, hk]
    have hvalue : Decimal.value ⟨0, 0⟩ = x.value := by
      rw [value, hk, valueAt_zero, Decimal.value, Nat.cast_zero, zero_mul]
    rw [hzero]
    refine ⟨?_, fun d' _ => decimalLength_pos d'.digits, fun d' _ _ => ?_, fun _ _ _ _ _ => rfl⟩
    · rw [Decimal.readsAs_iff hx, hvalue]
      exact .valueAt _
    · rw [distance, hvalue, sub_self, abs_zero]
      exact abs_nonneg _
  obtain ⟨c, p, hd, hc, hcoarsest⟩ := shortest_spec hx hk
  rw [hd]
  obtain ⟨hreach, hnearest⟩ := onGrid_nearest hk hc
  have hpos := digits_pos_of_reaches hk hreach
  -- no decimal on a finer grid is shorter, and one of the same length has a single digit
  have hfiner {d' : Decimal} (hr : d'.ReadsAs x) (hlt : d'.power + d'.length < p + decimalLength c) :
      decimalLength c = 1 ∧ x.Reaches p 1 :=
    reaches_of_finer (d := ⟨c, p⟩) hpos hreach hcoarsest ((Decimal.readsAs_iff hx).1 hr) hlt
  have hpower {d' : Decimal} (hr : d'.ReadsAs x) : d'.power ≤ p := hcoarsest _ d'.digits ((Decimal.readsAs_iff hx).1 hr)
  have hstrict {d' : Decimal} (hr : d'.ReadsAs x) (hlen : d'.length = decimalLength c) (hlt : d'.power < p) :
      x.distance ⟨c, p⟩ < x.distance d' := by
    obtain ⟨hlength, hone⟩ := hfiner hr (by omega)
    have hdigit : d'.digits < 10 := by
      have := lt_pow_decimalLength d'.digits
      rwa [← Decimal.length, hlen, hlength, pow_one] at this
    exact distance_lt_of_finer hk hc hone ((Decimal.readsAs_iff hx).1 hr) hdigit hlt
  refine ⟨(Decimal.readsAs_iff hx).2 hreach, fun d' hr => ?_, fun d' hr hlen => ?_, fun d' hr hlen hdist hne => ?_⟩
  · by_contra hlt
    obtain ⟨hlength, -⟩ := hfiner hr (by have := hpower hr; change ¬ decimalLength c ≤ _ at hlt; omega)
    have := decimalLength_pos d'.digits
    change ¬ decimalLength c ≤ decimalLength d'.digits at hlt
    omega
  · obtain hlt | heq := lt_or_eq_of_le (hpower hr)
    · exact (hstrict hr hlen hlt).le
    · obtain ⟨n, q⟩ := d'
      obtain rfl : q = p := heq
      exact (hnearest n ((Decimal.readsAs_iff hx).1 hr)).1
  · obtain hlt | heq := lt_or_eq_of_le (hpower hr)
    · exact absurd hdist (hstrict hr hlen hlt).ne'
    · obtain ⟨n, q⟩ := d'
      obtain rfl : q = p := heq
      exact (hnearest n ((Decimal.readsAs_iff hx).1 hr)).2 hdist fun h => hne (h ▸ rfl)

/-- It has digits, and the last one counts. -/
theorem shortest_digits (hx : x.isFinite = true) (hk : x.magnitude = k + 1) :
    0 < x.shortest.digits ∧ x.shortest.digits % 10 ≠ 0 := by
  obtain ⟨c, p, hd, hc, hcoarsest⟩ := shortest_spec hx hk
  obtain ⟨hreach, -⟩ := onGrid_nearest hk hc
  rw [hd]
  refine ⟨digits_pos_of_reaches hk hreach, fun h => ?_⟩
  dsimp only at h
  -- a trailing zero would be a point of the next coarser grid
  have hten : (c : ℚ) = (c / 10 : Nat) * 10 := by exact_mod_cast (Nat.div_mul_cancel (Nat.dvd_of_mod_eq_zero h)).symm
  rw [Reaches, hten, mul_assoc, ← zpow_one_add₀ (by norm_num)] at hreach
  have := hcoarsest _ _ hreach
  omega

end Hotload.Binary64
