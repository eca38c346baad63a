import Hotload.Json.Grammar

/-!
Texts between quotes. Whatever spells a text is read as that text, up to the closing quote. Anything that may stand between
quotes is read, and it spells what it is read as, unless half of a character stands alone in it.
-/
namespace Hotload

theorem Text.hexValue?_of_lowerChar {c : Char} {k : Nat} (hk : k < 16) (h : lowerChar c = hexDigit k) :
    hexValue? c = some k := by
  unfold lowerChar at h
  split at h
  · next hc =>
    have hall : ∀ m < 0x1a, ∀ k < 16, Char.ofNat (m + 0x41 + 0x20) = hexDigit k →
        hexValue? (Char.ofNat (m + 0x41)) = some k := by decide
    rw [Bool.and_eq_true, decide_eq_true_eq, decide_eq_true_eq] at hc
    have hm : c.toNat - 0x41 + 0x41 = c.toNat := by omega
    have hval := hall (c.toNat - 0x41) (by omega) k hk
    rw [hm, Char.ofNat_toNat] at hval
    exact hval h
  · subst h
    have hall : ∀ k < 16, hexValue? (hexDigit k) = some k := by decide
    exact hall k hk

namespace Json

open Text (Point)

variable {m n : Nat} {c e : Char} {ds s t u : List Char}

theorem IsUnit.cases (h : IsUnit n ds) : ∃ a b c d, ds = [a, b, c, d] ∧ unit? a b c d = some n := by
  obtain ⟨hn, hds⟩ := h
  have hlen := congrArg List.length hds
  simp only [List.length_map, Text.length_hexDigits] at hlen
  obtain ⟨a, b, c, d, rfl⟩ : ∃ a b c d, ds = [a, b, c, d] := by
    match ds, hlen with
    | [a, b, c, d], _ => exact ⟨a, b, c, d, rfl⟩
  refine ⟨a, b, c, d, rfl, ?_⟩
  simp only [List.map, Text.hexDigits, List.nil_append, List.cons_append, List.cons.injEq, and_true] at hds
  obtain ⟨ha, hb, hc, hd⟩ := hds
  rw [unit?, Text.hexValue?_of_lowerChar (Nat.mod_lt _ (by decide)) ha,
    Text.hexValue?_of_lowerChar (Nat.mod_lt _ (by decide)) hb,
    Text.hexValue?_of_lowerChar (Nat.mod_lt _ (by decide)) hc,
    Text.hexValue?_of_lowerChar (Nat.mod_lt _ (by decide)) hd]
  change some _ = some n
  congr 1
  omega

theorem toNat_ofNat (h : n.isValidChar) : (Char.ofNat n).toNat = n := by
  rw [Char.ofNat, dif_pos h]
  rfl

theorem isHighHalf_iff : isHighHalf n = true ↔ 0xd800 ≤ n ∧ n < 0xdc00 := by
  simp [isHighHalf]

theorem isLowHalf_iff : isLowHalf n = true ↔ 0xdc00 ≤ n ∧ n < 0xe000 := by
  simp [isLowHalf]

/-- No character is half of another one. -/
theorem toNat_range (c : Char) : c.toNat < 0xd800 ∨ 0xdfff < c.toNat ∧ c.toNat < 0x110000 := c.valid

theorem isHighHalf_toNat (c : Char) : isHighHalf c.toNat = false := by
  have hc := toNat_range c
  rw [← Bool.not_eq_true, isHighHalf_iff]
  omega

theorem ofCode_toNat (c : Char) : Point.ofCode c.toNat = .char c := by
  have hc := toNat_range c
  rw [Point.ofCode, dif_neg (by omega), Char.ofNat_toNat]

theorem toNat_of_ofCode (hn : n < 0x10000) (h : Point.ofCode n = .char c) : c.toNat = n := by
  unfold Point.ofCode at h
  split at h
  · cases h
  · next hp =>
    cases h
    refine toNat_ofNat ?_
    unfold Nat.isValidChar
    omega

theorem isHighHalf_highHalf (h : 0x10000 ≤ c.toNat) : isHighHalf (highHalf c) = true := by
  have hc := toNat_range c
  rw [isHighHalf_iff, highHalf]
  omega

theorem isLowHalf_lowHalf (c : Char) : isLowHalf (lowHalf c) = true := by
  rw [isLowHalf_iff, lowHalf]
  omega

theorem joinHalves_halves (h : 0x10000 ≤ c.toNat) : joinHalves (highHalf c) (lowHalf c) = c := by
  have hn : 0x10000 + (highHalf c - 0xd800) * 0x400 + (lowHalf c - 0xdc00) = c.toNat := by
    rw [highHalf, lowHalf]
    omega
  rw [joinHalves, hn, Char.ofNat_toNat]

/-- A character that is joined from two halves has these halves. -/
theorem halves_joinHalves (hn : isHighHalf n = true) (hm : isLowHalf m = true) :
    0x10000 ≤ (joinHalves n m).toNat ∧ highHalf (joinHalves n m) = n ∧ lowHalf (joinHalves n m) = m := by
  rw [isHighHalf_iff] at hn
  rw [isLowHalf_iff] at hm
  have ht : (joinHalves n m).toNat = 0x10000 + (n - 0xd800) * 0x400 + (m - 0xdc00) := by
    refine toNat_ofNat ?_
    unfold Nat.isValidChar
    omega
  rw [highHalf, lowHalf, ht]
  omega

theorem readText_quote (r : List Char) : readText ('"' :: r) = some ([], r) := by
  rw [readText, if_pos rfl]

theorem readText_plain (h : IsPlain c) (r : List Char) :
    readText (c :: r) = (readText r).map fun t => (.char c :: t.1, t.2) := by
  obtain ⟨hq, hb, hc⟩ := h
  rw [readText, if_neg hq, if_neg hb, if_neg (Nat.not_lt.2 hc)]

theorem readText_escape {p : Point} {r r' : List Char} (h : readEscape r = some (p, r')) :
    readText ('\\' :: r) = (readText r').map fun t => (p :: t.1, t.2) := by
  rw [readText, if_neg (by decide), if_pos rfl]
  split
  · next heq =>
    rw [h] at heq
    cases heq
    rfl
  · next heq =>
    rw [h] at heq
    cases heq

theorem Escape.readEscape (h : Escape e c) (r : List Char) : readEscape (e :: r) = some (.char c, r) := by
  cases h <;> rfl

theorem IsUnit.readEscape (h : IsUnit n ds) (r : List Char) : readEscape ('u' :: (ds ++ r)) = some (joinNext n r) := by
  obtain ⟨a, b, c, d, rfl, hu⟩ := h.cases
  change (unit? a b c d).map (joinNext · r) = _
  rw [hu]
  rfl

theorem IsUnit.joinNext (h : IsUnit m ds) (hn : isHighHalf n = true) (hm : isLowHalf m = true) (r : List Char) :
    joinNext n ('\\' :: 'u' :: (ds ++ r)) = (.char (joinHalves n m), r) := by
  obtain ⟨a, b, c, d, rfl, hu⟩ := h.cases
  simp [Json.joinNext, hu, hn, hm]

/-- A unit is joined with a second half that follows, or it stands alone. -/
theorem joinNext_cases (n : Nat) (r : List Char) :
    joinNext n r = (.ofCode n, r) ∨ ∃ a b c d r' m, r = '\\' :: 'u' :: a :: b :: c :: d :: r' ∧
      unit? a b c d = some m ∧ isHighHalf n = true ∧ isLowHalf m = true ∧
        joinNext n r = (.char (joinHalves n m), r') := by
  unfold joinNext
  split
  · next a b c d r' =>
    split
    · next m hu =>
      split
      · next hp =>
        rw [Bool.and_eq_true] at hp
        exact .inr ⟨a, b, c, d, r', m, rfl, hu, hp.1, hp.2, rfl⟩
      · exact .inl rfl
    · exact .inl rfl
  · exact .inl rfl

theorem joinNext_toNat (c : Char) (r : List Char) : joinNext c.toNat r = (.char c, r) := by
  obtain h | ⟨_, _, _, _, _, _, _, _, hn, _⟩ := joinNext_cases c.toNat r
  · rw [h, ofCode_toNat]
  · rw [isHighHalf_toNat] at hn
    cases hn

/-- What spells a text is read as that text. -/
theorem Spells.readText (h : Spells s u) (r : List Char) : readText (u ++ '"' :: r) = some (s.map .char, r) := by
  induction h with
  | nil => exact readText_quote r
  | plain hc _ ih =>
    rw [List.cons_append, readText_plain hc, ih]
    rfl
  | escape he _ ih =>
    rw [List.cons_append, List.cons_append, readText_escape (he.readEscape _), ih]
    rfl
  | @unit c ds s t hu _ ih =>
    have hread := hu.readEscape (t ++ '"' :: r)
    rw [joinNext_toNat] at hread
    rw [List.cons_append, List.cons_append, List.append_assoc, readText_escape hread, ih]
    rfl
  | @pair c ds es s t hc hu hv _ ih =>
    have hread := hu.readEscape ('\\' :: 'u' :: (es ++ (t ++ '"' :: r)))
    rw [hv.joinNext (isHighHalf_highHalf hc) (isLowHalf_lowHalf c), joinHalves_halves hc] at hread
    simp only [List.cons_append, List.append_assoc]
    rw [readText_escape hread, ih]
    rfl

theorem Spells.literal (h : Spells s u) : Literal u := by
  induction h with
  | nil => exact .nil
  | plain hc _ ih => exact .plain hc ih
  | escape he _ ih => exact .escape he ih
  | unit hu _ ih => exact .unit hu ih
  | pair _ hu hv _ ih => exact .unit hu (.unit hv ih)

/-- A unit before what may stand between quotes is joined with a second half at its front, or it stands alone. -/
theorem Literal.joinNext_eq (h : Literal t) (r : List Char) 
    (hj : Json.joinNext n (t ++ '"' :: r) ≠ (.ofCode n, t ++ '"' :: r)) :
    ∃ m es t', t = '\\' :: 'u' :: (es ++ t') ∧ IsUnit m es ∧ Literal t' ∧ isHighHalf n = true ∧ isLowHalf m = true := by
  obtain ⟨a, b, c, d, r', m, hr, hu, hn, hm, -⟩ := (joinNext_cases n (t ++ '"' :: r)).resolve_left hj
  cases h with
  | nil => cases hr
  | plain hp =>
    obtain ⟨rfl, -⟩ := List.cons.inj hr
    exact absurd rfl hp.2.1
  | escape he =>
    obtain ⟨rfl, -⟩ := List.cons.inj (List.cons.inj hr).2
    cases he
  | @unit k es t hk ht =>
    obtain ⟨a', b', c', d', rfl, hu'⟩ := hk.cases
    cases hr
    cases hu.symm.trans hu'
    exact ⟨m, _, t, rfl, hk, ht, hn, hm⟩

/-- What follows a unit stays something that may stand between quotes. If a character comes of the unit, the two halves of
it or the unit itself spell it. -/
theorem Literal.joinNext (h : Literal t) (n : Nat) :
    ∃ p t', (∀ r, Json.joinNext n (t ++ '"' :: r) = (p, t' ++ '"' :: r)) ∧ Literal t' ∧ t'.length ≤ t.length ∧
      ∀ ds s c, IsUnit n ds → p = .char c → Spells s t' → Spells (c :: s) ('\\' :: 'u' :: (ds ++ t)) := by
  by_cases hp : ∀ r, Json.joinNext n (t ++ '"' :: r) = (.ofCode n, t ++ '"' :: r)
  · refine ⟨.ofCode n, t, hp, h, Nat.le_refl _, fun ds s c hds hc hs => ?_⟩
    rw [← toNat_of_ofCode hds.1 hc] at hds
    exact .unit hds hs
  · obtain ⟨r, hr⟩ := Classical.not_forall.1 hp
    obtain ⟨m, es, t, rfl, hes, ht, hn, hm⟩ := h.joinNext_eq r hr
    obtain ⟨hc, hhigh, hlow⟩ := halves_joinHalves hn hm
    refine ⟨.char (joinHalves n m), t, fun r => ?_, ht, ?_, fun ds s c hds hj hs => ?_⟩
    · simp only [List.cons_append, List.append_assoc]
      exact hes.joinNext hn hm (t ++ '"' :: r)
    · simp only [List.length_cons, List.length_append]
      omega
    · obtain rfl := Point.char.inj hj
      rw [← hhigh] at hds
      rw [← hlow] at hes
      exact .pair hc hds hes hs

/-- Anything between quotes is read, and as a text that it spells unless half of a character stands alone. -/
theorem Literal.readText (h : Literal u) :
    ∃ ps, (∀ r, Json.readText (u ++ '"' :: r) = some (ps, r)) ∧ ∀ s, ps = s.map .char → Spells s u := by
  induction hl : u.length using Nat.strongRecOn generalizing u with
  | ind k ih =>
    subst hl
    cases h with
    | nil =>
      refine ⟨[], readText_quote, fun s hs => ?_⟩
      rw [List.map_eq_nil_iff.1 hs.symm]
      exact .nil
    | @plain c t hc ht =>
      obtain ⟨ps, hps, hsp⟩ := ih t.length (Nat.lt_succ_self _) ht rfl
      refine ⟨.char c :: ps, fun r => ?_, fun s hs => ?_⟩
      · rw [List.cons_append, readText_plain hc, hps]
        rfl
      · obtain ⟨d, s, rfl, hd, htail⟩ := List.map_eq_cons_iff.1 hs.symm
        cases hd
        exact .plain hc (hsp s htail.symm)
    | @escape e c t he ht =>
      obtain ⟨ps, hps, hsp⟩ := ih t.length (by simp only [List.length_cons]; omega) ht rfl
      refine ⟨.char c :: ps, fun r => ?_, fun s hs => ?_⟩
      · rw [List.cons_append, List.cons_append, readText_escape (he.readEscape _), hps]
        rfl
      · obtain ⟨d, s, rfl, hd, htail⟩ := List.map_eq_cons_iff.1 hs.symm
        cases hd
        exact .escape he (hsp s htail.symm)
    | @unit n ds t hu ht =>
      obtain ⟨p, t', hj, ht', hle, hsp'⟩ := ht.joinNext n
      obtain ⟨ps, hps, hsp⟩ := ih t'.length (by simp only [List.length_cons, List.length_append]; omega) ht' rfl
      refine ⟨p :: ps, fun r => ?_, fun s hs => ?_⟩
      · have hread := hu.readEscape (t ++ '"' :: r)
        rw [hj] at hread
        simp only [List.cons_append, List.append_assoc]
        rw [readText_escape hread, hps]
        rfl
      · obtain ⟨c, s, rfl, hc, htail⟩ := List.map_eq_cons_iff.1 hs.symm
        exact hsp' ds s c hu hc.symm (hsp s htail.symm)

theorem IsUnit.not_mem_return (h : IsUnit n ds) : '\r' ∉ ds := by
  intro hm
  have hd : Text.lowerChar '\r' ∈ Text.hexDigits 4 n := h.2 ▸ List.mem_map_of_mem hm
  have hall : ∀ k < 16, Text.hexDigit k ≠ Text.lowerChar '\r' := by decide
  simp only [Text.hexDigits, List.nil_append, List.cons_append, List.mem_cons, List.not_mem_nil, or_false] at hd
  obtain hd | hd | hd | hd := hd
  all_goals exact hall _ (Nat.mod_lt _ (by decide)) hd.symm

/-- A carriage return does not stand for itself between quotes. -/
theorem Literal.not_mem_return (h : Literal u) : '\r' ∉ u := by
  induction h with
  | nil => exact List.not_mem_nil
  | plain hc _ ih =>
    rw [List.mem_cons, not_or]
    refine ⟨?_, ih⟩
    rintro rfl
    exact absurd hc.2.2 (by decide)
  | escape he _ ih => cases he <;> simpa using ih
  | unit hu _ ih => simpa [hu.not_mem_return] using ih

end Json

end Hotload
