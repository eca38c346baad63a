import Hotload.Proofs.Binary64.Layout
import Hotload.Proofs.Binary64.Shortest
import Hotload.Proofs.Numeral
import Hotload.Signature

/-!
The canonical text of a number. Of a finite number it is the positional numeral of the shortest decimal, the decimal that
the round-trip form denotes, too; it reads back as the number with its sign. All numbers but NaN read back, so no two of
them have one text.
-/
namespace Hotload.Binary64
open Numeral (Written)

variable {x y : Binary64}

theorem shortest_noTrailingZero (hx : x.isFinite = true) : x.shortest.power < 0 → x.shortest.digits % 10 ≠ 0 := by
  cases hk : x.magnitude with
  | zero => simp [shortest, isZero, hk]
  | succ k => exact fun _ => (shortest_digits hx hk).2

theorem isNaN_eq_false_of_isFinite (hx : x.isFinite = true) : x.isNaN = false ∧ x.isInfinite = false := by
  simp only [isFinite, decide_eq_true_eq] at hx
  simp only [isNaN, isInfinite, decide_eq_false_iff_not]
  omega

/-- The two written forms of a finite number, and the decimal that both denote. -/
theorem exists_written (hx : x.isFinite = true) :
    ∃ w r : Written, x.positional.toList = x.signed w.text ∧ w.IsPositional ∧ x.roundTrip.toList = x.signed r.text ∧
      w.decimal.value = x.shortest.value ∧ r.decimal.value = x.shortest.value := by
  obtain ⟨hnan, hinf⟩ := isNaN_eq_false_of_isFinite hx
  obtain ⟨w, hw, hpos, hval⟩ := Decimal.exists_positional (shortest_noTrailingZero hx)
  obtain ⟨r, hr, hval'⟩ := Decimal.exists_roundTrip (shortest_noTrailingZero hx)
  refine ⟨w, r, ?_, hpos, ?_, hval, hval'⟩
  · rw [positional, hnan, hinf, if_neg Bool.false_ne_true, if_neg Bool.false_ne_true, String.toList_ofList, hw]
  · rw [roundTrip, hnan, hinf, if_neg Bool.false_ne_true, if_neg Bool.false_ne_true, String.toList_ofList, hr]

/-- Only the value of a decimal counts for what it reads as. -/
theorem ofDecimal_eq_of_value_eq {d : Decimal} (hx : x.isFinite = true) (h : d.value = x.shortest.value) :
    ofDecimal x.isNegative d.digits d.power = x := by
  have hreads := (isShortest_shortest hx).reads
  rw [Decimal.readsAs_iff hx, ← h, ← Decimal.readsAs_iff hx] at hreads
  exact hreads

theorem eq_infinite (hx : x.isInfinite = true) : x = infinite x.isNegative := by
  have hm : x.magnitude = infiniteMagnitude := by simpa [isInfinite] using hx
  rw [infinite, ← hm, ofMagnitude_magnitude]

theorem readReal_positional (hx : x.isNaN = false) : Numeral.readReal x.positional.toList = some x := by
  by_cases hinf : x.isInfinite = true
  · rw [positional, hx, hinf, if_neg Bool.false_ne_true, if_pos rfl]
    generalize hsign : x.isNegative = negative
    rw [eq_infinite hinf, hsign]
    cases negative <;> decide +kernel
  · have hfin : x.isFinite = true := by
      simp only [isNaN, isInfinite, decide_eq_false_iff_not, decide_eq_true_eq] at hx hinf
      simp only [isFinite, decide_eq_true_eq]
      omega
    obtain ⟨w, -, htext, -, -, hval, -⟩ := exists_written hfin
    rw [htext, w.readReal_signed_text, ofDecimal_eq_of_value_eq hfin hval]

theorem positional_injective (hx : x.isNaN = false) (hy : y.isNaN = false) (h : x.positional = y.positional) : x = y := by
  have hread := readReal_positional hx
  rw [h, readReal_positional hy] at hread
  exact (Option.some.inj hread).symm

end Hotload.Binary64

namespace Hotload.NativeType
open Numeral (Written)

/-- The text of a finite number is positional, exact and canonical; the other numbers have a name each. -/
theorem format_real :
    (∀ x : Binary64, x.isFinite = true →
      ∃ (t : String) (w r : Written) (d : Binary64.Decimal),
        format .real (.real x) = .ok t ∧ t.toList = x.signed w.text ∧ w.IsPositional ∧
          x.roundTrip.toList = x.signed r.text ∧ x.IsShortest d ∧ r.decimal.value = d.value ∧
          w.decimal.value = r.decimal.value ∧ Numeral.readReal t.toList = some x ∧
          ∀ v : Written, v.IsPositional → v.decimal.value = r.decimal.value → t.toList = x.signed v.text) ∧
      (∀ x : Binary64, x.isNaN = true → format .real (.real x) = .ok "NaN") ∧
      (∀ x : Binary64, x.isInfinite = true →
        format .real (.real x) = .ok (if x.isNegative then "-inf" else "inf")) ∧
      (∀ x y : Binary64, x.isNaN = false → y.isNaN = false →
        format .real (.real x) = format .real (.real y) → x = y) := by
  refine ⟨fun x hx => ?_, fun x hx => ?_, fun x hx => ?_, fun x y hx hy h => ?_⟩
  · obtain ⟨w, r, htext, hpos, hround, hw, hr⟩ := Binary64.exists_written hx
    have hnan := (Binary64.isNaN_eq_false_of_isFinite hx).1
    refine ⟨_, w, r, x.shortest, rfl, htext, hpos, hround, Binary64.isShortest_shortest hx, hr, hw.trans hr.symm,
      Binary64.readReal_positional hnan, fun v hv hvalue => ?_⟩
    rw [htext, hpos.text_eq hv (hw.trans (hr.symm.trans hvalue.symm))]
  · simp [format, toReal, Binary64.positional, hx, Except.map]
  · have hnan : x.isNaN = false := by
      simp only [Binary64.isInfinite, decide_eq_true_eq] at hx
      simp [Binary64.isNaN, hx]
    simp [format, toReal, Binary64.positional, hx, hnan, Except.map]
  · exact Binary64.positional_injective hx hy (Except.ok.inj h)

/-- A tenth, the negative zero, NaN and an infinity. -/
theorem format_real_tenth :
    let tenth := Binary64.ofNatBits 0x3fb999999999999a
    let zero := Binary64.ofMagnitude true 0
    (∃ (t : String) (w r : Written) (d : Binary64.Decimal),
      format .real (.real tenth) = .ok t ∧ t = "0.1" ∧ t.toList = tenth.signed w.text ∧ w.IsPositional ∧
        tenth.roundTrip.toList = tenth.signed r.text ∧ tenth.IsShortest d ∧ r.decimal.value = d.value ∧
        w.decimal.value = r.decimal.value ∧ Numeral.readReal t.toList = some tenth) ∧
      (∃ t, format .real (.real zero) = .ok t ∧ t = "-0" ∧ Numeral.readReal t.toList = some zero) ∧
      format .real (.real .nan) = .ok "NaN" ∧ format .real (.real (.infinite true)) = .ok "-inf" ∧
      format .real (.real zero) ≠ format .real (.real .zero) := by
  obtain ⟨hfinite, hnan, hinfinite, hinjective⟩ := format_real
  intro tenth zero
  refine ⟨?_, ?_, hnan _ (by decide), hinfinite (.infinite true) (by decide), fun h => ?_⟩
  · obtain ⟨t, w, r, d, ht, htext, hpos, hround, hshortest, hr, hw, hread, -⟩ := hfinite tenth (by decide)
    have hpositional : tenth.positional = "0.1" := by decide +kernel
    exact ⟨t, w, r, d, ht, (Except.ok.inj ht).symm.trans hpositional, htext, hpos, hround, hshortest, hr, hw, hread⟩
  · obtain ⟨t, w, r, d, ht, -, -, -, -, -, -, hread, -⟩ := hfinite zero (by decide)
    have hpositional : zero.positional = "-0" := by decide +kernel
    exact ⟨t, ht, (Except.ok.inj ht).symm.trans hpositional, hread⟩
  · exact absurd (hinjective zero .zero (by decide) (by decide) h) (by decide)

end Hotload.NativeType
