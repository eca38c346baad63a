import Hotload.Binary64.Shortest
import Mathlib.Algebra.Order.Field.Power
import Mathlib.Data.Rat.Cast.Order

/-!
The values of numbers as rationals. The bits without the sign count the numbers from zero upwards, infinity included, so
that a number is rounded to where the next boundary between two neighbours is. A decimal is the shortest of a number if
it reads back as the number with the fewest digits; of those it is the nearest one, and of two equally near ones it is
even.
-/
namespace Hotload.Binary64

/-- The exponent of the gap between a magnitude and the next one. -/
def gapExponent (n : Nat) : Int :=
  (max 1 (n / pow2 52) : Nat) - 1075

/-- The value of a magnitude; those beyond the largest number go on in the same way. -/
def valueAt (n : Nat) : ℚ :=
  (if n / pow2 52 = 0 then n % pow2 52 else n % pow2 52 + pow2 52 : Nat) * 2 ^ gapExponent n

/-- Halfway to the next magnitude. -/
def boundary (n : Nat) : ℚ :=
  valueAt n + 2 ^ gapExponent n / 2

/-- The absolute value of a finite number. -/
def value (x : Binary64) : ℚ :=
  valueAt x.magnitude

/-- A value is nearest to a magnitude; halfway between two it goes to the even one. -/
structure Rounds (v : ℚ) (n : Nat) : Prop where
  le : v ≤ boundary n
  ge : ∀ k, n = k + 1 → boundary k ≤ v
  even : (v = boundary n ∨ ∃ k, n = k + 1 ∧ v = boundary k) → n % 2 = 0

namespace Decimal

def value (d : Decimal) : ℚ :=
  d.digits * 10 ^ d.power

/-- The number of its digits. -/
def length (d : Decimal) : Nat :=
  decimalLength d.digits

/-- It reads back as the number, with the sign of the number. -/
def ReadsAs (d : Decimal) (x : Binary64) : Prop :=
  ofDecimal x.isNegative d.digits d.power = x

end Decimal

/-- The distance of a decimal from a number, signs apart. -/
def distance (x : Binary64) (d : Decimal) : ℚ :=
  |d.value - x.value|

structure IsShortest (x : Binary64) (d : Decimal) : Prop where
  reads : d.ReadsAs x
  fewest : ∀ d' : Decimal, d'.ReadsAs x → d.length ≤ d'.length
  nearest : ∀ d' : Decimal, d'.ReadsAs x → d'.length = d.length → x.distance d ≤ x.distance d'
  even : ∀ d' : Decimal, d'.ReadsAs x → d'.length = d.length → x.distance d' = x.distance d → d'.value ≠ d.value →
    d.digits % 2 = 0

end Hotload.Binary64
