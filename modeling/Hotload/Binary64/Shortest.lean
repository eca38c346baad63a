import Hotload.Binary64

/-!
The shortest decimal of a finite number: among the decimals that read back as the number, those on the coarsest decimal
grid, and of these the nearest; of two equally near ones the one with the even last digit.
-/
namespace Hotload.Binary64

/-- The decimal `digits * 10 ^ power`. -/
structure Decimal where
  digits : Nat
  power : Int
  deriving DecidableEq

/-- A positive number and the ends of the interval that rounds to it, over one common denominator. -/
structure Interval where
  low : Nat
  value : Nat
  high : Nat
  den : Nat
  closed : Bool

/-- The lower half gap is half as wide at a power of two. -/
def interval (x : Binary64) : Interval :=
  let m := x.significand
  let e := x.exponent - 2
  let up := if 0 ≤ e then pow2 e.toNat else 1
  let den := if 0 ≤ e then 1 else pow2 (-e).toNat
  let below := if x.fraction = 0 && 1 < x.exponentField then 1 else 2
  ⟨(4 * m - below) * up, 4 * m * up, (4 * m + 2) * up, den, m % 2 = 0⟩

def Interval.contains (i : Interval) (num den : Nat) : Bool :=
  if i.closed then i.low * den ≤ num * i.den && num * i.den ≤ i.high * den
  else i.low * den < num * i.den && num * i.den < i.high * den

/-- The number `count * 10 ^ power` as a quotient. -/
def gridPoint (count : Nat) (power : Int) : Nat × Nat :=
  if 0 ≤ power then (count * pow10 power.toNat, 1) else (count, pow10 (-power).toNat)

/-- The point of a decimal grid that reads back as the number and is nearest to it. -/
def Interval.onGrid (i : Interval) (power : Int) : Option Nat :=
  let unit := gridPoint 1 power
  let num := i.value * unit.2
  let den := i.den * unit.1
  let c := num / den
  let r := num % den
  let has := fun n => i.contains (gridPoint n power).1 (gridPoint n power).2
  let upper := 2 * r > den || (2 * r = den && c % 2 = 1)
  match has c, has (c + 1) with
  | false, false => none
  | true, false => some c
  | false, true => some (c + 1)
  | true, true => some (if upper then c + 1 else c)

/-- Powers of ten from beyond the largest number down to below the least one at seventeen digits. -/
def powers : List Int :=
  (List.range 660).map fun (i : Nat) => (309 : Int) - (i : Int)

def shortest (x : Binary64) : Decimal :=
  if x.isZero then ⟨0, 0⟩
  else
    let i := x.interval
    match powers.findSome? fun p => (i.onGrid p).map (⟨·, p⟩ : Nat → Decimal) with
    | some d => d
    | none => ⟨0, 0⟩

end Hotload.Binary64
