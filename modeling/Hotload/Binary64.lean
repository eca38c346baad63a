/-!
Double-precision numbers as their 64 bits. A finite number is a significand times a power of two, so that rounding,
truncation and the comparison with decimals are exact arithmetic on natural numbers.
-/
namespace Hotload

structure Binary64 where
  bits : UInt64
  deriving DecidableEq

namespace Binary64

def pow2 (n : Nat) : Nat := Nat.pow 2 n

def pow10 (n : Nat) : Nat := Nat.pow 10 n

def ofNatBits (n : Nat) : Binary64 :=
  ⟨UInt64.ofNat n⟩

def isNegative (x : Binary64) : Bool :=
  pow2 63 ≤ x.bits.toNat

/-- The bits without the sign. -/
def magnitude (x : Binary64) : Nat :=
  x.bits.toNat % pow2 63

def exponentField (x : Binary64) : Nat :=
  x.magnitude / pow2 52

def fraction (x : Binary64) : Nat :=
  x.magnitude % pow2 52

def infiniteMagnitude : Nat := 2047 * pow2 52

def isNaN (x : Binary64) : Bool :=
  infiniteMagnitude < x.magnitude

def isInfinite (x : Binary64) : Bool :=
  x.magnitude = infiniteMagnitude

def isFinite (x : Binary64) : Bool :=
  x.magnitude < infiniteMagnitude

def isZero (x : Binary64) : Bool :=
  x.magnitude = 0

/-- A finite number has the magnitude `significand * 2 ^ exponent`. -/
def significand (x : Binary64) : Nat :=
  if x.exponentField = 0 then x.fraction else x.fraction + pow2 52

def exponent (x : Binary64) : Int :=
  (max 1 x.exponentField : Nat) - 1075

def ofMagnitude (negative : Bool) (n : Nat) : Binary64 :=
  ofNatBits (if negative then n + pow2 63 else n)

def zero : Binary64 := ofNatBits 0

def nan : Binary64 := ofNatBits (infiniteMagnitude + pow2 51)

def infinite (negative : Bool) : Binary64 :=
  ofMagnitude negative infiniteMagnitude

/-- The quotient rounded to the nearest natural number, a half to the even neighbour. -/
def roundQuotient (num den : Nat) : Nat :=
  let q := num / den
  let r := num % den
  if 2 * r < den then q
  else if 2 * r > den then q + 1
  else if q % 2 = 0 then q else q + 1

/-- The exponent of two at which a positive quotient has 53 bits, or the least one there is. -/
def scaleOf (num den : Nat) : Int :=
  let l : Int := (Nat.log2 num : Int) - Nat.log2 den
  let reached := if 0 ≤ l then den * pow2 l.toNat ≤ num else den ≤ num * pow2 (-l).toNat
  max (-1074) ((if reached then l else l - 1) - 52)

/-- Bits of the number nearest to a quotient, a half to the even neighbour, infinite beyond the largest one. -/
def nearestMagnitude (num den : Nat) : Nat :=
  if num = 0 then 0
  else
    let q := scaleOf num den
    let m := if 0 ≤ q then roundQuotient num (den * pow2 q.toNat) else roundQuotient (num * pow2 (-q).toNat) den
    min infiniteMagnitude ((q + 1074).toNat * pow2 52 + m)

def nearest (negative : Bool) (num den : Nat) : Binary64 :=
  ofMagnitude negative (nearestMagnitude num den)

def ofInt (i : Int) : Binary64 :=
  nearest (i < 0) i.natAbs 1

def decimalLength (n : Nat) : Nat :=
  (Nat.toDigits 10 n).length

/-- The number nearest to `digits * 10 ^ power`. Far beyond the range the answer is known without the power. -/
def ofDecimal (negative : Bool) (digits : Nat) (power : Int) : Binary64 :=
  if digits = 0 then ofMagnitude negative 0
  else
    let top : Int := power + decimalLength digits
    if 310 < top then infinite negative
    else if top < -330 then ofMagnitude negative 0
    else if 0 ≤ power then nearest negative (digits * pow10 power.toNat) 1
    else nearest negative digits (pow10 (-power).toNat)

/-- The integer part of a finite number. -/
def truncate (x : Binary64) : Int :=
  let e := x.exponent
  let n := if 0 ≤ e then x.significand * pow2 e.toNat else x.significand / pow2 (-e).toNat
  if x.isNegative then -(n : Int) else n

/-- A finite number divided by a positive whole number, rounded. -/
def quotient (x : Binary64) (n : Nat) : Binary64 :=
  let e := x.exponent
  if 0 ≤ e then nearest x.isNegative (x.significand * pow2 e.toNat) n
  else nearest x.isNegative x.significand (pow2 (-e).toNat * n)

/-- A number times a whole number, rounded; what is not finite stays as it is. -/
def times (x : Binary64) (n : Nat) : Binary64 :=
  if x.isFinite then
    let e := x.exponent
    if 0 ≤ e then nearest x.isNegative (x.significand * pow2 e.toNat * n) 1
    else nearest x.isNegative (x.significand * n) (pow2 (-e).toNat)
  else x

/-- Strictly greater than zero, which no NaN is. -/
def isPositive (x : Binary64) : Bool :=
  !x.isNaN && !x.isNegative && !x.isZero

end Binary64

end Hotload
