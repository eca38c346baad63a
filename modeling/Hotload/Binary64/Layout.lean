import Hotload.Binary64.Shortest

/-!
Written forms of a number by its shortest decimal: the positional form without exponent and without needless zeros, and
the form that turns to an exponent for very large and very small numbers and marks a whole number by a zero place.
-/
namespace Hotload.Binary64

def zeros (n : Nat) : List Char :=
  List.replicate n '0'

/-- Digits with a point before the last `places` of them. -/
def withPoint (ds : List Char) (places : Nat) : List Char :=
  if places < ds.length then ds.take (ds.length - places) ++ '.' :: ds.drop (ds.length - places)
  else '0' :: '.' :: zeros (places - ds.length) ++ ds

def Decimal.positional (d : Decimal) : List Char :=
  let ds := Nat.toDigits 10 d.digits
  if 0 ≤ d.power then (if d.digits = 0 then ['0'] else ds ++ zeros d.power.toNat)
  else withPoint ds (-d.power).toNat

def signed (x : Binary64) (s : List Char) : List Char :=
  if x.isNegative then '-' :: s else s

/-- The canonical text of a number: never an exponent, never a closing zero place. -/
def positional (x : Binary64) : String :=
  if x.isNaN then "NaN"
  else if x.isInfinite then (if x.isNegative then "-inf" else "inf")
  else String.ofList (x.signed x.shortest.positional)

/-- Digits of an exponent, at least two. -/
def exponentText (e : Int) : List Char :=
  let ds := Nat.toDigits 10 e.natAbs
  (if e < 0 then '-' else '+') :: (if ds.length < 2 then '0' :: ds else ds)

/-- Positional from `0.0001` to below `1e+16`, else one digit before the point and an exponent. -/
def Decimal.roundTrip (d : Decimal) : List Char :=
  let ds := Nat.toDigits 10 d.digits
  let top : Int := d.power + ds.length
  if d.digits = 0 then ['0', '.', '0']
  else if -4 < top && top ≤ 16 then
    if 0 ≤ d.power then d.positional ++ ['.', '0'] else d.positional
  else
    let body := if ds.length = 1 then ds else ds.take 1 ++ '.' :: ds.drop 1
    body ++ 'e' :: exponentText (top - 1)

/-- The text that shows a number among other values. -/
def roundTrip (x : Binary64) : String :=
  if x.isNaN then "nan"
  else if x.isInfinite then (if x.isNegative then "-inf" else "inf")
  else String.ofList (x.signed x.shortest.roundTrip)

end Hotload.Binary64
