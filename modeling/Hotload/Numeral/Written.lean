import Hotload.Binary64.Value

/-!
Numerals as they are written: digits, after a point more digits, after a mark an exponent. A numeral denotes a decimal. It
is positional if it has no exponent, no needless zero before its first digit and none after its last place, so that a
decimal has one positional numeral only.
-/
namespace Hotload.Numeral
open Binary64

structure Written where
  whole : List Char
  places : List Char
  /-- Whether the exponent is negative, and its digits. -/
  exponent : Option (Bool × List Char)
  whole_ne_nil : whole ≠ []
  isDigit : ∀ c ∈ whole ++ places, c.isDigit = true
  exponent_ne_nil : ∀ e, exponent = some e → e.2 ≠ []
  exponent_isDigit : ∀ e, exponent = some e → ∀ c ∈ e.2, c.isDigit = true

namespace Written

def exponentText : Option (Bool × List Char) → List Char
  | none => []
  | some (negative, ds) => 'e' :: (if negative then '-' else '+') :: ds

def exponentValue : Option (Bool × List Char) → Int
  | none => 0
  | some (negative, ds) => if negative then -(Nat.ofDigitChars 10 ds 0 : Int) else Nat.ofDigitChars 10 ds 0

def text (w : Written) : List Char :=
  w.whole ++ ((if w.places = [] then [] else '.' :: w.places) ++ exponentText w.exponent)

/-- All the digits, and the power of ten of the last one. -/
def decimal (w : Written) : Decimal :=
  ⟨Nat.ofDigitChars 10 (w.whole ++ w.places) 0, exponentValue w.exponent - w.places.length⟩

structure IsPositional (w : Written) : Prop where
  exponent : w.exponent = none
  whole : w.whole.head? = some '0' → w.whole = ['0']
  places : w.places.getLast? ≠ some '0'

end Written

end Hotload.Numeral
