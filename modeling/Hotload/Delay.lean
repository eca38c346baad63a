import Hotload.Failure
import Hotload.Text.Blank
import Hotload.Text.Digit
import Hotload.Numeral

/-!
Delays in milliseconds: a number, or a text of ASCII digits that blanks may surround. A delay is not negative and no
longer than a timer can wait. A value that is refused is shown, unless it holds an integer of too many digits.
-/
namespace Hotload

mutual

/-- Whether each integer in a value has few enough digits to be written out. -/
def Value.isShowable : Value → Bool
  | .int i => i.natAbs < Binary64.pow10 Numeral.digitLimit
  | .list vs => Value.areShowable vs
  | .object es => Value.entriesShowable es
  | _ => true

def Value.areShowable : List Value → Bool
  | [] => true
  | v :: vs => v.isShowable && Value.areShowable vs

def Value.entriesShowable : List (Text.Wide × Value) → Bool
  | [] => true
  | (_, v) :: es => v.isShowable && Value.entriesShowable es

end

namespace Delay

def standard : Int := 10

/-- The longest delay that a timer can wait. -/
def limit : Nat := 9223372036000

def isNumeral (s : List Char) : Bool :=
  !s.isEmpty && s.all Text.isAsciiDigit

/-- The failure that shows a value, if it can be shown. -/
def refusal (v : Value) (report : String → Failure) : Failure :=
  if v.isShowable then report v.shown else .tooLongToShow

/-- The number that a value stands for as a delay. -/
def number (v : Value) : Outcome Int :=
  match v with
  | .int i => .ok i
  | _ =>
    let s := Text.trim v.shown.toList
    if isNumeral s then
      if Numeral.digitLimit < s.length then .error (.tooManyDigits s.length)
      else .ok (Text.ofDigits (s.filterMap Text.asciiDigitValue?))
    else .error (refusal v .invalidDelay)

def parse (v : Value) : Outcome Int := do
  let delay ← number v
  if delay < 0 then .error (refusal v .invalidDelay)
  else if limit < delay then .error (refusal v (.delayTooLong · limit))
  else return delay

/-- The seconds of a delay, as a timer takes them; a delay has to be within the range of the doubles. -/
def seconds (delay : Int) : Outcome Binary64 :=
  let x := Binary64.ofInt delay
  if x.isInfinite then .error .realTooLarge else .ok (x.quotient 1000)

end Delay

end Hotload
