import Hotload.Text.Blank
import Hotload.Text.Digit
import Hotload.Binary64

/-!
Reading numerals from text. Blanks may surround a numeral, digits of any script count, and one underscore may stand
between two digits. An integer numeral is refused when it has too many digits, before what follows it is looked at.
-/
namespace Hotload.Numeral
open Text

/-- The most digits an integer numeral may have. -/
def digitLimit : Nat := 4300

inductive IntegerFault where
  | malformed
  | tooLong (digits : Nat)
  deriving DecidableEq

def isDigit (c : Char) : Bool :=
  (digitValue? c).isSome

/-- Underscores stand between digits only. -/
def underscoresFit : List Char → Bool
  | [] => true
  | [c] => c != '_'
  | c :: d :: r => !(c = '_' && d = '_') && underscoresFit (d :: r)

/-- A sign, if there is one, and the rest. -/
def takeSign : List Char → Bool × List Char
  | '-' :: r => (true, r)
  | '+' :: r => (false, r)
  | r => (false, r)

def digitValues (s : List Char) : List Nat :=
  s.filterMap digitValue?

def readInteger (s : List Char) : Except IntegerFault Int :=
  let (negative, r) := takeSign (s.dropWhile isNumeralBlank)
  let run := r.takeWhile fun c => isDigit c || c = '_'
  let rest := r.dropWhile fun c => isDigit c || c = '_'
  let ds := digitValues run
  if run.head? = some '_' || !underscoresFit run || ds.isEmpty then .error .malformed
  else if digitLimit < ds.length then .error (.tooLong ds.length)
  else if rest.all isNumeralBlank then
    .ok (if negative then -(ofDigits ds : Int) else ofDigits ds)
  else .error .malformed

/-- Drops each underscore that stands between two digits; nothing if one stands elsewhere. -/
def dropUnderscores : Bool → List Char → Option (List Char)
  | _, [] => some []
  | afterDigit, c :: r =>
    if c = '_' then
      match r with
      | d :: _ => if afterDigit && isDigit d then dropUnderscores false r else none
      | [] => none
    else (dropUnderscores (isDigit c) r).map (c :: ·)

def lowerAscii (c : Char) : Char :=
  if 0x41 ≤ c.toNat && c.toNat ≤ 0x5a then Char.ofNat (c.toNat + 32) else c

/-- An exponent to the end of the text: a mark, a sign and at least one digit. -/
def readExponent : List Char → Option Int
  | [] => some 0
  | c :: r =>
    if c = 'e' || c = 'E' then
      let (negative, ds) := takeSign r
      if !ds.isEmpty && ds.all isDigit then
        let n : Int := ofDigits (digitValues ds)
        some (if negative then -n else n)
      else none
    else none

def readUnsigned (negative : Bool) (s : List Char) : Option Binary64 :=
  let word := String.ofList (s.map lowerAscii)
  if word = "inf" || word = "infinity" then some (Binary64.infinite negative)
  else if word = "nan" then some Binary64.nan
  else
    let whole := s.takeWhile isDigit
    let rest := s.dropWhile isDigit
    let (places, rest) :=
      match rest with
      | '.' :: r => (r.takeWhile isDigit, r.dropWhile isDigit)
      | r => ([], r)
    if whole.isEmpty && places.isEmpty then none
    else
      (readExponent rest).map fun e =>
        Binary64.ofDecimal negative (ofDigits (digitValues (whole ++ places))) (e - places.length)

def readReal (s : List Char) : Option Binary64 :=
  (dropUnderscores false (trimBy isNumeralBlank s)).bind fun t =>
    let (negative, r) := takeSign t
    readUnsigned negative r

end Hotload.Numeral
