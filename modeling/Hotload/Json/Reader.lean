import Hotload.Numeral
import Hotload.Text.Digit
import Hotload.Value

/-!
Reading a JSON text. Beyond the standard, the three words for the numbers that are not finite are known, and an integer
is exact however long, up to a limit of digits. A key that comes again keeps its place and takes the later value. Lists
and objects are read only so deep in one another as there is room for.
-/
namespace Hotload.Json

open Text (Point Wide)

inductive Fault where
  | malformed
  | tooLong (digits : Nat)
  | tooDeep (what : String)
  deriving DecidableEq

def isSpace (c : Char) : Bool :=
  c = ' ' || c = '\t' || c = '\n' || c = '\r'

def skipSpace (s : List Char) : List Char :=
  s.dropWhile isSpace

def unit? (a b c d : Char) : Option Nat := do
  let a ← Text.hexValue? a
  let b ← Text.hexValue? b
  let c ← Text.hexValue? c
  let d ← Text.hexValue? d
  return 4096 * a + 256 * b + 16 * c + d

def isHighHalf (n : Nat) : Bool :=
  0xd800 ≤ n && n < 0xdc00

def isLowHalf (n : Nat) : Bool :=
  0xdc00 ≤ n && n < 0xe000

def joinHalves (high low : Nat) : Char :=
  Char.ofNat (0x10000 + (high - 0xd800) * 0x400 + (low - 0xdc00))

def escapes : List (Char × Char) :=
  [('"', '"'), ('\\', '\\'), ('/', '/'), ('b', '\x08'), ('f', '\x0c'), ('n', '\n'), ('r', '\r'), ('t', '\t')]

/-- What a code unit denotes, joined with the second half that follows if the two make a pair. -/
def joinNext (n : Nat) (r : List Char) : Point × List Char :=
  match r with
  | '\\' :: 'u' :: a :: b :: c :: d :: r' =>
    match unit? a b c d with
    | some m => if isHighHalf n && isLowHalf m then (.char (joinHalves n m), r') else (.ofCode n, r)
    | none => (.ofCode n, r)
  | _ => (.ofCode n, r)

/-- What an escape denotes, given what follows the backslash, and the rest. -/
def readEscape : List Char → Option (Point × List Char)
  | 'u' :: a :: b :: c :: d :: r => (unit? a b c d).map (joinNext · r)
  | c :: r => (escapes.lookup c).map (.char ·, r)
  | [] => none

theorem length_joinNext_le (n : Nat) (r : List Char) : (joinNext n r).2.length ≤ r.length := by
  unfold joinNext
  split
  · split
    · split <;> simp only [List.length_cons] <;> omega
    · exact Nat.le_refl _
  · exact Nat.le_refl _

theorem length_of_readEscape {s r : List Char} {p : Point} (h : readEscape s = some (p, r)) : r.length < s.length := by
  unfold readEscape at h
  split at h
  · next r' =>
    obtain ⟨n, _, hn⟩ := Option.map_eq_some_iff.1 h
    have hl := length_joinNext_le n r'
    rw [hn] at hl
    simp only [List.length_cons] at hl ⊢
    omega
  · obtain ⟨_, _, hn⟩ := Option.map_eq_some_iff.1 h
    simp only [Prod.mk.injEq] at hn
    simp [← hn.2]
  · simp at h

/-- A text up to its closing quote, and what follows that. -/
def readText (s : List Char) : Option (List Point × List Char) :=
  match s with
  | [] => none
  | c :: r =>
    if c = '"' then some ([], r)
    else if c = '\\' then
      match _found : readEscape r with
      | some (p, r') => (readText r').map fun t => (p :: t.1, t.2)
      | none => none
    else if c.toNat < 0x20 then none
    else (readText r).map fun t => (.char c :: t.1, t.2)
termination_by s.length
decreasing_by
  · have := length_of_readEscape _found
    simp only [List.length_cons]
    omega
  · simp

/-- The digits a text starts with, if there are any, and the rest. -/
def readDigits (s : List Char) : Option (List Char × List Char) :=
  let ds := s.takeWhile Text.isAsciiDigit
  if ds.isEmpty then none else some (ds, s.dropWhile Text.isAsciiDigit)

/-- Digits of the integer part: a single zero, or digits that do not start with one. -/
def readWhole : List Char → Option (List Char × List Char)
  | '0' :: r => some (['0'], r)
  | s => readDigits s

def readPlaces : List Char → Option (List Char × List Char)
  | '.' :: r => readDigits r
  | _ => none

def readPower : List Char → Option (Bool × List Char × List Char)
  | c :: r =>
    if c = 'e' || c = 'E' then
      match r with
      | '-' :: r' => (readDigits r').map (true, ·)
      | '+' :: r' => (readDigits r').map (false, ·)
      | r' => (readDigits r').map (false, ·)
    else none
  | [] => none

def valueOf (ds : List Char) : Nat :=
  Text.ofDigits (ds.filterMap Text.asciiDigitValue?)

def signedInt (negative : Bool) (n : Nat) : Int :=
  if negative then -(n : Int) else n

/-- A number is an integer unless it has places or a power. -/
def readNumber (negative : Bool) (s : List Char) : Except Fault (Value × List Char) :=
  match readWhole s with
  | none => .error .malformed
  | some (whole, r) =>
    let (places, r₁) := (readPlaces r).getD ([], r)
    match readPower r₁ with
    | some (negativePower, power, r₂) =>
      let e := signedInt negativePower (valueOf power)
      .ok (.real (.ofDecimal negative (valueOf (whole ++ places)) (e - places.length)), r₂)
    | none =>
      if places.isEmpty then
        if Numeral.digitLimit < whole.length then .error (.tooLong whole.length)
        else .ok (.int (signedInt negative (valueOf whole)), r₁)
      else .ok (.real (.ofDecimal negative (valueOf (whole ++ places)) (-places.length)), r₁)

def words : List (List Char × Value) :=
  [("null".toList, .null), ("true".toList, .bool true), ("false".toList, .bool false),
   ("NaN".toList, .real .nan), ("Infinity".toList, .real (.infinite false)),
   ("-Infinity".toList, .real (.infinite true))]

def dropWord? : List Char → List Char → Option (List Char)
  | [], s => some s
  | w :: ws, c :: s => if w = c then dropWord? ws s else none
  | _ :: _, [] => none

def readWord (s : List Char) : Option (Value × List Char) :=
  words.findSome? fun w => (dropWord? w.1 s).map (w.2, ·)

def readScalar (s : List Char) : Except Fault (Value × List Char) :=
  match readWord s with
  | some r => .ok r
  | none =>
    match s with
    | '-' :: r => readNumber true r
    | r => readNumber false r

mutual

/-- Reads one value, with room for lists and objects in one another; the second number bounds the values and members still
to come. -/
def readValue : Nat → Nat → List Char → Except Fault (Value × List Char)
  | _, 0, _ => .error .malformed
  | room, n + 1, s =>
    match s with
    | '"' :: r =>
      match readText r with
      | some (ps, r') => .ok (.ofWide (.ofPoints ps), r')
      | none => .error .malformed
    | '[' :: r =>
      match room with
      | 0 => .error (.tooDeep "array")
      | room + 1 =>
        match skipSpace r with
        | ']' :: r' => .ok (.list [], r')
        | r' => (readItems room n r').map fun t => (.list t.1, t.2)
    | '\x7b' :: r =>
      match room with
      | 0 => .error (.tooDeep "object")
      | room + 1 =>
        match skipSpace r with
        | '\x7d' :: r' => .ok (.object [], r')
        | r' => (readMembers room n [] r').map fun t => (.object t.1, t.2)
    | s => readScalar s

def readItems : Nat → Nat → List Char → Except Fault (List Value × List Char)
  | _, 0, _ => .error .malformed
  | room, n + 1, s => do
    let (v, r) ← readValue room n s
    match skipSpace r with
    | ',' :: r' => (readItems room n (skipSpace r')).map fun t => (v :: t.1, t.2)
    | ']' :: r' => .ok ([v], r')
    | _ => .error .malformed

/-- Reads the members of an object on top of those read before. -/
def readMembers : Nat → Nat → List (Wide × Value) → List Char → Except Fault (List (Wide × Value) × List Char)
  | _, 0, _, _ => .error .malformed
  | room, n + 1, es, s =>
    match s with
    | '"' :: r =>
      match readText r with
      | none => .error .malformed
      | some (key, r₁) =>
        match skipSpace r₁ with
        | ':' :: r₂ => do
          let (v, r₃) ← readValue room n (skipSpace r₂)
          let es := setEntry (.ofPoints key) v es
          match skipSpace r₃ with
          | ',' :: r₄ => readMembers room n es (skipSpace r₄)
          | '\x7d' :: r₄ => .ok (es, r₄)
          | _ => .error .malformed
        | _ => .error .malformed
    | _ => .error .malformed

end

def parse (room : Nat) (s : List Char) : Except Fault Value := do
  let (v, r) ← readValue room (2 * s.length + 2) (skipSpace s)
  if (skipSpace r).isEmpty then .ok v else .error .malformed

end Hotload.Json
