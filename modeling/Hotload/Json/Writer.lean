import Hotload.Value

/-!
Writing a value as one line of JSON in ASCII: a space after each comma and colon, characters beyond ASCII by their units
of sixteen bits, byte strings as hexadecimal digits, paths and objects of a kind of their own as texts.
-/
namespace Hotload.Json

def unitEscape (n : Nat) : List Char :=
  '\\' :: 'u' :: Text.hexDigits 4 n

def escapeChar (c : Char) : List Char :=
  if c = '"' || c = '\\' then ['\\', c]
  else if c = '\n' then ['\\', 'n']
  else if c = '\r' then ['\\', 'r']
  else if c = '\t' then ['\\', 't']
  else if c = '\x0c' then ['\\', 'f']
  else if c = '\x08' then ['\\', 'b']
  else if 0x20 ≤ c.toNat && c.toNat ≤ 0x7e then [c]
  else if c.toNat < 0x10000 then unitEscape c.toNat
  else
    let n := c.toNat - 0x10000
    unitEscape (0xd800 + n / 0x400) ++ unitEscape (0xdc00 + n % 0x400)

def writeText (s : String) : String :=
  String.ofList ('"' :: s.toList.flatMap escapeChar ++ ['"'])

def escapePoint : Text.Point → List Char
  | .char c => escapeChar c
  | .half n => unitEscape (0xd800 + n)

def writeRagged (r : Text.Ragged) : String :=
  String.ofList ('"' :: r.points.flatMap escapePoint ++ ['"'])

def writeWide : Text.Wide → String
  | .plain s => writeText s
  | .ragged r => writeRagged r

def writeReal (x : Binary64) : String :=
  if x.isNaN then "NaN"
  else if x.isInfinite then (if x.isNegative then "-Infinity" else "Infinity")
  else x.roundTrip

mutual

def write : Value → String
  | .null => "null"
  | .bool b => if b then "true" else "false"
  | .int i => toString i
  | .real x => writeReal x
  | .text s => writeText s
  | .ragged r => writeRagged r
  | .bytes bs => writeText (Text.hexOfBytes bs)
  | .path p => writeText p.toString
  | .list vs => "[" ++ ", ".intercalate (writeItems vs) ++ "]"
  | .object es => "\x7b" ++ ", ".intercalate (writeMembers es) ++ "\x7d"
  | .foreign o => writeText o.text

def writeItems : List Value → List String
  | [] => []
  | v :: vs => write v :: writeItems vs

def writeMembers : List (Text.Wide × Value) → List String
  | [] => []
  | (k, v) :: es => (writeWide k ++ ": " ++ write v) :: writeMembers es

end

end Hotload.Json
