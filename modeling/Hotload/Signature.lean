import Hotload.Digest
import Hotload.Failure
import Hotload.Numeral

/-!
Signatures of functions, and the native types that a result can be decoded as. A type is known by its name and by a
token, the digest of the name; results are decoded by token. Each native type has a canonical text for its values.
-/
namespace Hotload

abbrev Token := List UInt8

def Token.ofName (name : String) : Token :=
  Digest.md5 name.toUTF8.toList

structure TypeInfo where
  name : String
  token : Token
  deriving DecidableEq

def TypeInfo.of (name : String) : TypeInfo :=
  ⟨name, Token.ofName name⟩

/-- A type by any text as its name, which has to have bytes. -/
def TypeInfo.ofWide : Text.Wide → Outcome TypeInfo
  | .plain s => .ok (.of s)
  | .ragged r => .error (.loneHalves r)

/-- A function that a library exports. Its name is a text unless a type table holds something else. -/
structure Definition where
  name : Value
  parameters : List TypeInfo
  result : Option TypeInfo

inductive NativeType where
  | bool
  | real
  | integer
  deriving DecidableEq

namespace NativeType

def typeName : NativeType → String
  | .bool => "core::bool"
  | .real => "core::f64"
  | .integer => "core::i64"

def info (t : NativeType) : TypeInfo :=
  TypeInfo.of t.typeName

/-- The order in which tokens are compared. -/
def all : List NativeType := [.bool, .real, .integer]

def ofToken? (token : Token) : Option NativeType :=
  all.find? fun t => t.info.token = token

/-- Bytes as characters; those beyond ASCII become one that no numeral has. -/
def asciiChars (bs : List UInt8) : List Char :=
  bs.map fun b => if b.toNat < 0x80 then Char.ofNat b.toNat else '\ufffd'

/-- The most characters of a refused text that are shown. -/
def shownLimit : Nat := 200

def cut (s : String) : String :=
  String.ofList (s.toList.take shownLimit)

def readInteger (s : List Char) (shown : String) : Outcome Int :=
  match Numeral.readInteger s with
  | .ok i => .ok i
  | .error .malformed => .error (.notInteger (cut shown))
  | .error (.tooLong digits) => .error (.tooManyDigits digits)

def readReal (s : List Char) (shown : String) : Outcome Binary64 :=
  match Numeral.readReal s with
  | some x => .ok x
  | none => .error (.notReal shown)

def realOfInt (i : Int) : Outcome Binary64 :=
  let x := Binary64.ofInt i
  if x.isInfinite then .error .realTooLarge else .ok x

def toReal (v : Value) : Outcome Binary64 :=
  match v with
  | .bool b => .ok (Binary64.ofInt (if b then 1 else 0))
  | .int i => realOfInt i
  | .real x => .ok x
  | .text s => readReal s.toList v.quoted
  | .ragged _ => .error (.notReal v.quoted)
  | .bytes bs => readReal (asciiChars bs) v.quoted
  | .null | .path _ | .list _ | .object _ | .foreign _ => .error (.noReal v.kindName)

def toInteger (v : Value) : Outcome Int :=
  match v with
  | .bool b => .ok (if b then 1 else 0)
  | .int i => .ok i
  | .real x =>
    if x.isNaN then .error .integerOfNaN
    else if x.isInfinite then .error .integerOfInfinity
    else .ok x.truncate
  | .text s => readInteger s.toList v.quoted
  | .ragged _ => .error (.notInteger (cut v.quoted))
  | .bytes bs => readInteger (asciiChars bs) v.quoted
  | .null | .path _ | .list _ | .object _ | .foreign _ => .error (.noInteger v.kindName)

/-- An integer in digits, unless there are too many of them. -/
def integerText (i : Int) : Outcome String :=
  if i.natAbs < Binary64.pow10 Numeral.digitLimit then .ok (toString i) else .error .tooLongToShow

/-- The canonical text of a value of a native type; other values are converted first. -/
def format (t : NativeType) (v : Value) : Outcome String :=
  match t with
  | .bool => .ok (if v.truthy then "true" else "false")
  | .real => (toReal v).map (·.positional)
  | .integer => toInteger v >>= integerText

end NativeType

/-- How a result is decoded: as a native type, or not at all. -/
inductive Decoded where
  | native (t : NativeType)
  | unsupported (name : String)

def TypeInfo.decoded (t : TypeInfo) : Decoded :=
  match NativeType.ofToken? t.token with
  | some n => .native n
  | none => .unsupported t.name

end Hotload
