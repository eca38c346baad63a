import Hotload.Files.Access
import Hotload.Json.Reader
import Hotload.Signature
import Hotload.Text.Lines

/-!
Type tables: the signatures of a library's functions, kept in a file beside the library. A table maps names to
signatures; a name that comes again replaces the signature. Names are texts as a rule but any scalar is let through, and
numbers that are equal are one name. Names of types need bytes.
-/
namespace Hotload

abbrev TypeTable := List (Value × Definition)

namespace TypeTable

def suffix : String := ".types.json"

/-- How deep lists and objects are in one another where signatures are listed. -/
def levels : Nat := 4

/-- The file that holds the table of a library. -/
def pathFor (library : Files.Path) : Outcome Files.Path :=
  if library.name = "" then .error (.emptyName library.toString)
  else .ok (library.parent.child (library.name ++ suffix))

/-- A number among names: an integer, or a number with a power of two; not finite ones stand apart. -/
inductive Numeric where
  | finite (significand : Int) (exponent : Int)
  | infinite (negative : Bool)
  | nan
  deriving DecidableEq

def numeric? : Value → Option Numeric
  | .bool b => some (.finite (if b then 1 else 0) 0)
  | .int i => some (.finite i 0)
  | .real x =>
    if x.isNaN then some .nan
    else if x.isInfinite then some (.infinite x.isNegative)
    else some (.finite (if x.isNegative then -(x.significand : Int) else x.significand) x.exponent)
  | _ => none

/-- Two significands brought to the lower one of their exponents. -/
def align (m : Int) (e : Int) (n : Int) (f : Int) : Int × Int :=
  let low := min e f
  (m * Binary64.pow2 (e - low).toNat, n * Binary64.pow2 (f - low).toNat)

def Numeric.same : Numeric → Numeric → Bool
  | .finite m e, .finite n f => (align m e n f).1 = (align m e n f).2
  | x, y => x = y

def Numeric.less : Numeric → Numeric → Bool
  | .finite m e, .finite n f => (align m e n f).1 < (align m e n f).2
  | .infinite true, .finite _ _ => true
  | .infinite true, .infinite false => true
  | .finite _ _, .infinite false => true
  | _, _ => false

def sameName : Value → Value → Bool
  | .null, .null => true
  | .text s, .text t => s = t
  | .ragged r, .ragged r' => r = r'
  | v, w =>
    match numeric? v, numeric? w with
    | some x, some y => x.same y
    | _, _ => false

/-- Enters a signature. A name that is known keeps its place and its first spelling. -/
def insert (name : Value) (definition : Definition) : TypeTable → TypeTable
  | [] => [(name, definition)]
  | (n, d) :: t => if sameName n name then (n, definition) :: t else (n, d) :: insert name definition t

def get? (t : TypeTable) (name : String) : Option Definition :=
  (List.find? (fun e => sameName e.1 (.text name)) t).map (·.2)

/-- The codes of a text, by which texts are ordered. -/
def codes? : Value → Option (List Nat)
  | .text s => some (s.toList.map Char.toNat)
  | .ragged r => some (r.points.map Text.Point.code)
  | _ => none

/-- Whether one name comes before another; texts and numbers have no order among each other. -/
def nameBefore (v w : Value) : Outcome Bool :=
  match codes? v, codes? w with
  | some x, some y => .ok (x < y)
  | _, _ =>
    match numeric? v, numeric? w with
    | some x, some y => .ok (x.less y)
    | _, _ => .error (.unordered v.kindName w.kindName)

/-- How far names run on from one to the next without turning, upward or strictly downward. -/
def runOn (down : Bool) (last : Value) : List Value → Outcome Nat
  | [] => .ok 0
  | v :: vs => do
    let before ← nameBefore v last
    if before = down then return 1 + (← runOn down v vs) else return 0

/-- Where a name belongs among sorted ones, found by halving. -/
def place (v : Value) (sorted : List Value) (low high : Nat) : Outcome Nat :=
  if _open : low < high then do
    let middle := low + (high - low) / 2
    let before ← nameBefore v (sorted.getD middle .null)
    if before then place v sorted low middle else place v sorted (middle + 1) high
  else .ok low
termination_by high - low

def insertAll (sorted : List Value) : List Value → Outcome (List Value)
  | [] => .ok sorted
  | v :: vs => do
    let i ← place v sorted 0 sorted.length
    insertAll (sorted.take i ++ v :: sorted.drop i) vs

/-- Names in order: the run at the start first, turned round if it leads down, then one name after another. The first
two names that cannot be compared make it fail. -/
def sortNames : List Value → Outcome (List Value)
  | [] => .ok []
  | [v] => .ok [v]
  | v :: w :: vs => do
    let down ← nameBefore w v
    let n := 2 + (← runOn down w vs)
    let run := (v :: w :: vs).take n
    insertAll (if down then run.reverse else run) ((v :: w :: vs).drop n)

/-- What a value lists: its items, its letters or its keys. -/
def listed? : Value → Option (List Value)
  | .list vs => some vs
  | .text s => some (s.toList.map fun c => .text (String.ofList [c]))
  | .ragged r => some (r.points.map fun p => .ofWide (.ofPoints [p]))
  | .object es => some (es.map fun e => .ofWide e.1)
  | _ => none

/-- The type that has a value as its name; the failure is that of a value that is no text. -/
def typeOf (noText : Failure) : Value → Outcome TypeInfo
  | .text s => .ok (.of s)
  | .ragged r => .error (.loneHalves r)
  | _ => .error noText

def parameterTypes (malformed : Failure) (v : Value) : Outcome (List TypeInfo) :=
  match listed? v with
  | some vs => vs.mapM (typeOf malformed)
  | none => .error malformed

/-- The name, the parameters and the result that an entry gives, if it has the shape of one. -/
def entryParts (malformed : Failure) : Value → Outcome (Value × List TypeInfo × Value)
  | .object es =>
    match valueAt? (.plain "name") es with
    | some name => do
      let parameters ← parameterTypes malformed ((valueAt? (.plain "arg_types") es).getD (.list []))
      return (name, parameters, (valueAt? (.plain "return_type") es).getD .null)
    | none => .error malformed
  | _ => .error malformed

def resultOf (v : Value) : Outcome (Option TypeInfo) :=
  if v.truthy then (typeOf (.unencodable v.kindName) v).map some else .ok none

def checkName : Value → Outcome Value
  | .list vs => .error (.unhashable (Value.list vs).kindName)
  | .object es => .error (.unhashable (Value.object es).kindName)
  | v => .ok v

def addEntry (path : String) (t : TypeTable) (entry : Value) : Outcome TypeTable := do
  let (name, parameters, result) ← entryParts (.malformedEntry path entry) entry
  let result ← resultOf result
  let name ← checkName name
  return insert name ⟨name, parameters, result⟩ t

def ofValue (path : String) (v : Value) : Outcome TypeTable :=
  match v with
  | .object es =>
    match valueAt? (.plain "functions") es with
    | some (.list entries) => entries.foldlM (addEntry path) []
    | _ => .error (.tableWithoutFunctions path)
  | _ => .error (.tableWithoutFunctions path)

/-- Reads a text with room to spare for lists and objects beyond those of signatures. -/
def parse (spare : Nat) (content : ByteArray) : Outcome Value :=
  match String.fromUTF8? content with
  | none => .error .notText
  | some s =>
    match Json.parse (levels + spare) (Text.unifyLineEnds s.toList) with
    | .ok v => .ok v
    | .error .malformed => .error .notJson
    | .error (.tooLong digits) => .error (.tooManyDigits digits)
    | .error (.tooDeep what) => .error (.tooDeep what)

/-- A file that is missing, cannot be read or holds no JSON is reported. That there was no room to read it is not. -/
def read (spare : Nat) (d : Files.Disk) (p : Files.Path) : Outcome TypeTable :=
  match d.readFile p >>= parse spare with
  | .ok v => ofValue p.toString v
  | .error f =>
    if Files.Disk.isMissing f then .error (.missingTable p.toString)
    else if f.isSystem || f.isValue then .error (.unreadableTable p.toString f)
    else .error f

end TypeTable

end Hotload
