import Hotload.Signature
import Hotload.TypeTable

/-!
Libraries that are loaded: what they export, which calls were made into them, and how often they were closed. A native
library has a type table for its signatures and is opened by the linker of the system; each function that it exports
returns a word, which is read as the native type that is asked for. Functions are asked for as attributes of the opened
library, which has attributes of its own.
-/
namespace Hotload

/-- A function given with what comes of calling it. -/
structure Function where
  definition : Definition
  outcome : Outcome Value

/-- What a name stands for as an attribute. -/
inductive Attribute where
  /-- Something that is no function of the library, with what comes of calling it like one. -/
  | own (r : Outcome Value)
  | function (word : UInt64)

/-- A library as the linker opens it. -/
structure Image where
  /-- The words that the functions return which the linker finds. -/
  exported : String → Option UInt64
  /-- Attributes of the opened library itself. -/
  own : String → Option (Outcome Value)
  /-- Attributes of what stands in the place of the library once it is closed. -/
  remains : String → Option (Outcome Value)

namespace Image

/-- Names with two underscores on both sides, for which the linker is not asked. -/
def isReserved (name : String) : Bool :=
  "__".toList.isPrefixOf name.toList && "__".toList.isSuffixOf name.toList

def attribute? (i : Image) (name : String) : Option Attribute :=
  match i.own name with
  | some r => some (.own r)
  | none => if isReserved name then none else (i.exported name).map .function

end Image

inductive Exports where
  | given (functions : List (String × Function))
  | native (table : TypeTable) (image : Image)

/-- A call by its function's name and the representation that was asked for. -/
abbrev Call := String × Option NativeType

structure Library where
  path : Files.Path
  exports : Exports
  /-- The directory of the copy that was loaded in place of the file itself. -/
  copy : Option Nat
  closes : Nat
  calls : List Call

namespace Library

def new (path : Files.Path) (exports : Exports) (copy : Option Nat) : Library :=
  ⟨path, exports, copy, 0, []⟩

def isOpen (l : Library) : Bool :=
  l.closes = 0

def definition? (l : Library) (name : String) : Option Definition :=
  match l.exports with
  | .given functions => (valueAt? name functions).map (·.definition)
  | .native table _ => TypeTable.get? table name

/-- A word as a value: a byte that is not zero, a double, or a signed integer; nothing where nothing is asked for. -/
def decodeWord (as : Option NativeType) (w : UInt64) : Value :=
  match as with
  | none => .null
  | some .bool => .bool (w.toNat % 256 != 0)
  | some .real => .real ⟨w⟩
  | some .integer => .int (Int.bmod w.toNat UInt64.size)

def note (l : Library) (c : Call) : Library :=
  { l with calls := l.calls ++ [c] }

/-- What a name stands for in the opened library, or in what is left of it. -/
def attribute? (l : Library) (image : Image) (name : String) : Option Attribute :=
  if l.isOpen then image.attribute? name else (image.remains name).map .own

def call (l : Library) (d : Definition) (as : Option NativeType) : Outcome Value × Library :=
  let name := d.name.shown
  match l.exports with
  | .given functions =>
    match valueAt? name functions with
    | some f => (f.outcome, l.note (name, as))
    | none => (.error (.missingFunction name), l.note (name, as))
  | .native _ image =>
    if d.parameters.isEmpty then
      match l.attribute? image name with
      | some (.function w) => (.ok (decodeWord as w), l.note (name, as))
      | some (.own r) => (r, l)
      | none => (.error (.missingSymbol name l.path.toString), l)
    else (.error (.argumentsExpected name d.parameters.length), l)

def close (l : Library) : Library :=
  { l with closes := l.closes + 1 }

end Library

end Hotload
