import Hotload.Binary64.Layout
import Hotload.Entries
import Hotload.Files.Path
import Hotload.Text.Wide

/-!
Values that are known only when a command runs: what a type table holds, what a call returns, what is logged. A value
has a quoted form, in which texts are quoted, and a shown form, in which a text or a path stands for itself. An object that
a library is made of may come to be a value as well.
-/
namespace Hotload

/-- What is known of an object of a kind of its own. -/
structure Foreign where
  kind : String
  text : String
  truthy : Bool

inductive Value where
  | null
  | bool (b : Bool)
  | int (i : Int)
  | real (x : Binary64)
  | text (s : String)
  | ragged (r : Text.Ragged)
  | bytes (bs : List UInt8)
  | path (p : Files.Path)
  | list (vs : List Value)
  | object (es : List (Text.Wide × Value))
  | foreign (o : Foreign)

namespace Value

instance : Inhabited Value := ⟨.null⟩

def ofWide : Text.Wide → Value
  | .plain s => .text s
  | .ragged r => .ragged r

/-- An object with plain texts as keys. -/
def record (es : List (String × Value)) : Value :=
  .object (es.map fun e => (.plain e.1, e.2))

/-- The name of the kind of a value in messages. -/
def kindName : Value → String
  | .null => "NoneType"
  | .bool _ => "bool"
  | .int _ => "int"
  | .real _ => "float"
  | .text _ | .ragged _ => "str"
  | .bytes _ => "bytes"
  | .path _ => "PosixPath"
  | .list _ => "list"
  | .object _ => "dict"
  | .foreign o => o.kind

/-- Nothing, false, zero and whatever is empty are not true; a number that is no number is. -/
def truthy : Value → Bool
  | .null => false
  | .bool b => b
  | .int i => i != 0
  | .real x => !x.isZero
  | .text s => s != ""
  | .ragged _ => true
  | .bytes bs => !bs.isEmpty
  | .path _ => true
  | .list vs => !vs.isEmpty
  | .object es => !es.isEmpty
  | .foreign o => o.truthy

mutual

def quoted : Value → String
  | .null => "None"
  | .bool b => if b then "True" else "False"
  | .int i => toString i
  | .real x => x.roundTrip
  | .text s => Text.quoted s
  | .ragged r => r.quoted
  | .bytes bs => Text.quotedBytes bs
  | .path p => "PosixPath(" ++ Text.quoted p.toString ++ ")"
  | .list vs => "[" ++ ", ".intercalate (quotedItems vs) ++ "]"
  | .object es => "\x7b" ++ ", ".intercalate (quotedEntries es) ++ "\x7d"
  | .foreign o => o.text

def quotedItems : List Value → List String
  | [] => []
  | v :: vs => quoted v :: quotedItems vs

def quotedEntries : List (Text.Wide × Value) → List String
  | [] => []
  | (k, v) :: es => (k.quoted ++ ": " ++ quoted v) :: quotedEntries es

end

def shown : Value → String
  | .text s => s
  | .ragged r => r.shown
  | .path p => p.toString
  | v => v.quoted

end Value

end Hotload
