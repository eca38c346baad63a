import Hotload.Json.Reader
import Hotload.Library.Load
import Hotload.Text.Lines

/-!
A linker of libraries that are texts: objects with the words that functions return, in hexadecimal digits, under the names
of the functions. An opened library has a dictionary of its attributes, which takes no signature.
-/
namespace Hotload.StandIn

/-- Sixteen hexadecimal digits as a word. -/
def word? (s : String) : Option UInt64 :=
  if s.toList.length = 16 then
    (s.toList.mapM Text.hexValue?).map fun ds => UInt64.ofNat (ds.foldl (fun n d => 16 * n + d) 0)
  else none

def symbol? : Text.Wide × Value → Option (String × UInt64)
  | (.plain name, .text s) => (word? s).map (name, ·)
  | _ => none

/-- Lists and objects in one another that are read. -/
def depth : Nat := 1000

/-- The symbols that a file holds, if it is a library at all. -/
def symbols? (content : ByteArray) : Option (List (String × UInt64)) := do
  let s ← String.fromUTF8? content
  match Json.parse depth (Text.unifyLineEnds s.toList) with
  | .ok (.object es) =>
    match valueAt? (.plain "symbols") es with
    | some (.object symbols) => symbols.mapM symbol?
    | _ => none
  | _ => none

/-- The dictionary of attributes, asked to take a signature. -/
def dictionary : Outcome Value :=
  .error (.raised ⟨.attribute, [.text "'dict' object has no attribute 'argtypes'"], [], none⟩)

def image (symbols : List (String × UInt64)) : Image where
  exported name := valueAt? name symbols
  own name := if name = "__dict__" then some dictionary else none
  remains _ := none

def linker : Linker where
  image? d path copied := ((copied.or (d.readFile path).toOption).bind symbols?).map image
  complaint _ path _ := path.name ++ ": invalid ELF header"

end Hotload.StandIn
