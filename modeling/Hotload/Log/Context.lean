import Hotload.Value

/-!
Fields of log records and the context that adds to them. A block of work adds its fields for as long as it lasts; a
field without a value adds nothing, so it leaves the field of an outer block in place.
-/
namespace Hotload.Log

abbrev Fields := List (String × Value)

abbrev Context := Fields

def isGiven : Value → Bool
  | .null => false
  | _ => true

def given (fs : Fields) : Fields :=
  fs.filter fun f => isGiven f.2

/-- The context inside a block. -/
def Context.enter (context : Context) (fs : Fields) : Context :=
  setEntries context (given fs)

/-- Fields that every record has in the end. -/
def standardFields : List String :=
  ["command", "manifest", "library", "entry"]

def isPathField (key : String) : Bool :=
  key = "manifest" || key = "library"

/-- Fields of one record: the standard ones first, those that name a file as text, then the others; none without a
value. -/
def extra (fs : Fields) : Fields :=
  let standard := standardFields.filterMap fun key =>
    match valueAt? key fs with
    | none | some .null => none
    | some v => some (key, if isPathField key then .text v.shown else v)
  standard ++ given (fs.filter fun f => !standardFields.contains f.1)

end Hotload.Log
