import Hotload.Entries

/-!
Environment variables.
-/
namespace Hotload

abbrev Environment := List (String × String)

namespace Environment

def get? (e : Environment) (name : String) : Option String :=
  valueAt? name e

/-- The value of a variable that is there and not empty. -/
def filled? (e : Environment) (name : String) : Option String :=
  (e.get? name).filter (· != "")

def set (e : Environment) (name value : String) : Environment :=
  setEntry name value e

def unset (e : Environment) (name : String) : Environment :=
  e.filter fun v => v.1 != name

end Environment

end Hotload
