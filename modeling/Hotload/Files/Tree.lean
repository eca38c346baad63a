import Hotload.Entries

/-!
File trees. A tree is flat: each directory, file and link is entered under the names that lead to it from the root. The
root itself is always a directory.
-/
namespace Hotload.Files

/-- The names that lead from the root to an entry. -/
abbrev Location := List String

inductive Node where
  | directory
  | file (content : ByteArray) (modified : Int)
  | link (target : String)
  deriving BEq

structure Tree where
  entries : List (Location × Node)

namespace Tree

def empty : Tree := ⟨[]⟩

def get? (t : Tree) (l : Location) : Option Node :=
  if l.isEmpty then some .directory else valueAt? l t.entries

def put (t : Tree) (l : Location) (n : Node) : Tree :=
  ⟨setEntry l n t.entries⟩

/-- Removes an entry and all that lies below it. -/
def remove (t : Tree) (l : Location) : Tree :=
  ⟨t.entries.filter fun e => !l.isPrefixOf e.1⟩

/-- What lies below a location, by the names that lead there from it. -/
def below (t : Tree) (l : Location) : List (Location × Node) :=
  t.entries.filterMap fun e =>
    if l.isPrefixOf e.1 && l.length < e.1.length then some (e.1.drop l.length, e.2) else none

theorem get?_put (t : Tree) {l : Location} (n : Node) (k : Location) (h : l ≠ []) :
    (t.put l n).get? k = if l = k then some n else t.get? k := by
  cases k with
  | nil => simp [get?, h]
  | cons a k => simp [get?, put, valueAt?_setEntry]

end Tree

end Hotload.Files
