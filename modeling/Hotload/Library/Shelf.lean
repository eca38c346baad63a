import Hotload.Library

/-!
All libraries that were loaded so far, in the order in which they were loaded, with the directories that hold copies.
-/
namespace Hotload

/-- The number of a loaded library. -/
abbrev LibraryId := Nat

structure Shelf where
  libraries : List Library
  /-- Directories of copies that are there. -/
  copies : List Nat
  nextCopy : Nat

namespace Shelf

def empty : Shelf := ⟨[], [], 0⟩

def get? (s : Shelf) (id : LibraryId) : Option Library :=
  s.libraries[id]?

def add (s : Shelf) (l : Library) : LibraryId × Shelf :=
  (s.libraries.length, { s with libraries := s.libraries ++ [l] })

def modify (s : Shelf) (id : LibraryId) (f : Library → Library) : Shelf :=
  { s with libraries := s.libraries.modify id f }

def makeCopy (s : Shelf) : Nat × Shelf :=
  (s.nextCopy, { s with copies := s.copies ++ [s.nextCopy], nextCopy := s.nextCopy + 1 })

def removeCopy (s : Shelf) (copy : Option Nat) : Shelf :=
  match copy with
  | none => s
  | some c => { s with copies := s.copies.filter (· != c) }

/-- Closes a library and removes its copy. -/
def close (s : Shelf) (id : LibraryId) : Shelf :=
  (s.modify id Library.close).removeCopy ((s.get? id).bind (·.copy))

/-- Calls a function of a library. -/
def call (s : Shelf) (id : LibraryId) (d : Definition) (as : Option NativeType) : Outcome Value × Shelf :=
  match s.get? id with
  | none => (.error (.missingAttribute "invoke"), s)
  | some l =>
    let (r, l') := l.call d as
    (r, s.modify id fun _ => l')

def definition? (s : Shelf) (id : LibraryId) (name : String) : Option Definition :=
  (s.get? id).bind (·.definition? name)

end Shelf

end Hotload
