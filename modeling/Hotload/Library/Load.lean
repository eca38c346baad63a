import Hotload.Files.Access
import Hotload.Library.Shelf
import Hotload.Log.Record

/-!
Loading libraries. A native library is loaded from a copy, so that the file can be written anew while it is in use; its
type table is read before anything else. It is opened by the linker, which has the last word on what a library is. If the
copy cannot be opened it is removed again; if it cannot be made, the directory for it stays. Another kind of loader hands
out libraries with functions that are given.
-/
namespace Hotload

/-- A loader of given functions; it may fail, or have the owner close what it is loading for before it is done. -/
structure GivenLoader where
  functions : List (String × Function)
  failure : Option Failure
  interrupted : Bool

/-- The linker of the system. It opens the file at a path, or the contents that a copy of it has. -/
structure Linker where
  image? : Files.Disk → Files.Path → Option ByteArray → Option Image
  /-- What it says about a file, or about the copy in a directory, that it does not open. -/
  complaint : Files.Disk → Files.Path → Option Nat → String

structure NativeLoader where
  linker : Linker
  /-- Room for lists and objects in type tables beyond those of signatures. -/
  spare : Nat
  copy : Bool

inductive Loader where
  | given (g : GivenLoader)
  | native (n : NativeLoader)

namespace Loader

/-- Whether the owner closes the handle while a load is under way. -/
def interrupts : Loader → Bool
  | .given g => g.interrupted
  | .native _ => false

def logger : String := "muncli.toolchain.native"

def loadedEvent (path : Files.Path) (names : List Value) : Log.Event :=
  Log.debug logger "library_loaded" [("library", .text path.toString), ("functions", .list names)]

/-- What a load comes to: the number of the library or a failure, the shelf after it, and what is logged. -/
structure Loading where
  outcome : Outcome LibraryId
  shelf : Shelf
  events : List Log.Event

end Loader

namespace NativeLoader

/-- The loader of libraries from copies. -/
def copying (linker : Linker) (spare : Nat) : NativeLoader :=
  ⟨linker, spare, true⟩

/-- Opens the file, or the contents of a copy of it. -/
def openFile (n : NativeLoader) (d : Files.Disk) (path : Files.Path) (table : TypeTable)
    (copy : Option (Nat × ByteArray)) (s : Shelf) : Loader.Loading :=
  let directory := copy.map (·.1)
  match n.linker.image? d path (copy.map (·.2)) with
  | none => ⟨.error (.invalidLibrary path.toString (n.linker.complaint d path directory)), s.removeCopy directory, []⟩
  | some image =>
    match TypeTable.sortNames (table.map (·.1)) with
    | .error f => ⟨.error f, s, []⟩
    | .ok names =>
      let (id, s) := s.add (.new path (.native table image) directory)
      ⟨.ok id, s, [Loader.loadedEvent path names]⟩

def load (n : NativeLoader) (d : Files.Disk) (path : Files.Path) (s : Shelf) : Loader.Loading :=
  match TypeTable.pathFor path >>= TypeTable.read n.spare d with
  | .error f => ⟨.error f, s, []⟩
  | .ok table =>
    if n.copy then
      let (c, s) := s.makeCopy
      match d.readFile path with
      | .error f => ⟨.error f, s, []⟩
      | .ok content => n.openFile d path table (some (c, content)) s
    else n.openFile d path table none s

end NativeLoader

def Loader.load (l : Loader) (d : Files.Disk) (path : Files.Path) (s : Shelf) : Loading :=
  match l with
  | .native n => n.load d path s
  | .given g =>
    match g.failure with
    | some f => ⟨.error f, s, []⟩
    | none =>
      let (id, s) := s.add (.new path (.given g.functions) none)
      ⟨.ok id, s, []⟩

end Hotload
