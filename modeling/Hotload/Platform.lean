import Hotload.CommandLine.Command
import Hotload.Console
import Hotload.Handle
import Hotload.Library.Load
import Hotload.Settings

/-!
What the program rests on: the libraries that it is linked with, the linker and the users of the system, and the threads
that it starts.
-/
namespace Hotload

structure Platform where
  basis : Settings.Basis
  reader : CommandLine.Reader
  console : Console
  linker : Linker
  /-- Room for lists and objects in type tables beyond those of signatures. -/
  spare : Nat
  join : Join

/-- Libraries are loaded from copies. -/
def Platform.loader (p : Platform) : NativeLoader :=
  .copying p.linker p.spare

end Hotload
