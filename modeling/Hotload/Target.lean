/-!
Target triples: the machines that code is compiled for.
-/
namespace Hotload

structure Target where
  triple : String
  deriving DecidableEq

namespace Target

def supported : List String :=
  ["x86_64-unknown-linux-gnu", "aarch64-unknown-linux-gnu", "x86_64-apple-darwin", "aarch64-apple-darwin",
   "x86_64-pc-windows-msvc", "aarch64-pc-windows-msvc"]

def architectures : List (String × String) :=
  [("x86_64", "x86_64"), ("amd64", "x86_64"), ("aarch64", "aarch64"), ("arm64", "aarch64")]

/-- Systems by the start of the name they go by. -/
def systems : List (String × String) :=
  [("linux", "unknown-linux-gnu"), ("darwin", "apple-darwin"), ("win32", "pc-windows-msvc")]

end Target

end Hotload
