import Hotload.Toolchain.LanguageServer
import Hotload.Toolchain.WatchLoop

/-!
Toolchains: what a command hands its work to. It is the external one unless another is put in its place, whose answers
are laid down.
-/
namespace Hotload

/-- What a toolchain answers to each of the three kinds of work, and the loader it has. -/
structure Substitute where
  compile : Outcome Bool
  watch : Outcome Bool
  serve : Outcome Bool
  loader : Loader

inductive Toolchain where
  | external (x : External)
  | substitute (s : Substitute)

namespace Toolchain

def compile (t : Toolchain) (manifest : Files.Path) (o : CompileOptions) : Action Bool :=
  match t with
  | .external x => x.compile manifest o
  | .substitute s => do
    Action.note (.compile manifest o)
    Action.lift s.compile

/-- Compiles, and compiles again on changes until a stop is requested. -/
def watch (t : Toolchain) (manifest : Files.Path) (o : CompileOptions) : Action Bool :=
  match t with
  | .external x => x.watchBuild manifest o
  | .substitute s => do
    Action.note (.watch manifest o (← get).stopped)
    Action.lift s.watch

def serve (t : Toolchain) : Action Bool :=
  match t with
  | .external x => x.serve
  | .substitute s => do
    Action.note .serve
    Action.lift s.serve

def loader : Toolchain → Loader
  | .external x => .native x.loader
  | .substitute s => s.loader

end Toolchain

end Hotload
