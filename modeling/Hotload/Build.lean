import Hotload.Manifest
import Hotload.Toolchain

/-!
Building a project: its manifest is found, and the toolchain compiles it, once or on every change.
-/
namespace Hotload.Build

/-- Finds the manifest that is built; one found by searching is logged. -/
def locate (given directory : Option String) : Action Files.Path := do
  let manifest ← Action.ask (Manifest.resolve · given directory)
  if given.isNone then
    Action.log (Log.debug "muncli.manifest" "manifest_search_hit" [("manifest", .text manifest.toString)])
  return manifest

def build (t : Toolchain) (o : CompileOptions) (given directory : Option String) (watch : Bool) : Action Bool := do
  let manifest ← locate given directory
  Action.within [("manifest", .text manifest.toString)] do
    Action.log (Log.info "muncli.build" "manifest_located" (Log.extra
      [("manifest", .path manifest), ("target", .text o.target.triple), ("opt_level", .int o.level.number),
       ("watch", .bool watch)]))
    if watch then t.watch manifest o else t.compile manifest o

end Hotload.Build
