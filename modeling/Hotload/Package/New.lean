import Hotload.Host
import Hotload.Package.Create

/-!
Creating a package on a machine: what was made stays there whether or not the package was completed.
-/
namespace Hotload.Package

def createdEvent (manifest : Files.Path) : Log.Event :=
  Log.info "muncli.scaffold" "package_created" [("manifest", .text manifest.toString)]

/-- Creates a package and gives the path of its manifest. -/
def new (root : Files.Path) : Action Files.Path := do
  let (r, d) := create (← get).disk root
  modify fun h => { h with disk := d }
  let manifest ← Action.lift r
  Action.log (createdEvent manifest)
  return manifest

end Hotload.Package
