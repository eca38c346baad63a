import Hotload.Binary64
import Hotload.Files.Listing
import Hotload.Log.Record

/-!
Watching files. A watcher keeps a listing of the files below its paths; a poll takes a new listing and reports a change
if it is another one. A thread polls at fixed intervals. Whoever stops it waits four intervals for it to end.
-/
namespace Hotload

structure Watcher where
  paths : List Files.Path
  seen : Files.Listing
  /-- Seconds between two polls. -/
  interval : Binary64

namespace Watcher

/-- A quarter of a second. -/
def standardInterval : Binary64 := .ofNatBits 0x3fd0000000000000

def start (d : Files.Disk) (paths : List Files.Path) (interval : Binary64) : Outcome Watcher :=
  (d.snapshot paths).map (⟨paths, ·, interval⟩)

/-- True if anything was added, removed or modified since the last listing. -/
def poll (d : Files.Disk) (w : Watcher) : Outcome (Bool × Watcher) :=
  (d.snapshot w.paths).map fun current => if current = w.seen then (false, w) else (true, { w with seen := current })

/-- How long the thread is waited for when it is stopped. -/
def patience (w : Watcher) : Binary64 :=
  w.interval.times 4

def changeEvent (w : Watcher) : Log.Event :=
  Log.debug "muncli.runtime.reload" "watch_change_detected" [("paths", .list (w.paths.map fun p => .text p.toString))]

end Watcher

end Hotload
