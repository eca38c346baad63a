import Hotload.Host
import Hotload.Watcher

/-!
Running a watcher by itself: it waits, polls, and waits again, until a stop is requested. Each wait plays a tick; when
there is none left, a stop is requested.
-/
namespace Hotload.Watcher

/-- One poll with what follows from a change. -/
def pollOnce (w : Watcher) : Action (Bool × Watcher) := do
  let (changed, w) ← Action.ask (Watcher.poll · w)
  if changed then
    Action.log w.changeEvent
    Action.note .change
  return (changed, w)

def playAction (w : Watcher) : TickAction → Action Watcher
  | .edit e => do
    let d ← Action.ask (·.edit e)
    modify fun h => { h with disk := d }
    return w
  | .advance millis => do
    modify fun h => { h with clock := h.clock + millis }
    return w
  | .stop => do
    Action.requestStop
    return w
  | .poll => do
    let (changed, w) ← w.pollOnce
    Action.note (.polled changed)
    return w

def run (w : Watcher) : List Tick → Action Unit
  | [] => Action.requestStop
  | t :: ts => do
    if (← get).stopped then return ()
    Action.note .tick
    let w ← t.foldlM playAction w
    if (← get).stopped then return ()
    let (_, w) ← w.pollOnce
    w.run ts

end Hotload.Watcher
