import Hotload.Toolchain.External
import Hotload.Watcher

/-!
Compiling again whenever the sources change. After a first compilation a watcher takes its first listing; each poll that
sees a change triggers a debouncer, and when that fires, a rebuild is signalled. The loop waits for the signal, takes it
and compiles, until a stop is requested. A compiler that cannot be started ends the loop only at the first compilation.
-/
namespace Hotload

/-- What the loop watches with, and whether a rebuild is signalled. -/
structure Watching where
  watcher : Watcher
  debouncer : Debouncer
  rebuild : Bool

namespace Watching

def start (d : Files.Disk) (manifest : Files.Path) (interval : Binary64) (debounce : Int) : Outcome Watching :=
  (Watcher.start d (External.watchPaths manifest) interval).map (⟨·, .new debounce, false⟩)

/-- One look at the files. -/
def poll (d : Files.Disk) (w : Watching) : Outcome (Bool × Watching) :=
  (w.watcher.poll d).map fun (changed, watcher) => (changed, { w with watcher := watcher })

/-- What a change brings about: the timer is set. -/
def notice (now : Int) (w : Watching) : Outcome Watching :=
  (w.debouncer.arm now).map fun debouncer => { w with debouncer := debouncer }

/-- Lets the clock reach a time; the call that is due by then signals a rebuild. -/
def advance (time : Int) (w : Watching) : Watching :=
  let (call, debouncer) := w.debouncer.advance time
  { w with debouncer := debouncer, rebuild := w.rebuild || call.isSome }

def takeSignal (w : Watching) : Watching :=
  { w with rebuild := false }

end Watching

namespace External

def playAction (w : Watching) : TickAction → Action Watching
  | .edit e => do
    let d ← Action.ask (·.edit e)
    modify fun h => { h with disk := d }
    return w
  | .advance millis => do
    let time := (← get).clock + millis
    modify fun h => { h with clock := time }
    return w.advance time
  | .stop => do
    Action.requestStop
    return w
  | .poll => do
    let h ← get
    let (changed, w) ← Action.lift (w.poll h.disk)
    let w ← if changed then
        Action.log w.watcher.changeEvent
        Action.lift (w.notice h.clock)
      else pure w
    Action.note (.polled changed)
    return w

def playTick (w : Watching) (t : Tick) : Action Watching := do
  Action.note .tick
  t.foldlM playAction w

/-- Compiles again; a compiler that cannot be started is only reported. -/
def recompile (x : External) (manifest : Files.Path) (o : CompileOptions) : Action Unit := do
  match ← Action.attempt (x.compile manifest o) with
  | .ok _ => return ()
  | .error f =>
    if f.kind = .own .compile then
      Action.log (Log.error logger "watch_compile_failed"
        (Log.extra [("manifest", .path manifest), ("error", .text f.message)]))
    else throw f

/-- What follows a wait: nothing without a signal, nothing but the end after a stop, else a compilation. -/
def respond (x : External) (manifest : Files.Path) (o : CompileOptions) (w : Watching) : Action Watching := do
  if w.rebuild then
    if (← get).stopped then return w.takeSignal
    x.recompile manifest o
    return w.takeSignal
  else return w

/-- Each wait plays a tick; when there is none left, a stop is requested. -/
def watchTicks (x : External) (manifest : Files.Path) (o : CompileOptions) : List Tick → Watching → Action Unit
  | [], w => do
    if (← get).stopped then return ()
    Action.requestStop
    let _ ← x.respond manifest o w
  | t :: ts, w => do
    if (← get).stopped then return ()
    let w ← playTick w t
    let w ← x.respond manifest o w
    x.watchTicks manifest o ts w

def watchBuild (x : External) (manifest : Files.Path) (o : CompileOptions) : Action Bool := do
  let _ ← x.compile manifest o
  let w ← Action.ask (Watching.start · manifest x.pollInterval x.debounce)
  Action.log (Log.info logger "watch_started" (Log.extra [("manifest", .path manifest)]))
  let ticks := (← get).ticks
  Action.andFinally (x.watchTicks manifest o ticks w) do
    Action.requestStop
    Action.log (Log.info logger "watch_stopped" (Log.extra [("manifest", .path manifest)]))
  return true

end External

end Hotload
