import Hotload.Delay
import Hotload.Host
import Hotload.Handle

/-!
Running with hot reload: spawning a handle, reloading when its file was changed, and what time brings about. A load that
fails leaves the active library in place.
-/
namespace Hotload

/-- A machine with a handle at work on it. -/
structure Session where
  host : Host
  loader : Loader
  handle : Handle

namespace Session

def logger : String := "muncli.runtime.handle"

/-- Does something on the machine. -/
def onHost {α : Type} (s : Session) (a : Action α) : Outcome α × Session :=
  let (r, host) := a s.host
  (r, { s with host := host })

def log (s : Session) (e : Log.Event) : Session :=
  (s.onHost (Action.log e)).2

/-- First step of a reload: a fresh library, or the failure to load one. -/
def load (s : Session) : Outcome LibraryId × Session :=
  let loading := s.loader.load s.host.disk s.handle.path s.host.shelf
  let s := { s with host := { s.host with shelf := loading.shelf } }
  (loading.outcome, loading.events.foldl log s)

/-- Second step: the fresh library is swapped in, and the dropped one is known. -/
def swap (s : Session) (fresh : LibraryId) : LibraryId × Session :=
  let (dropped, handle) := s.handle.swap fresh
  (dropped, { s with handle := handle })

/-- Third step: the dropped library is closed. -/
def drop (s : Session) (dropped : LibraryId) : Session :=
  { s with host := { s.host with shelf := s.host.shelf.close dropped } }

/-- First step of closing. -/
def mark (s : Session) : Session :=
  { s with handle := s.handle.mark }

/-- Second step of closing. -/
def silence (s : Session) : Outcome Session :=
  (s.handle.silence s.host.platform.join).map fun handle => { s with handle := handle }

/-- The steps of closing after one another, unless the handle is closed already. -/
def close (s : Session) : Outcome Unit × Session :=
  if s.handle.closed then (.ok (), s)
  else
    match s.mark.silence with
    | .error f => (.error f, s.mark)
    | .ok s => (.ok (), s.drop s.handle.active)

def failedEvent (s : Session) (f : Failure) : Log.Event :=
  Log.warning logger "library_reload_failed" (Log.extra [("library", .path s.handle.path), ("error", .text f.message)])

def reloadedEvent (s : Session) : Log.Event :=
  Log.info logger "library_reloaded" (Log.extra
    [("library", .path s.handle.path), ("duration_ms", .int 0), ("reload_count", .int s.handle.reloads)])

/-- How a reload ends whose load failed. Only a failure that is no ordinary one is passed on. -/
def abandon (s : Session) (f : Failure) : Outcome Bool × Session :=
  if f.isOrdinary then (.ok false, s.log (s.failedEvent f)) else (.error f, s)

/-- The third step with its report: true if the fresh library was taken in. -/
def settle (s : Session) (fresh dropped : LibraryId) : Bool × Session :=
  let s := s.drop dropped
  if dropped = fresh then (false, s) else (true, s.log s.reloadedEvent)

/-- The second and third step for a library that was loaded. -/
def install (s : Session) (fresh : LibraryId) : Bool × Session :=
  let (dropped, s) := s.swap fresh
  s.settle fresh dropped

/-- Replaces the library; true if it was replaced. -/
def reload (s : Session) : Outcome Bool × Session :=
  match s.load with
  | (.error f, s) => s.abandon f
  | (.ok fresh, s) =>
    let s := if s.loader.interrupts then s.close.2 else s
    let (replaced, s) := s.install fresh
    (.ok replaced, s)

def notify (s : Session) : Session :=
  { s with handle := s.handle.notify s.host.clock }

def watch (s : Session) (interval : Binary64) : Outcome Session :=
  (s.handle.watch interval s.host.disk).map fun handle => { s with handle := handle }

def setClock (s : Session) (time : Int) : Session :=
  { s with host := { s.host with clock := time } }

/-- Lets time pass. A call of the debouncer that is due reloads the library, at its time. -/
def advance (s : Session) (millis : Int) : Outcome Unit × Session :=
  let stop := s.host.clock + millis
  let (call, debouncer) := s.handle.debouncer.advance stop
  let s := { s with handle := { s.handle with debouncer := debouncer } }
  match call with
  | none => (.ok (), s.setClock stop)
  | some time =>
    match (s.setClock time).reload with
    | (.ok _, s) => (.ok (), s.setClock stop)
    | (.error f, s) => (.error f, s)

/-- One poll of the watcher that was started last; a change sets the timer. -/
def poll (s : Session) : Outcome Bool × Session :=
  match s.handle.watcher with
  | none => (.error (.missingAttribute "poll"), s)
  | some w =>
    match w.poll s.host.disk with
    | .error f => (.error f, s)
    | .ok (false, _) => (.ok false, s)
    | .ok (true, w) =>
      let s := { s with handle := { s.handle with watcher := some w } }
      (.ok true, (s.log w.changeEvent).notify)

def definition? (s : Session) (name : String) : Option Definition :=
  s.handle.definition? s.host.shelf name

def call (s : Session) (d : Definition) (as : Option NativeType) : Outcome Value × Session :=
  let (r, shelf) := s.handle.call s.host.shelf d as
  (r, { s with host := { s.host with shelf := shelf } })

end Session

namespace Loader

/-- Loads on a machine. -/
def loadOn (l : Loader) (path : Files.Path) : Action LibraryId := do
  let h ← get
  let loading := l.load h.disk path h.shelf
  modify fun h => { h with shelf := loading.shelf }
  loading.events.forM Action.log
  Action.lift loading.outcome

/-- How a failure to load is reported: the tool's own ones and interrupts as they are, others with the path. -/
def reportFailure (path : Files.Path) (f : Failure) : Failure :=
  if f.kind = .own .launch || !f.isOrdinary then f else .cannotLoad path.toString f

/-- Loads the library that a path names, which has to be a file. -/
def loadFile (l : Loader) (path : Files.Path) : Action LibraryId := do
  if ← Action.ask (·.isFile path) then
    match ← Action.attempt (l.loadOn path) with
    | .ok id => return id
    | .error f => throw (reportFailure path f)
  else throw (.noLibraryFile path.toString)

end Loader

/-- Loads a library and gives a handle on it, with its watcher started if that is asked for. -/
def Handle.spawn (l : Loader) (path : Files.Path) (delay : Int) (interval : Binary64) (watch : Bool) :
    Action Handle := do
  let id ← l.loadFile path
  let handle := Handle.new path delay id
  let handle ← if watch then Action.ask (handle.watch interval) else pure handle
  Action.log (Log.info Session.logger "runtime_spawned" (Log.extra
    [("library", .path path), ("delay_ms", .int delay), ("watching", .bool watch)]))
  return handle

end Hotload
