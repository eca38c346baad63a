import Hotload.Debouncer
import Hotload.Library.Shelf
import Hotload.Watcher

/-!
The handle on a library that can be replaced while it is in use. A reload has three steps: a fresh library is loaded; it
is swapped in, unless the handle is closed by then; and the library that was dropped, the former one or the fresh one
itself, is closed. Closing has three steps: the handle is marked; its watcher is stopped and its timer cancelled; then the
active library is closed. A wait for the thread of the watcher that cannot be made breaks closing off after the first step.
-/
namespace Hotload

/-- Waits so many seconds for a thread that was told to end; true if it ends by then. -/
abbrev Join := Binary64 → Outcome Bool

structure Handle where
  path : Files.Path
  delay : Int
  reloads : Nat
  active : LibraryId
  debouncer : Debouncer
  /-- The watcher that was started last. -/
  watcher : Option Watcher
  watching : Bool
  /-- A watcher was stopped whose thread had not ended when it was no longer waited for. -/
  lingering : Bool
  closed : Bool

namespace Handle

def new (path : Files.Path) (delay : Int) (library : LibraryId) : Handle :=
  ⟨path, delay, 0, library, .new delay, none, false, false, false⟩

/-- Swaps a fresh library in and gives the one that is dropped. -/
def swap (h : Handle) (fresh : LibraryId) : LibraryId × Handle :=
  if h.closed then (fresh, h)
  else (h.active, { h with active := fresh, reloads := h.reloads + 1 })

/-- From here on no fresh library is taken in. -/
def mark (h : Handle) : Handle :=
  { h with closed := true }

/-- The watcher that is at work. -/
def working? (h : Handle) : Option Watcher :=
  if h.watching then h.watcher else none

/-- Cancels the timer once no watcher is at work. -/
def still (h : Handle) (lingering : Bool) : Handle :=
  { h with watching := false, lingering := lingering, debouncer := h.debouncer.cancel }

/-- Stops the watcher and cancels the timer. -/
def silence (join : Join) (h : Handle) : Outcome Handle :=
  match h.working? with
  | none => .ok (h.still h.lingering)
  | some w => (join w.patience).map fun ended => h.still !ended

def notify (h : Handle) (now : Int) : Handle :=
  { h with debouncer := h.debouncer.trigger now }

/-- Starts a watcher on the library file unless one is at work. -/
def watch (h : Handle) (interval : Binary64) (d : Files.Disk) : Outcome Handle :=
  if h.watching then .ok h
  else (Watcher.start d [h.path] interval).map fun w => { h with watcher := some w, watching := true }

def definition? (h : Handle) (s : Shelf) (name : String) : Option Definition :=
  s.definition? h.active name

def call (h : Handle) (s : Shelf) (d : Definition) (as : Option NativeType) : Outcome Value × Shelf :=
  s.call h.active d as

theorem swap_of_closed {h : Handle} (hc : h.closed = true) (fresh : LibraryId) : h.swap fresh = (fresh, h) := by
  simp [swap, hc]

theorem swap_of_open {h : Handle} (hc : h.closed = false) (fresh : LibraryId) :
    h.swap fresh = (h.active, { h with active := fresh, reloads := h.reloads + 1 }) := by
  simp [swap, hc]

end Handle

end Hotload
