import Hotload.Runs
import Hotload.Shared.Thread

/-!
A session whose handle is shared by threads. Threads come in at any time and take their steps in any order, the owner
takes the steps of closing, and what happens elsewhere on the machine may change everything but the libraries and the
hold that the handle has on them. A run is a sequence of such steps with the events that it consists of.
-/
namespace Hotload

structure Shared where
  session : Session
  lock : ReadWriteLock
  closing : Closing
  threads : List Thread

/-- The libraries are the same, and the handle has the same hold on them. -/
structure Session.Alike (s s' : Session) : Prop where
  shelf : s'.host.shelf = s.host.shelf
  active : s'.handle.active = s.handle.active
  reloads : s'.handle.reloads = s.handle.reloads
  closed : s'.handle.closed = s.handle.closed

namespace Shared

/-- A session before the first call on its handle. -/
def start (s : Session) : Shared :=
  ⟨s, .free, .resting, []⟩

def shelf (w : Shared) : Shelf :=
  w.session.host.shelf

def active (w : Shared) : LibraryId :=
  w.session.handle.active

def reloads (w : Shared) : Nat :=
  w.session.handle.reloads

def closed (w : Shared) : Bool :=
  w.session.handle.closed

/-- A thread goes on, with the session and the lock as it left them. -/
def move (w : Shared) (t : Nat) (x : Thread) (s : Session) (l : ReadWriteLock) : Shared :=
  { w with session := s, lock := l, threads := w.threads.set t x }

inductive Event where
  | demand (d : Demand)
  | act (t : Nat) (d : Deed)
  | owner (d : Closing.Deed)
  | elsewhere

inductive Step (w : Shared) : Event → Shared → Prop where
  | demand (d : Demand) : Step w (.demand d) { w with threads := w.threads ++ [d.thread] }
  | act {t : Nat} {x y : Thread} {d : Deed} {s : Session} {l : ReadWriteLock} : w.threads[t]? = some x →
      Thread.Step w.session w.lock x d y s l → Step w (.act t d) (w.move t y s l)
  | owner {d : Closing.Deed} {c : Closing} {s : Session} {l : ReadWriteLock} :
      Closing.Step w.session w.lock w.closing d c s l →
      Step w (.owner d) { w with session := s, lock := l, closing := c }
  | elsewhere {s : Session} : w.session.Alike s → Step w .elsewhere { w with session := s }

abbrev Run : Shared → List Event → Shared → Prop :=
  Runs Step

/-- The library that a step loads. -/
def Event.loaded? : Event → Option LibraryId
  | .act _ (.load fresh) => some fresh
  | _ => none

/-- The library that a step makes the active one. -/
def Event.installed? : Event → Option LibraryId
  | .act _ (.install fresh) => some fresh
  | _ => none

/-- The libraries loaded in a run, in order. -/
def loads (es : List Event) : List LibraryId :=
  es.filterMap Event.loaded?

/-- The libraries that became the active one in a run, in order. -/
def installs (es : List Event) : List LibraryId :=
  es.filterMap Event.installed?

end Shared

end Hotload
