import Hotload.Runs
import Hotload.Shared

/-!
A shared session with all that is done to its handle. Beside the threads and the owner there are notifications, timers
that expire, calls that ask for a watcher and polls of the watcher. A timer that passes makes a reload, a thread of its
own. What happens elsewhere on the machine leaves the handle and the libraries alone.
-/
namespace Hotload.Shared

/-- The session goes on by itself. -/
def setSession (w : Shared) (s : Session) : Shared :=
  { w with session := s }

/-- Delivers a timer. If it passes, a thread reloads the library. -/
def expire (w : Shared) (id : Nat) : Bool × Shared :=
  let (passes, d) := w.session.handle.debouncer.deliver id
  (passes, { w with
    session := { w.session with handle := { w.session.handle with debouncer := d } }
    threads := if passes then w.threads ++ [Demand.reload.thread] else w.threads })

namespace Upkeep

inductive Event where
  | shared (e : Shared.Event)
  | notify
  | expire (passes : Bool)
  /-- A watcher was asked for, and it was started unless one was at work. -/
  | watch (started : Bool)
  | fail (f : Failure)
  | poll (changed : Outcome Bool)
  | machine

inductive Step (w : Shared) : Event → Shared → Prop where
  | shared {e : Shared.Event} {v : Shared} : Shared.Step w e v → e ≠ .elsewhere → Step w (.shared e) v
  | notify : Step w .notify (w.setSession w.session.notify)
  | expire (id : Nat) : Step w (.expire (w.expire id).1) (w.expire id).2
  | watch {interval : Binary64} {s : Session} : w.session.watch interval = .ok s →
      Step w (.watch (!w.session.handle.watching)) (w.setSession s)
  | fail {interval : Binary64} {f : Failure} : w.session.watch interval = .error f → Step w (.fail f) w
  | poll : Step w (.poll w.session.poll.1) (w.setSession w.session.poll.2)
  | machine {s : Session} : s.handle = w.session.handle → s.host.shelf = w.session.host.shelf →
      Step w .machine (w.setSession s)

/-- What the threads see of an event. -/
def Event.seen : Event → List Shared.Event
  | .shared e => [e]
  | .expire true => [.elsewhere, .demand .reload]
  | _ => [.elsewhere]

end Upkeep

end Hotload.Shared
