import Hotload.Invocation
import Hotload.ReadWriteLock

/-!
Threads that work on one handle. Each call on the handle is a thread of its own: a reload, a visit that asks the active
library something, or the invocation of an entry point, which visits twice. A step of a thread is what it does in one go;
between two steps any other thread may come in. The owner closes the handle, also step by step.
-/
namespace Hotload

/-- What is asked of a library. -/
inductive Request where
  | lookup (name : String)
  | call (d : Definition) (as : Option NativeType)

inductive Reply where
  | definition (d : Option Definition)
  | value (r : Outcome Value)

/-- A library answers, whether it is the active one or not. -/
def Session.answer (s : Session) (library : LibraryId) : Request → Reply × Session
  | .lookup name => (.definition (s.host.shelf.definition? library name), s)
  | .call d as =>
    let (r, shelf) := s.host.shelf.call library d as
    (.value r, { s with host := { s.host with shelf := shelf } })

/-- How far a reload has come. It has a fresh library, then the one that it dropped, until that is closed. -/
inductive Reload where
  | begun
  | loaded (fresh : LibraryId)
  | inside (fresh : LibraryId)
  | swapped (fresh dropped : LibraryId)
  | outside (fresh dropped : LibraryId)
  | ended (r : Outcome Bool)

/-- What a visit is for. -/
inductive Errand where
  | request (q : Request)
  | entryLookup (entry : String)
  | entryCall (entry : String) (d : Definition) (as : Option NativeType)

def Errand.asks : Errand → Request
  | .request q => q
  | .entryLookup entry => .lookup entry
  | .entryCall _ d as => .call d as

/-- How far a visit has come. -/
inductive Visit where
  | waiting
  | inside
  | calling (library : LibraryId)
  | answered (a : Reply)

inductive Thread where
  | reload (r : Reload)
  | visit (e : Errand) (v : Visit)
  | replied (a : Reply)
  | invoked (r : Outcome (Option String))

/-- The side of the lock that a thread is on. -/
def Thread.side? : Thread → Option Side
  | .reload (.inside _) | .reload (.swapped _ _) => some .write
  | .visit _ .inside | .visit _ (.calling _) | .visit _ (.answered _) => some .read
  | _ => none

def Thread.isOn (x : Thread) (side : Side) : Bool :=
  x.side? = some side

/-- The library that a reload has on its hands: the fresh one until the swap, then the dropped one until it is closed. -/
def Thread.library? : Thread → Option LibraryId
  | .reload (.loaded id) | .reload (.inside id) | .reload (.swapped _ id) | .reload (.outside _ id) => some id
  | _ => none

def Thread.has (x : Thread) (id : LibraryId) : Bool :=
  x.library? = some id

/-- What a caller can ask of a handle, closing it apart. -/
inductive Demand where
  | reload
  | request (q : Request)
  | invoke (entry : String)

def Demand.thread : Demand → Thread
  | .reload => .reload .begun
  | .request q => .visit (.request q) .waiting
  | .invoke entry => .visit (.entryLookup entry) .waiting

/-- How a thread goes on with its reply. A lookup for an entry point is followed by the call, if there is to be one. -/
def Errand.conclude (e : Errand) (a : Reply) (s : Session) : Thread × Session :=
  match e, a with
  | .entryLookup entry, .definition found =>
    match Invocation.plan entry found with
    | .error f => (.invoked (.error f), s)
    | .ok (d, as) => (.visit (.entryCall entry d as) .waiting, s)
  | .entryCall entry _ as, .value r =>
    let (r, s) := Invocation.report entry as r s
    (.invoked r, s)
  | _, a => (.replied a, s)

/-- What others can tell of a step of a thread. -/
inductive Deed where
  | load (fresh : LibraryId)
  | fail (f : Failure)
  | enter (side : Side)
  | install (fresh : LibraryId)
  | decline (fresh : LibraryId)
  | leave (side : Side)
  | drop (library : LibraryId)
  | look (library : LibraryId)
  | answer (library : LibraryId) (q : Request)

/-- One step of a thread, with the session and the lock before and after it. A swap is one step: nobody else comes to
the library inside the lock, and the handle may as well be marked right after it as halfway. -/
inductive Thread.Step (s : Session) (l : ReadWriteLock) :
    Thread → Deed → Thread → Session → ReadWriteLock → Prop where
  | load {fresh : LibraryId} {s' : Session} : s.load = (.ok fresh, s') →
      Step s l (.reload .begun) (.load fresh) (.reload (.loaded fresh)) s' l
  | fail {f : Failure} {s' : Session} : s.load = (.error f, s') →
      Step s l (.reload .begun) (.fail f) (.reload (.ended (s'.abandon f).1)) (s'.abandon f).2 l
  | enterWrite {fresh : LibraryId} : l.admits .write = true →
      Step s l (.reload (.loaded fresh)) (.enter .write) (.reload (.inside fresh)) s (l.enter .write)
  | install {fresh : LibraryId} : s.handle.closed = false →
      Step s l (.reload (.inside fresh)) (.install fresh) (.reload (.swapped fresh (s.swap fresh).1)) (s.swap fresh).2 l
  | decline {fresh : LibraryId} : s.handle.closed = true →
      Step s l (.reload (.inside fresh)) (.decline fresh) (.reload (.swapped fresh (s.swap fresh).1)) (s.swap fresh).2 l
  | leaveWrite {fresh dropped : LibraryId} :
      Step s l (.reload (.swapped fresh dropped)) (.leave .write) (.reload (.outside fresh dropped)) s
        (l.leave .write).1
  | drop {fresh dropped : LibraryId} :
      Step s l (.reload (.outside fresh dropped)) (.drop dropped)
        (.reload (.ended (.ok (s.settle fresh dropped).1))) (s.settle fresh dropped).2 l
  | enterRead {e : Errand} : l.admits .read = true →
      Step s l (.visit e .waiting) (.enter .read) (.visit e .inside) s (l.enter .read)
  | look {e : Errand} :
      Step s l (.visit e .inside) (.look s.handle.active) (.visit e (.calling s.handle.active)) s l
  | answer {e : Errand} {library : LibraryId} :
      Step s l (.visit e (.calling library)) (.answer library e.asks)
        (.visit e (.answered (s.answer library e.asks).1)) (s.answer library e.asks).2 l
  | leaveRead {e : Errand} {a : Reply} :
      Step s l (.visit e (.answered a)) (.leave .read) (e.conclude a s).1 (e.conclude a s).2 (l.leave .read).1

/-- How far the owner has come with closing. -/
inductive Closing where
  | resting
  | marked
  /-- The watcher could not be waited for, and the active library stays open. -/
  | broken
  | silenced
  | inside
  | released
  deriving DecidableEq

namespace Closing

/-- Whether the owner has the lock to itself. -/
def isInside : Closing → Bool
  | .inside | .released => true
  | .resting | .marked | .broken | .silenced => false

/-- Whether the owner may be asked to close the handle. -/
def isIdle : Closing → Bool
  | .resting | .broken => true
  | .marked | .silenced | .inside | .released => false

inductive Deed where
  | mark
  | again
  | silence
  | fail (f : Failure)
  | enter
  | close (library : LibraryId)
  | leave

/-- One step of the owner. Closing is broken off where the watcher cannot be waited for, and closing a handle that is
marked already does nothing. -/
inductive Step (s : Session) (l : ReadWriteLock) : Closing → Deed → Closing → Session → ReadWriteLock → Prop where
  | mark : s.handle.closed = false → Step s l .resting .mark .marked s.mark l
  | again {c : Closing} : c.isIdle = true → s.handle.closed = true → Step s l c .again c s l
  | silence {s' : Session} : s.silence = .ok s' → Step s l .marked .silence .silenced s' l
  | fail {f : Failure} : s.silence = .error f → Step s l .marked (.fail f) .broken s l
  | enter : l.admits .write = true → Step s l .silenced .enter .inside s (l.enter .write)
  | close : Step s l .inside (.close s.handle.active) .released (s.drop s.handle.active) l
  | leave : Step s l .released .leave .resting s (l.leave .write).1

end Closing

end Hotload
