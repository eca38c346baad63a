/-!
A lock for many readers or one writer. Whoever cannot enter waits at the end of a line. When the last reader or the
writer leaves, everybody in the line tries once more, in its order.
-/
namespace Hotload

inductive Side where
  | read
  | write
  deriving DecidableEq

structure ReadWriteLock where
  readers : Nat
  writer : Bool
  deriving DecidableEq

namespace ReadWriteLock

def free : ReadWriteLock := ⟨0, false⟩

/-- Readers wait for the writer, a writer waits for everybody. -/
def admits (l : ReadWriteLock) : Side → Bool
  | .read => !l.writer
  | .write => !l.writer && l.readers = 0

def enter (l : ReadWriteLock) : Side → ReadWriteLock
  | .read => { l with readers := l.readers + 1 }
  | .write => { l with writer := true }

/-- Leaves, and tells whether those who wait are told. -/
def leave (l : ReadWriteLock) : Side → ReadWriteLock × Bool
  | .read => ({ l with readers := l.readers - 1 }, l.readers - 1 = 0)
  | .write => ({ l with writer := false }, true)

/-- A lock with those inside, in the order in which they came in, and those who wait. -/
structure Room where
  lock : ReadWriteLock
  inside : List (String × Side)
  waiting : List (String × Side)

namespace Room

def empty : Room := ⟨free, [], []⟩

def letIn (r : Room) (who : String × Side) : Room :=
  { r with lock := r.lock.enter who.2, inside := r.inside ++ [who] }

def wait (r : Room) (who : String × Side) : Room :=
  { r with waiting := r.waiting ++ [who] }

def request (r : Room) (actor : String) (side : Side) : Room :=
  if r.lock.admits side then r.letIn (actor, side) else r.wait (actor, side)

/-- Lets those of a line in who can enter, one after another; the others wait again. -/
def retry (r : Room) : List (String × Side) → Room
  | [] => r
  | who :: line => retry (if r.lock.admits who.2 then r.letIn who else r.wait who) line

def wake (r : Room) : Room :=
  retry { r with waiting := [] } r.waiting

/-- An actor leaves; true if those who wait were told. -/
def release (r : Room) (actor : String) : Room × Bool :=
  match r.inside.find? (·.1 = actor) with
  | none => (r, false)
  | some who =>
    let (lock, told) := r.lock.leave who.2
    let left : Room := { r with lock := lock, inside := r.inside.erase who }
    (if told then left.wake else left, told)

end Room

end ReadWriteLock

end Hotload
