import Hotload.ReadWriteLock
import Hotload.Runs

/-!
A lock in the hands of any number of threads that come to it in any order. To be told to try again and to do so are two
steps; in between others may come, enter and leave. A thread leaves in the same way whether its work was done or broken
off, and it may come as often as it likes, also while it is inside.
-/
namespace Hotload

/-- One side cannot be inside together with the other. -/
def Side.Conflicts (a b : Side) : Prop :=
  a = .write ∨ b = .write

namespace ReadWriteLock

/-- A room with those who were told to try again and have not done so yet; those who wait in it were not told since. -/
structure Crowd where
  room : Room
  told : List (String × Side)

namespace Crowd

def start : Crowd := ⟨.empty, []⟩

inductive Event where
  | request (who : String × Side)
  | retry (who : String × Side)
  | leave (who : String × Side) (broken : Bool)

/-- The room as somebody leaves it who is inside, before anybody is told. -/
def without (r : Room) (who : String × Side) : Room :=
  { r with lock := (r.lock.leave who.2).1, inside := r.inside.erase who }

/-- Somebody leaves, and those who wait are told if that is due. -/
def leave (w : Crowd) (who : String × Side) : Crowd :=
  if (w.room.lock.leave who.2).2 then ⟨{ without w.room who with waiting := [] }, w.told ++ w.room.waiting⟩
  else { w with room := without w.room who }

inductive Step (w : Crowd) : Event → Crowd → Prop where
  | request {who : String × Side} : Step w (.request who) { w with room := w.room.request who.1 who.2 }
  | retry {who : String × Side} : who ∈ w.told →
      Step w (.retry who) ⟨w.room.request who.1 who.2, w.told.erase who⟩
  | leave {who : String × Side} {broken : Bool} : who ∈ w.room.inside → Step w (.leave who broken) (w.leave who)

end Crowd

end ReadWriteLock

end Hotload
