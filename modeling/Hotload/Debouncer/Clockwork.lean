import Hotload.Debouncer
import Hotload.Debouncer.Script

/-!
A debouncer that a script is played to. Timers come when the clock reaches their times. A timer that was told to stop
stays in the queue until then, and it may come all the same.
-/
namespace Hotload.Debouncer

/-- A debouncer with the time, the timers that were set and have not come, in the order in which they were set, and the
times of the calls so far. -/
structure Clockwork where
  debouncer : Debouncer
  now : Int
  queue : List Timer
  calls : List Int

/-- The timers that a debouncer has set since it was in an earlier state. -/
def newTimers (before after : Debouncer) : List Timer :=
  if before.issued < after.issued then after.timer.toList else []

namespace Clockwork

def start (delay : Int) : Clockwork :=
  ⟨.new delay, 0, [], []⟩

/-- The time of a timer has come. One that was told to stop comes only if it is too late for that. -/
def come (late : Timer → Bool) (c : Clockwork) (t : Timer) : Clockwork :=
  if c.debouncer.isCurrent t.id || late t then
    let (passes, d) := c.debouncer.deliver t.id
    { c with debouncer := d, calls := c.calls ++ if passes then [t.due] else [] }
  else c

/-- Brings the clock to a time; the timers that are due by then come in the order in which they were set. -/
def reach (late : Timer → Bool) (c : Clockwork) (time : Int) : Clockwork :=
  let after := (c.queue.filter (·.due ≤ time)).foldl (come late) c
  { after with now := time, queue := c.queue.filter (time < ·.due) }

def play (late : Timer → Bool) (c : Clockwork) : Cue → Outcome Clockwork
  | .trigger => (c.debouncer.arm c.now).map fun d =>
    { c with debouncer := d, queue := c.queue ++ newTimers c.debouncer d }
  | .cancel => .ok { c with debouncer := c.debouncer.cancel }
  | .advance n => .ok (c.reach late (c.now + n))

/-- Plays a script to a new debouncer. -/
def perform (late : Timer → Bool) (delay : Int) (cues : List Cue) : Outcome Clockwork :=
  cues.foldlM (play late) (start delay)

end Clockwork

end Hotload.Debouncer
