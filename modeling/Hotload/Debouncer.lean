import Hotload.Delay

/-!
Debouncing: a burst of triggers makes one call, a fixed delay after the last of them. Each trigger sets a timer anew. A
timer that was set before may still be delivered late; it passes only if it is the one that is set. Once cancelled,
nothing is set and nothing passes.
-/
namespace Hotload

structure Timer where
  id : Nat
  due : Int
  deriving DecidableEq

structure Debouncer where
  delay : Int
  closed : Bool
  timer : Option Timer
  /-- Timers set so far; the next one takes this number. -/
  issued : Nat

namespace Debouncer

def new (delay : Int) : Debouncer :=
  ⟨delay, false, none, 0⟩

def pending (d : Debouncer) : Bool :=
  d.timer.isSome

def trigger (d : Debouncer) (now : Int) : Debouncer :=
  if d.closed then d
  else { d with timer := some ⟨d.issued, now + d.delay⟩, issued := d.issued + 1 }

/-- Triggers, if the delay is one that a timer can be given. -/
def arm (d : Debouncer) (now : Int) : Outcome Debouncer :=
  if d.closed then .ok d else (Delay.seconds d.delay).map fun _ => d.trigger now

def isCurrent (d : Debouncer) (id : Nat) : Bool :=
  d.timer.map (·.id) = some id

/-- Delivers a timer; true if it passes, and then the call is due. -/
def deliver (d : Debouncer) (id : Nat) : Bool × Debouncer :=
  if d.closed || !d.isCurrent id then (false, d) else (true, { d with timer := none })

def cancel (d : Debouncer) : Debouncer :=
  { d with closed := true, timer := none }

/-- The timer that is due at a time. -/
def due? (d : Debouncer) (time : Int) : Option Timer :=
  d.timer.filter (·.due ≤ time)

/-- Lets the clock reach a time. The timer that is due by then is delivered, and the time of the call is known. -/
def advance (d : Debouncer) (time : Int) : Option Int × Debouncer :=
  match d.due? time with
  | none => (none, d)
  | some t =>
    let (passes, d) := d.deliver t.id
    (if passes then some t.due else none, d)

theorem pending_trigger (d : Debouncer) (now : Int) (h : d.closed = false) : (d.trigger now).pending = true := by
  simp [trigger, h, pending]

theorem pending_cancel (d : Debouncer) : d.cancel.pending = false := rfl

theorem deliver_of_closed {d : Debouncer} (h : d.closed = true) (id : Nat) : d.deliver id = (false, d) := by
  simp [deliver, h]

end Debouncer

end Hotload
