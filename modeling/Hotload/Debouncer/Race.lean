import Hotload.Debouncer
import Hotload.Runs

/-!
A debouncer in the hands of several threads. A trigger, a cancel and the look of a timer at whether it is the one that is
set are one step each; a timer that passed makes its call later, and anything may come in between. A timer may be
delivered at any time after it was set, also when it was told to stop.
-/
namespace Hotload.Debouncer

/-- A debouncer with the calls that are still to be made by timers that passed. -/
structure Race where
  debouncer : Debouncer
  owed : Nat

/-- The timer that was set between two states of a debouncer. -/
def setBetween (d d' : Debouncer) : Option Nat :=
  if d.issued < d'.issued then some d.issued else none

namespace Race

def start (delay : Int) : Race :=
  ⟨.new delay, 0⟩

/-- A trigger that returned is told with the timer that it set, if it set one. -/
inductive Event where
  | trigger (timer : Option Nat)
  | fail
  | cancel
  | deliver (timer : Nat) (passes : Bool)
  | call

/-- What a delivery leaves behind. -/
def deliver (w : Race) (id : Nat) : Race :=
  ⟨(w.debouncer.deliver id).2, w.owed + (w.debouncer.deliver id).1.toNat⟩

inductive Step (w : Race) : Event → Race → Prop where
  | trigger {now : Int} {d : Debouncer} : w.debouncer.arm now = .ok d →
      Step w (.trigger (w.debouncer.setBetween d)) { w with debouncer := d }
  | fail {now : Int} {f : Failure} : w.debouncer.arm now = .error f → Step w .fail w
  | cancel : Step w .cancel { w with debouncer := w.debouncer.cancel }
  | deliver {id : Nat} : id < w.debouncer.issued → Step w (.deliver id (w.debouncer.deliver id).1) (w.deliver id)
  | call {n : Nat} : w.owed = n + 1 → Step w .call { w with owed := n }

/-- The timer that an event sets. -/
def Event.set? : Event → Option Nat
  | .trigger timer => timer
  | _ => none

/-- The timer that passes in an event. -/
def Event.passed? : Event → Option Nat
  | .deliver id true => some id
  | _ => none

def Event.isCall : Event → Bool
  | .call => true
  | _ => false

/-- The timers that were set, in order. -/
def timers (es : List Event) : List Nat :=
  es.filterMap Event.set?

/-- The timers that passed, in order. -/
def passed (es : List Event) : List Nat :=
  es.filterMap Event.passed?

def calls (es : List Event) : Nat :=
  es.countP Event.isCall

/-- A timer that is still to come: the one of the latest trigger, not delivered and not cancelled. -/
structure Awaited (es : List Event) (id : Nat) : Prop where
  latest : (timers es).getLast? = some id
  kept : .cancel ∉ es
  undelivered : ∀ passes, .deliver id passes ∉ es

end Race

end Hotload.Debouncer
