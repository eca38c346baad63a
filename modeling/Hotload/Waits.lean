import Hotload.Binary64.Value
import Hotload.Debouncer
import Hotload.Watcher

/-!
What watching waits for. The timer of a debouncer is given its delay in seconds, a watcher and the loop beside it wait for
the poll interval, and whoever stops a watcher waits four intervals for its thread. A wait takes a finite number of seconds
from zero to the longest one.
-/
namespace Hotload

structure Waits where
  debounce : Outcome Binary64
  interval : Binary64
  join : Binary64

namespace Waits

/-- The most seconds that a wait takes. -/
def longest : ℚ := 9223372036

structure IsTimeout (x : Binary64) : Prop where
  finite : x.isFinite = true
  nonneg : x.isNegative = true → x.isZero = true
  le : x.value ≤ longest

def of (d : Debouncer) (w : Watcher) : Waits :=
  ⟨Delay.seconds d.delay, w.interval, w.patience⟩

/-- All of them can be waited for. -/
structure Fit (w : Waits) : Prop where
  debounce : ∃ t, w.debounce = .ok t ∧ IsTimeout t
  interval : IsTimeout w.interval
  join : IsTimeout w.join

end Waits

end Hotload
