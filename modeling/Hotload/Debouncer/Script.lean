/-!
Scripts for a debouncer in virtual time: triggers, cancels and advances of the clock. Of the triggers those are to be
answered that nothing disturbs for as long as the delay lasts.
-/
namespace Hotload.Debouncer

inductive Cue where
  | trigger
  | cancel
  | advance (millis : Nat)
  deriving DecidableEq

def Cue.millis : Cue → Nat
  | .advance n => n
  | _ => 0

/-- The time to which a script advances the clock. -/
def elapsed : List Cue → Nat
  | [] => 0
  | cue :: cues => cue.millis + elapsed cues

/-- The time at a place of a script. -/
def timeAt (cues : List Cue) (place : Nat) : Nat :=
  elapsed (cues.take place)

/-- A trigger that no cancel comes before. -/
structure Heard (cues : List Cue) (place : Nat) : Prop where
  trigger : cues[place]? = some .trigger
  kept : ∀ j, j < place → cues[j]? ≠ some .cancel

/-- Nothing but advances between two places. -/
def Idle (cues : List Cue) (place stop : Nat) : Prop :=
  ∀ j, place < j → j < stop → ∃ n, cues[j]? = some (.advance n)

/-- A trigger that no cancel comes before and that is followed, until the clock has been advanced by a delay, by no other
trigger and no cancel. -/
structure Undisturbed (delay : Int) (cues : List Cue) (place : Nat) : Prop extends Heard cues place where
  elapses : ∃ stop, place + 1 < stop ∧ Idle cues place stop ∧ timeAt cues place + delay ≤ timeAt cues stop

/-- The calls that a script asks for: those of the undisturbed triggers in order, each one a delay after its trigger. -/
def Answers (delay : Int) (cues : List Cue) (calls : List Int) : Prop :=
  ∃ places : List Nat, places.Pairwise (· < ·) ∧ (∀ i, i ∈ places ↔ Undisturbed delay cues i) ∧
    calls = places.map fun i => timeAt cues i + delay

/-- Two triggers with no trigger between them. -/
structure Successive (cues : List Cue) (place next : Nat) : Prop where
  before : place < next
  trigger : cues[place]? = some .trigger
  other : cues[next]? = some .trigger
  between : ∀ j, place < j → j < next → cues[j]? ≠ some .trigger

/-- A longest run of triggers, from a first to a last one, in which each is less than a delay after the one before it. -/
structure Burst (delay : Int) (cues : List Cue) (first last : Nat) : Prop where
  trigger : cues[first]? = some .trigger
  final : cues[last]? = some .trigger
  order : first ≤ last
  close : ∀ i k, first ≤ i → k ≤ last → Successive cues i k → timeAt cues k < timeAt cues i + delay
  opens : ∀ i, Successive cues i first → timeAt cues i + delay ≤ timeAt cues first
  ends : ∀ k, Successive cues last k → timeAt cues last + delay ≤ timeAt cues k

/-- The clock is advanced to a delay after the trigger at a place, and no cancel comes before that. -/
def Outlived (delay : Int) (cues : List Cue) (place : Nat) : Prop :=
  ∃ j n, place < j ∧ cues[j]? = some (.advance n) ∧ timeAt cues place + delay ≤ timeAt cues (j + 1) ∧
    ∀ k, k < j → cues[k]? ≠ some .cancel

/-- Each timer comes when the clock reaches its time. As timers come when the clock is advanced, one that is due at once
asks for an advance right after its trigger. -/
def Prompt (delay : Int) (cues : List Cue) : Prop :=
  delay ≤ 0 → ∀ i c, cues[i]? = some .trigger → cues[i + 1]? = some c → ∃ n, c = .advance n

end Hotload.Debouncer
