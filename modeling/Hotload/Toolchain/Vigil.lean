import Hotload.Runs
import Hotload.Toolchain.WatchLoop

/-!
The watch loop taken apart. The compiler, the loop, the watcher and the timers take their steps in any order, and the files
change in between, also while the compiler runs. A poll and what follows from a change are two steps, and so are the look
of a timer at whether it is the one that is set and its signal. The loop takes the signal, then it looks for a stop, then
it starts the compiler; it may be interrupted at any time.
-/
namespace Hotload

/-- A path stands for a file of a certain time: it is watched, or it goes on from a watched directory to an entry below,
and it leads to that file. -/
inductive Files.Disk.Shows (d : Disk) (ps : List Path) (modified : Int) : Path → Prop where
  | itself {p : Path} {l : Location} {content : ByteArray} : p ∈ ps →
      d.look ⟨true, false⟩ p = .ok (.found l (.file content modified)) → Shows d ps modified p
  | below {p : Path} {l k : Location} {names : List String} {n : Node} {content : ByteArray} : p ∈ ps →
      d.look ⟨true, false⟩ p = .ok (.found l .directory) → names ≠ [] → d.tree.get? (l ++ names) = some n →
      n ≠ .directory → d.look ⟨true, false⟩ ⟨p.anchor, p.parts ++ names⟩ = .ok (.found k (.file content modified)) →
      Shows d ps modified ⟨p.anchor, p.parts ++ names⟩

namespace Vigil

inductive Phase where
  | waiting
  | woken
  | ready
  | compiling
  | over

inductive Poller where
  | resting
  | noticed
  | gone

/-- The loop, the watcher and the debouncer from the first listing on, with the timers that passed and have not signalled
yet. -/
structure Guard where
  watching : Watching
  phase : Phase
  poller : Poller
  owed : Nat

inductive Event where
  | compiled
  | fail
  | watch
  | wake
  | take
  | compile
  | finish
  | leave
  | poll (changed : Bool)
  | blind
  | notice
  | stall
  | deliver (passes : Bool)
  | signal
  | stop
  | edit (file : Files.Path) (modified : Int)
  | disturb
  | elsewhere

namespace Guard

def start (g : Watching) : Guard :=
  ⟨g, .waiting, .resting, 0⟩

/-- The loop is left: the timer is cancelled. -/
def close (g : Guard) : Guard :=
  { g with phase := .over, watching := { g.watching with debouncer := g.watching.debouncer.cancel } }

/-- Steps that change nothing on the machine. -/
inductive Step (h : Host) (g : Guard) : Event → Guard → Prop where
  | wake : g.phase = .waiting → g.watching.rebuild = true → Step h g .wake { g with phase := .woken }
  | take : g.phase = .woken → Step h g .take { g with phase := .ready, watching := g.watching.takeSignal }
  | compile : g.phase = .ready → h.stopped = false → Step h g .compile { g with phase := .compiling }
  | poll {changed : Bool} {w : Watching} : g.poller = .resting → g.watching.poll h.disk = .ok (changed, w) →
      Step h g (.poll changed) { g with watching := w, poller := if changed then .noticed else .resting }
  | blind {f : Failure} : g.poller = .resting → g.watching.poll h.disk = .error f →
      Step h g .blind { g with poller := .gone }
  | notice {w : Watching} : g.poller = .noticed → g.watching.notice h.clock = .ok w →
      Step h g .notice { g with watching := w, poller := .resting }
  | stall {f : Failure} : g.poller = .noticed → g.watching.notice h.clock = .error f →
      Step h g .stall { g with poller := .gone }
  | deliver (id : Nat) : Step h g (.deliver (g.watching.debouncer.deliver id).1)
      { g with
        watching := { g.watching with debouncer := (g.watching.debouncer.deliver id).2 }
        owed := g.owed + (g.watching.debouncer.deliver id).1.toNat }
  | signal {n : Nat} : g.owed = n + 1 →
      Step h g .signal { g with watching := { g.watching with rebuild := true }, owed := n }

/-- The loop waits, and nothing is under way that would wake it. -/
structure Rests (g : Guard) : Prop where
  waiting : g.phase = .waiting
  unsignalled : g.watching.rebuild = false
  unset : g.watching.debouncer.pending = false
  settled : g.owed = 0
  unnoticed : g.poller ≠ .noticed

end Guard

inductive Stage where
  | first
  | compiled
  | failed
  | guarding (g : Guard)

end Vigil

/-- A watch build with all that the files were so far. -/
structure Vigil where
  host : Host
  stage : Vigil.Stage
  past : List Files.Disk

namespace Vigil

/-- The first compilation was started. -/
def start (h : Host) : Vigil :=
  ⟨h, .first, [h.disk]⟩

def close (w : Vigil) (g : Guard) : Vigil :=
  { w with host := { w.host with stopped := true }, stage := .guarding g.close }

/-- The files are others from now on. -/
def setDisk (w : Vigil) (d : Files.Disk) : Vigil :=
  { w with host := { w.host with disk := d }, past := d :: w.past }

inductive Step (x : External) (manifest : Files.Path) (o : CompileOptions) (w : Vigil) : Event → Vigil → Prop where
  | compiled {content : Bool} {h : Host} : w.stage = .first → x.compile manifest o w.host = (.ok content, h) →
      Step x manifest o w .compiled { w with host := h, stage := .compiled }
  | fail {f : Failure} {h : Host} : w.stage = .first → x.compile manifest o w.host = (.error f, h) →
      Step x manifest o w .fail { w with host := h, stage := .failed }
  | watch {g : Watching} : w.stage = .compiled → Watching.start w.host.disk manifest x.pollInterval x.debounce = .ok g →
      Step x manifest o w .watch { w with stage := .guarding (.start g) }
  | unwatched {f : Failure} : w.stage = .compiled →
      Watching.start w.host.disk manifest x.pollInterval x.debounce = .error f →
      Step x manifest o w .fail { w with stage := .failed }
  | guard {g g' : Guard} {e : Event} : w.stage = .guarding g → Guard.Step w.host g e g' →
      Step x manifest o w e { w with stage := .guarding g' }
  | finish {g : Guard} {h : Host} : w.stage = .guarding g → g.phase = .compiling →
      x.recompile manifest o w.host = (.ok (), h) →
      Step x manifest o w .finish { w with host := h, stage := .guarding { g with phase := .waiting } }
  | crash {g : Guard} {f : Failure} {h : Host} : w.stage = .guarding g → g.phase = .compiling →
      x.recompile manifest o w.host = (.error f, h) → Step x manifest o w .leave ({ w with host := h }.close g)
  | leave {g : Guard} : w.stage = .guarding g → g.phase = .waiting ∨ g.phase = .ready → w.host.stopped = true →
      Step x manifest o w .leave (w.close g)
  | interrupt {g : Guard} : w.stage = .guarding g → g.phase ≠ .over → Step x manifest o w .leave (w.close g)
  | stop : Step x manifest o w .stop { w with host := { w.host with stopped := true } }
  | edit {d : Files.Disk} {q : Files.Path} {modified : Int} : d.Shows (External.watchPaths manifest) modified q →
      (∀ d' ∈ w.past, d'.modified? q ≠ some modified) → Step x manifest o w (.edit q modified) (w.setDisk d)
  | disturb (d : Files.Disk) : Step x manifest o w .disturb (w.setDisk d)
  | elsewhere {h : Host} : h.stopped = w.host.stopped →
      h.disk.snapshot (External.watchPaths manifest) = w.host.disk.snapshot (External.watchPaths manifest) →
      Step x manifest o w .elsewhere { w with host := h, past := h.disk :: w.past }

/-- The loop is idle and no stop was requested. -/
def Idle (w : Vigil) : Prop :=
  w.host.stopped = false ∧ ∃ g, w.stage = .guarding g ∧ g.Rests

/-- An event after which a watched file may have another time. -/
def Event.isChange : Event → Bool
  | .edit _ _ | .disturb => true
  | _ => false

end Vigil

end Hotload
