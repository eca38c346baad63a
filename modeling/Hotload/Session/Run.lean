import Hotload.Invocation
import Hotload.Runs

/-!
A session in the course of time. The library file is written anew, the watcher polls, timers expire, the library is
reloaded on demand, functions are looked up and called, and all this in any order. A timer that passes reloads the library
at once. What happens elsewhere on the machine may change everything but the libraries that are loaded and the library
file itself.
-/
namespace Hotload.Session

/-- Delivers a timer. If it passes, the library is reloaded, and what the load came to is known. -/
def expire (s : Session) (id : Nat) : Option (Outcome LibraryId) × Session :=
  match s.handle.debouncer.deliver id with
  | (false, _) => (none, s)
  | (true, d) =>
    let s := { s with handle := { s.handle with debouncer := d } }
    (some s.load.1, s.reload.2)

/-- What the path of the library leads to. -/
def libraryFile (s : Session) : Outcome Files.Landing :=
  s.host.disk.look ⟨true, false⟩ s.handle.path

inductive Event where
  | write (modified : Int)
  | poll (changed : Outcome Bool)
  | notify
  | expire (attempt : Option (Outcome LibraryId))
  | reload (attempt : Outcome LibraryId)
  | lookUp (found : Option Definition)
  | call (result : Outcome Value)
  | invoke (text : Outcome (Option String))
  | elsewhere

inductive Step (s : Session) : Event → Session → Prop where
  | write {d : Files.Disk} {l : Files.Location} {content : ByteArray} {modified : Int} :
      d.look ⟨true, false⟩ s.handle.path = .ok (.found l (.file content modified)) →
      Step s (.write modified) { s with host := { s.host with disk := d } }
  | poll : Step s (.poll s.poll.1) s.poll.2
  | notify : Step s .notify s.notify
  | expire (id : Nat) : Step s (.expire (s.expire id).1) (s.expire id).2
  | reload : Step s (.reload s.load.1) s.reload.2
  | lookUp (name : String) : Step s (.lookUp (s.definition? name)) s
  | call (d : Definition) (as : Option NativeType) : Step s (.call (s.call d as).1) (s.call d as).2
  | invoke (entry : String) : Step s (.invoke (Invocation.invoke entry s).1) (Invocation.invoke entry s).2
  | elsewhere {h : Host} {l : Loader} : h.shelf = s.host.shelf →
      h.disk.look ⟨true, false⟩ s.handle.path = s.libraryFile → Step s .elsewhere { s with host := h, loader := l }

/-- The time of the file that an event writes. -/
def Event.written? : Event → Option Int
  | .write modified => some modified
  | _ => none

/-- What the load came to that an event makes. -/
def Event.attempt? : Event → Option (Outcome LibraryId)
  | .expire attempt => attempt
  | .reload attempt => some attempt
  | _ => none

def Event.isPoll : Event → Bool
  | .poll _ => true
  | _ => false

/-- A poll that saw a change. -/
def Event.isChange : Event → Bool
  | .poll (.ok changed) => changed
  | _ => false

def Event.isNotification : Event → Bool
  | .notify => true
  | _ => false

/-- A load that the debouncer called for. -/
def Event.isDebounced : Event → Bool
  | .expire (some _) => true
  | _ => false

/-- The times of the files that were written, in order. -/
def writes (es : List Event) : List Int :=
  es.filterMap Event.written?

/-- A load among some events failed. -/
def Failed (es : List Event) : Prop :=
  ∃ e ∈ es, ∃ f, e.attempt? = some (.error f)

/-- Some events loaded a library. -/
def Loaded (es : List Event) (id : LibraryId) : Prop :=
  ∃ e ∈ es, e.attempt? = some (.ok id)

end Hotload.Session
