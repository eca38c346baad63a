import Hotload.Proofs.Files.Names
import Hotload.Proofs.Session.Reload

/-!
What spawning a handle comes to. The path is asked about, and only if it is that of a file the library is loaded, once.
Then there is a handle on an open library, with its watcher if that was wanted, or there is neither a library nor a handle.
Failures are launch failures, but for one: the question itself fails if the system finds the path too long.
-/
namespace Hotload

open Files

variable {l : Loader} {path : Path} {delay : Int} {interval : Binary64} {watch : Bool} {h h' h₁ : Host}
  {f : Failure} {id : LibraryId}

namespace Loader

/-- Whether the path is that of a file comes first, and a load is attempted only for a file. -/
theorem loadFile_eq (l : Loader) (path : Path) (h : Host) :
    l.loadFile path h =
      match h.disk.isFile path with
      | .error f => (.error f, h)
      | .ok false => (.error (.noLibraryFile path.toString), h)
      | .ok true => ((l.loadOn path h).1.mapError (reportFailure path), (l.loadOn path h).2) := by
  rw [loadFile, Action.bind_eq, Action.ask_eq]
  cases h.disk.isFile path with
  | error f => rfl
  | ok file =>
    cases file with
    | false => rfl
    | true =>
      dsimp only
      rw [if_pos rfl, Action.bind_eq, Action.attempt_eq]
      rcases l.loadOn path h with ⟨f | id, h₁⟩ <;> rfl

/-- An ordinary failure to load is reported as one to launch. -/
theorem kind_reportFailure (h : f.isOrdinary = true) : (reportFailure path f).kind = .own .launch := by
  unfold reportFailure
  split
  · rename_i hf
    simpa [h] using hf
  · rfl

end Loader

namespace Handle

/-- A handle as it is spawned on a file of some time. -/
def launched (path : Path) (delay : Int) (interval : Binary64) (watch : Bool) (modified : Int) (id : LibraryId) :
    Handle :=
  if watch then attended path delay id interval modified else new path delay id

def spawnedEvent (path : Path) (delay : Int) (watch : Bool) : Log.Event :=
  Log.info Session.logger "runtime_spawned" (Log.extra
    [("library", .path path), ("delay_ms", .int delay), ("watching", .bool watch)])

theorem spawn_of_loaded {k : Location} {content : ByteArray} {t : Int}
    (hk : h.disk.look ⟨true, false⟩ path = .ok (.found k (.file content t))) (hl : l.loadFile path h = (.ok id, h₁)) :
    spawn l path delay interval watch h =
      (.ok (launched path delay interval watch t id), (Action.log (spawnedEvent path delay watch) h₁).2) := by
  have hdisk : h₁.disk = h.disk := by
    have hkeeps := (l.keeps_loadFile path h).1
    rwa [hl] at hkeeps
  rw [← hdisk] at hk
  rw [spawn, Action.bind_of_ok hl]
  cases watch with
  | false => rfl
  | true =>
    dsimp only
    rw [if_pos rfl, Action.bind_of_ok (Action.ask_of_ok (watch_of_look hk))]
    rfl

/-- Spawning is asking whether there is a file, loading it once, and starting the watcher, which cannot fail any more. -/
theorem spawn_eq (l : Loader) (path : Path) (delay : Int) (interval : Binary64) (watch : Bool) (h : Host) :
    (∃ f, h.disk.isFile path = .error f ∧ spawn l path delay interval watch h = (.error f, h)) ∨
      (h.disk.isFile path = .ok false ∧
        spawn l path delay interval watch h = (.error (.noLibraryFile path.toString), h)) ∨
      h.disk.isFile path = .ok true ∧
        ((∃ f h₁, l.loadOn path h = (.error f, h₁) ∧
            spawn l path delay interval watch h = (.error (Loader.reportFailure path f), h₁)) ∨
          ∃ id h₁ t, l.loadOn path h = (.ok id, h₁) ∧ spawn l path delay interval watch h =
            (.ok (launched path delay interval watch t id), (Action.log (spawnedEvent path delay watch) h₁).2)) := by
  have hload := l.loadFile_eq path h
  cases hf : h.disk.isFile path with
  | error f =>
    rw [hf] at hload
    exact .inl ⟨f, rfl, by rw [spawn, Action.bind_of_error hload]⟩
  | ok file =>
    rw [hf] at hload
    cases file with
    | false => exact .inr (.inl ⟨rfl, by rw [spawn, Action.bind_of_error hload]⟩)
    | true =>
      refine .inr (.inr ⟨rfl, ?_⟩)
      rcases hl : l.loadOn path h with ⟨f | id, h₁⟩
      · rw [hl] at hload
        exact .inl ⟨f, h₁, rfl, by rw [spawn, Action.bind_of_error hload]⟩
      · rw [hl] at hload
        obtain ⟨k, content, t, hk⟩ := Disk.isFile_ok hf
        exact .inr ⟨id, h₁, t, rfl, spawn_of_loaded hk hload⟩

/-- What is wanted of spawning: a handle as it was asked for on a library that is open, or a launch failure, with no
library more than before. A watcher and a timer are parts of a handle, so where there is none there are no such either. -/
inductive Launches (path : Path) (delay : Int) (watch : Bool) (h : Host) : Outcome Handle × Host → Prop where
  | handle {handle : Handle} {h' : Host} {library : Library} :
      handle.path = path → handle.delay = delay → handle.watching = watch → handle.reloads = 0 → handle.closed = false →
      h'.shelf.get? handle.active = some library → library.isOpen = true →
      h'.shelf.size = h.shelf.size + 1 → Launches path delay watch h (.ok handle, h')
  | failure {f : Failure} {h' : Host} :
      f.kind = .own .launch → h'.shelf.libraries = h.shelf.libraries → Launches path delay watch h (.error f, h')

theorem launches_of_loaded {t : Int} (hl : l.loadOn path h = (.ok id, h₁)) (e : Log.Event) :
    Launches path delay watch h (.ok (launched path delay interval watch t id), (Action.log e h₁).2) := by
  have hadd := l.loadOn_spec path h
  rw [hl] at hadd
  obtain ⟨rfl, library, hopen, hshelf⟩ := hadd
  dsimp only at hshelf
  have hget : h₁.shelf.get? h.shelf.size = some library := by simp [Shelf.get?, Shelf.size, hshelf]
  have hsize : h₁.shelf.size = h.shelf.size + 1 := by simp [Shelf.size, hshelf]
  have hlibrary : library.isOpen = true := by simp [Library.isOpen, hopen]
  cases watch with
  | false => exact .handle rfl rfl rfl rfl rfl hget hlibrary hsize
  | true => exact .handle rfl rfl rfl rfl rfl hget hlibrary hsize

theorem libraries_of_failed (hl : l.loadOn path h = (.error f, h₁)) : h₁.shelf.libraries = h.shelf.libraries := by
  have hadd := l.loadOn_spec path h
  rwa [hl] at hadd

/-- A path that is too long is no failure of a launch. -/
theorem not_launches_of_long (s : String) (h' : Host) :
    ¬Launches path delay watch h (.error (.system .nameTooLong s), h') := by
  have hkind : (Failure.system .nameTooLong s).kind ≠ .own .launch := nofun
  rintro (_ | ⟨hlaunch, -⟩)
  exact hkind hlaunch

/-- With a loader that only fails in ordinary ways, spawning does what is wanted of it unless the system finds the path too
long to follow; then that failure is all that comes of it. The library is loaded once if there is a file, and else the
loader is not called: nothing has changed. -/
theorem spawn_launches_iff (hl : ∀ f, (l.loadOn path h).1 = .error f → f.isOrdinary = true) :
    (Launches path delay watch h (spawn l path delay interval watch h) ↔ ¬h.disk.Oversized path) ∧
      (h.disk.Oversized path → spawn l path delay interval watch h = (.error (.system .nameTooLong path.toString), h)) ∧
      (h.disk.isFile path ≠ .ok true → (spawn l path delay interval watch h).2 = h) ∧
      (h.disk.isFile path = .ok true → (spawn l path delay interval watch h).2 = (l.loadOn path h).2 ∨
        (spawn l path delay interval watch h).2 =
          (Action.log (spawnedEvent path delay watch) (l.loadOn path h).2).2) := by
  obtain ⟨f, hf, hs⟩ | ⟨hf, hs⟩ | ⟨hf, ⟨f, h₁, hload, hs⟩ | ⟨id, h₁, t, hload, hs⟩⟩ :=
    spawn_eq l path delay interval watch h
  · obtain ⟨hlong, rfl⟩ := Disk.isFile_error_iff.1 hf
    rw [hs]
    refine ⟨⟨fun hlaunches => ?_, fun hno => absurd hlong hno⟩, fun _ => rfl, fun _ => rfl, fun htrue => ?_⟩
    · exact absurd hlaunches (not_launches_of_long _ _)
    · exact absurd (hf.symm.trans htrue) nofun
  · have hshort : ¬h.disk.Oversized path := fun hlong =>
      absurd (hf.symm.trans (Disk.isFile_error_iff.2 ⟨hlong, rfl⟩)) nofun
    rw [hs]
    refine ⟨⟨fun _ => hshort, fun _ => .failure rfl rfl⟩, fun hlong => absurd hlong hshort, fun _ => rfl, fun htrue => ?_⟩
    exact absurd (hf.symm.trans htrue) nofun
  all_goals
    have hshort : ¬h.disk.Oversized path := fun hlong =>
      absurd (hf.symm.trans (Disk.isFile_error_iff.2 ⟨hlong, rfl⟩)) nofun
    rw [hs]
    refine ⟨⟨fun _ => hshort, fun _ => ?_⟩, fun hlong => absurd hlong hshort, fun hno => absurd hf hno, fun _ => ?_⟩
  · exact .failure (Loader.kind_reportFailure (hl f (by rw [hload]))) (libraries_of_failed hload)
  · exact .inl (by rw [hload])
  · exact launches_of_loaded hload _
  · exact .inr (by rw [hload])

/-- A loader that only reports that its file is no library. -/
def failingLoader : Loader :=
  .given ⟨[], some .notJson, false⟩

theorem spawn_launches_failing :
    (∀ f, (failingLoader.loadOn Host.libraryPath .bare).1 = .error f → f.isOrdinary = true) ∧
      Launches Host.libraryPath Delay.standard true .bare
        (spawn failingLoader Host.libraryPath Delay.standard Watcher.standardInterval true .bare) := by
  have hordinary : ∀ f, (failingLoader.loadOn Host.libraryPath .bare).1 = .error f → f.isOrdinary = true := by
    intro f hf
    cases hf
    rfl
  have hshort : ¬Host.bare.disk.Oversized Host.libraryPath := by
    intro hlong
    cases Host.isFile_bare.symm.trans (Disk.isFile_error_iff.2 ⟨hlong, rfl⟩)
  exact ⟨hordinary, (spawn_launches_iff hordinary).1.2 hshort⟩

/-- A library whose name no file can have. -/
def longLibrary : Path :=
  ⟨.relative, [String.ofList (List.replicate 256 'm')]⟩

/-- For such a path there is no launch failure, but that of the system. -/
theorem spawn_launches_fails :
    (spawn failingLoader longLibrary Delay.standard Watcher.standardInterval true .bare).1 =
        .error (.system .nameTooLong longLibrary.toString) ∧
      ¬Launches longLibrary Delay.standard true .bare
        (spawn failingLoader longLibrary Delay.standard Watcher.standardInterval true .bare) := by
  have hlong : Host.bare.disk.Oversized longLibrary := Disk.oversized_of_name (by decide) (by decide) _ _
  have hfile := Disk.isFile_error_iff.2 ⟨hlong, rfl⟩
  have hspawn : spawn failingLoader longLibrary Delay.standard Watcher.standardInterval true .bare =
      (.error (.system .nameTooLong longLibrary.toString), .bare) := by
    have hload := failingLoader.loadFile_eq longLibrary .bare
    rw [hfile] at hload
    rw [spawn, Action.bind_of_error hload]
  rw [hspawn]
  exact ⟨rfl, not_launches_of_long _ _⟩

end Handle

end Hotload
