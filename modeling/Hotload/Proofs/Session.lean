import Hotload.Proofs.Action
import Hotload.Proofs.Shelf
import Hotload.StandIn.Platform

/-!
What the steps of a session do to the handle and to the libraries. A load adds an open library to the shelf and leaves
the handle alone; a handle that was just spawned holds the last library on the shelf, which is open.
-/
namespace Hotload

namespace Loader

/-- What a load puts on the shelf fits with what it comes to. -/
def Loading.Fits (x : Loading) (s : Shelf) : Prop :=
  s.AddedTo x.outcome x.shelf

theorem fits_failed {s s' : Shelf} {f : Failure} {es : List Log.Event} (h : s'.libraries = s.libraries) :
    (⟨.error f, s', es⟩ : Loading).Fits s := h

theorem fits_added {s s' : Shelf} {l : Library} {es : List Log.Event} (hl : l.closes = 0)
    (h : s'.libraries = s.libraries) : (⟨.ok (s'.add l).1, (s'.add l).2, es⟩ : Loading).Fits s :=
  ⟨by simp [Shelf.add, Shelf.size, h], l, hl, by simp [Shelf.add, h]⟩

theorem openFile_fits (n : NativeLoader) (d : Files.Disk) (path : Files.Path) (table : TypeTable)
    (copy : Option (Nat × ByteArray)) {s s' : Shelf} (h : s'.libraries = s.libraries) :
    (n.openFile d path table copy s').Fits s := by
  unfold NativeLoader.openFile
  dsimp only
  split
  · exact fits_failed ((Shelf.libraries_removeCopy s' _).trans h)
  · split
    · exact fits_failed h
    · exact fits_added rfl h

theorem native_fits (n : NativeLoader) (d : Files.Disk) (path : Files.Path) (s : Shelf) : (n.load d path s).Fits s := by
  unfold NativeLoader.load
  split
  · exact fits_failed rfl
  · split
    · dsimp only
      split
      · exact fits_failed rfl
      · exact openFile_fits n d path _ _ rfl
    · exact openFile_fits n d path _ _ rfl

theorem load_fits (l : Loader) (d : Files.Disk) (path : Files.Path) (s : Shelf) : (l.load d path s).Fits s := by
  cases l with
  | native n => exact native_fits n d path s
  | given g =>
    unfold load
    dsimp only
    split
    · exact fits_failed rfl
    · exact fits_added rfl rfl

theorem loadOn_eq (l : Loader) (path : Files.Path) (h : Host) :
    (l.loadOn path h).1 = (l.load h.disk path h.shelf).outcome ∧
      (l.loadOn path h).2.shelf = (l.load h.disk path h.shelf).shelf := by
  have hget : (get : Action Host) h = (.ok h, h) := rfl
  have hset (s : Shelf) : (modify fun h => { h with shelf := s } : Action Unit) h = (.ok (), { h with shelf := s }) := rfl
  obtain ⟨h₁, hlog, hs⟩ := Action.forM_log_ok (l.load h.disk path h.shelf).events
    { h with shelf := (l.load h.disk path h.shelf).shelf }
  rw [loadOn, Action.bind_of_ok hget, Action.bind_of_ok (hset _), Action.bind_of_ok hlog, Action.lift_eq, hs]
  exact ⟨rfl, rfl⟩

theorem loadOn_spec (l : Loader) (path : Files.Path) (h : Host) :
    h.shelf.AddedTo (l.loadOn path h).1 (l.loadOn path h).2.shelf := by
  rw [(loadOn_eq l path h).1, (loadOn_eq l path h).2]
  exact l.load_fits h.disk path h.shelf

/-- Loading the library of a path puts it on the shelf, or fails and leaves the libraries as they are. -/
theorem loadFile_spec {l : Loader} {path : Files.Path} {h h' : Host} {r : Outcome LibraryId}
    (hl : l.loadFile path h = (r, h')) : h.shelf.AddedTo r h'.shelf := by
  obtain ⟨f, ha, rfl⟩ | ⟨file, h₁, ha, hl⟩ := Action.bind_cases hl
  · rw [Action.ask_eq] at ha
    obtain ⟨-, rfl⟩ := Prod.mk.inj ha
    rfl
  · rw [Action.ask_eq] at ha
    obtain ⟨-, rfl⟩ := Prod.mk.inj ha
    cases file with
    | false =>
      cases hl
      rfl
    | true =>
      have hspec := l.loadOn_spec path h
      rw [if_pos rfl, Action.bind_of_ok (Action.attempt_eq _ h)] at hl
      rcases hx : l.loadOn path h with ⟨f | id, h₂⟩
      all_goals
        rw [hx] at hl hspec
        cases hl
        exact hspec

/-- A library that was loaded is what the loader made of the path. -/
theorem loadFile_ok {l : Loader} {path : Files.Path} {h h' : Host} {id : LibraryId}
    (hl : l.loadFile path h = (.ok id, h')) :
    (l.load h.disk path h.shelf).outcome = .ok id ∧ h'.shelf = (l.load h.disk path h.shelf).shelf := by
  obtain ⟨file, h₁, ha, hl⟩ := Action.bind_ok hl
  obtain ⟨-, rfl⟩ := Action.ask_ok ha
  cases file with
  | false => cases hl
  | true =>
    have hload := l.loadOn_eq path h₁
    rw [if_pos rfl, Action.bind_of_ok (Action.attempt_eq _ h₁)] at hl
    rcases hx : l.loadOn path h₁ with ⟨f | id', h₂⟩
    · rw [hx] at hl
      cases hl
    · rw [hx] at hl hload
      cases hl
      exact ⟨hload.1.symm, hload.2⟩

theorem loadOn_given {g : GivenLoader} (hg : g.failure = none) (path : Files.Path) (h : Host) :
    (given g).loadOn path h =
      (.ok h.shelf.size, { h with shelf := (h.shelf.add (.new path (.given g.functions) none)).2 }) := by
  have hget : (get : Action Host) h = (.ok h, h) := rfl
  rw [loadOn, Action.bind_of_ok hget]
  simp only [load, hg]
  rfl

theorem loadFile_given {g : GivenLoader} (hg : g.failure = none) {path : Files.Path} {h : Host}
    (hf : h.disk.isFile path = .ok true) :
    (given g).loadFile path h =
      (.ok h.shelf.size, { h with shelf := (h.shelf.add (.new path (.given g.functions) none)).2 }) := by
  have hl : Action.attempt ((given g).loadOn path) h =
      (.ok (.ok h.shelf.size), { h with shelf := (h.shelf.add (.new path (.given g.functions) none)).2 }) := by
    rw [Action.attempt, loadOn_given hg]
  rw [loadFile, Action.bind_of_ok (Action.ask_of_ok hf), if_pos rfl, Action.bind_of_ok hl]
  rfl

end Loader

namespace Session

variable (s : Session)

@[simp] theorem handle_log (e : Log.Event) : (s.log e).handle = s.handle := rfl

@[simp] theorem shelf_log (e : Log.Event) : (s.log e).host.shelf = s.host.shelf := rfl

theorem foldl_log (es : List Log.Event) :
    (es.foldl log s).handle = s.handle ∧ (es.foldl log s).host.shelf = s.host.shelf := by
  induction es generalizing s with
  | nil => exact ⟨rfl, rfl⟩
  | cons e es ih => exact ih (s.log e)

/-- A load does what its loader does. -/
theorem load_eq {s s' : Session} {r : Outcome LibraryId} (h : s.load = (r, s')) :
    s'.handle = s.handle ∧ r = (s.loader.load s.host.disk s.handle.path s.host.shelf).outcome ∧
      s'.host.shelf = (s.loader.load s.host.disk s.handle.path s.host.shelf).shelf := by
  unfold load at h
  cases h
  obtain ⟨hh, hs⟩ := foldl_log
    { s with host := { s.host with shelf := (s.loader.load s.host.disk s.handle.path s.host.shelf).shelf } }
    (s.loader.load s.host.disk s.handle.path s.host.shelf).events
  exact ⟨hh, rfl, hs⟩

/-- A load leaves the handle alone, whatever it comes to. -/
theorem load_spec {s s' : Session} {r : Outcome LibraryId} (h : s.load = (r, s')) :
    s'.handle = s.handle ∧ s.host.shelf.AddedTo r s'.host.shelf := by
  obtain ⟨hh, rfl, hs⟩ := load_eq h
  rw [hs]
  exact ⟨hh, s.loader.load_fits _ _ _⟩

/-- A loader of given functions that does not fail puts them on the shelf. -/
theorem load_given {s : Session} {g : GivenLoader} (hl : s.loader = .given g) (hg : g.failure = none) :
    s.load = (.ok s.host.shelf.size, { s with host := { s.host with shelf :=
      (s.host.shelf.add (.new s.handle.path (.given g.functions) none)).2 } }) := by
  simp only [load, hl, Loader.load, hg]
  rfl

@[simp] theorem handle_abandon (f : Failure) : (s.abandon f).2.handle = s.handle := by
  unfold abandon
  split <;> rfl

@[simp] theorem shelf_abandon (f : Failure) : (s.abandon f).2.host.shelf = s.host.shelf := by
  unfold abandon
  split <;> rfl

@[simp] theorem shelf_swap (fresh : LibraryId) : (s.swap fresh).2.host.shelf = s.host.shelf := rfl

theorem swap_of_open (h : s.handle.closed = false) (fresh : LibraryId) :
    s.swap fresh = (s.handle.active,
      { s with handle := { s.handle with active := fresh, reloads := s.handle.reloads + 1 } }) := by
  simp [swap, Handle.swap_of_open h]

theorem swap_of_closed (h : s.handle.closed = true) (fresh : LibraryId) : s.swap fresh = (fresh, s) := by
  simp [swap, Handle.swap_of_closed h]

@[simp] theorem handle_settle (fresh dropped : LibraryId) : (s.settle fresh dropped).2.handle = s.handle := by
  unfold settle
  dsimp only
  split <;> rfl

@[simp] theorem shelf_settle (fresh dropped : LibraryId) :
    (s.settle fresh dropped).2.host.shelf = s.host.shelf.close dropped := by
  unfold settle
  dsimp only
  split <;> rfl

theorem settle_eq (fresh dropped : LibraryId) : (s.settle fresh dropped).1 = decide (dropped ≠ fresh) := by
  unfold settle
  dsimp only
  split <;> simp [*]

theorem handle_install_of_open (h : s.handle.closed = false) (fresh : LibraryId) :
    (s.install fresh).2.handle = { s.handle with active := fresh, reloads := s.handle.reloads + 1 } := by
  simp [install, s.swap_of_open h]

theorem close_of_closed {s : Session} (h : s.handle.closed = true) : s.close = (.ok (), s) := by
  simp [close, h]

/-- Closing is broken off where the watcher cannot be waited for. -/
theorem close_of_error {s : Session} {f : Failure} (h : s.handle.closed = false) (hf : s.mark.silence = .error f) :
    s.close = (.error f, s.mark) := by
  simp [close, h, hf]

theorem close_of_ok {s s' : Session} (h : s.handle.closed = false) (hs : s.mark.silence = .ok s') :
    s.close = (.ok (), s'.drop s'.handle.active) := by
  simp [close, h, hs]

/-- Stopping the watcher changes nothing but what goes on by itself. -/
theorem silence_ok {s s' : Session} (h : s.silence = .ok s') :
    ∃ lingering, s' = { s with handle := s.handle.still lingering } := by
  obtain ⟨handle, hh, rfl⟩ := Outcome.map_ok h
  rw [Handle.silence] at hh
  split at hh
  · cases hh
    exact ⟨_, rfl⟩
  · obtain ⟨ended, -, rfl⟩ := Outcome.map_ok hh
    exact ⟨_, rfl⟩

/-- Where no watcher is at work, none has to be waited for. -/
theorem silence_of_idle {s : Session} (h : s.handle.watching = false) :
    s.silence = .ok { s with handle := s.handle.still s.handle.lingering } := by
  have hw : s.handle.working? = none := by rw [Handle.working?, h]; rfl
  rw [silence, Handle.silence, hw]
  rfl

/-- The watcher at work is told to stop and waited for. -/
theorem silence_of_working {s : Session} {w : Watcher} (h : s.handle.working? = some w) :
    s.silence = (s.host.platform.join w.patience).map fun ended => { s with handle := s.handle.still !ended } := by
  rw [silence, Handle.silence, h]
  dsimp only
  cases s.host.platform.join w.patience <;> rfl

end Session

namespace Handle

theorem watch_ok {h h' : Handle} {interval : Binary64} {d : Files.Disk} (hw : h.watch interval d = .ok h') :
    h'.active = h.active ∧ h'.reloads = h.reloads ∧ h'.closed = h.closed := by
  unfold watch at hw
  split at hw
  · cases hw
    exact ⟨rfl, rfl, rfl⟩
  · cases hs : Watcher.start d [h.path] interval with
    | error f => rw [hs] at hw; cases hw
    | ok w =>
      rw [hs] at hw
      cases hw
      exact ⟨rfl, rfl, rfl⟩

/-- Spawning a handle is loading its library, as far as libraries go. -/
theorem spawn_load {l : Loader} {path : Files.Path} {delay : Int} {interval : Binary64} {watch : Bool} {h h' : Host}
    {handle : Handle} (hs : spawn l path delay interval watch h = (.ok handle, h')) :
    (∃ h₁, l.loadFile path h = (.ok handle.active, h₁) ∧ h'.shelf = h₁.shelf) ∧ handle.reloads = 0 ∧
      handle.closed = false := by
  obtain ⟨id, h₁, hl, hs⟩ := Action.bind_ok hs
  dsimp only at hs
  cases watch with
  | false =>
    rw [if_neg Bool.false_ne_true] at hs
    obtain ⟨_, _, hw, hs⟩ := Action.bind_ok hs
    cases hw
    obtain ⟨_, _, he, hs⟩ := Action.bind_ok hs
    cases he
    cases hs
    exact ⟨⟨h₁, hl, rfl⟩, rfl, rfl⟩
  | true =>
    rw [if_pos rfl] at hs
    obtain ⟨_, h₂, hw, hg⟩ := Action.bind_ok hs
    obtain ⟨hw, rfl⟩ := Action.ask_ok hw
    obtain ⟨ha, hr, hc⟩ := watch_ok hw
    obtain ⟨_, _, he, hg⟩ := Action.bind_ok hg
    cases he
    cases hg
    exact ⟨⟨h₂, by rw [ha]; exact hl, rfl⟩, hr, hc⟩

theorem spawn_ok {l : Loader} {path : Files.Path} {delay : Int} {interval : Binary64} {watch : Bool} {h h' : Host}
    {handle : Handle} (hs : spawn l path delay interval watch h = (.ok handle, h')) :
    h.shelf.AddedTo (.ok handle.active) h'.shelf ∧ handle.reloads = 0 ∧ handle.closed = false := by
  obtain ⟨⟨h₁, hl, hshelf⟩, hrest⟩ := spawn_load hs
  rw [hshelf]
  exact ⟨Loader.loadFile_spec hl, hrest⟩

/-- On a file, a loader that does not fail has a handle spawned. -/
theorem spawn_given {g : GivenLoader} (hg : g.failure = none) {path : Files.Path} {h : Host}
    (hf : h.disk.isFile path = .ok true) (delay : Int) (interval : Binary64) :
    ∃ h', spawn (.given g) path delay interval false h = (.ok (new path delay h.shelf.size), h') ∧
      h'.shelf = (h.shelf.add (.new path (.given g.functions) none)).2 := by
  rw [spawn, Action.bind_of_ok (Loader.loadFile_given hg hf)]
  exact ⟨_, rfl, rfl⟩

end Handle

/-- A session right after its handle was spawned. -/
inductive Spawned : Session → Prop where
  | of {l : Loader} {path : Files.Path} {delay : Int} {interval : Binary64} {watch : Bool} {h h' : Host}
      {handle : Handle} : Handle.spawn l path delay interval watch h = (.ok handle, h') → Spawned ⟨h', l, handle⟩

/-- What a spawned handle starts with: it is open and holds the library that was loaded last, which is open too. -/
structure Session.Fresh (s : Session) : Prop where
  closed : s.handle.closed = false
  reloads : s.handle.reloads = 0
  size : s.host.shelf.size = s.handle.active + 1
  closes : s.host.shelf.closes s.handle.active = 0

theorem Spawned.fresh {s : Session} (h : Spawned s) : s.Fresh := by
  cases h with
  | of h =>
    obtain ⟨⟨hid, l, hl, hs⟩, hr, hc⟩ := Handle.spawn_ok h
    refine ⟨hc, hr, ?_, ?_⟩
    · simp only [Shelf.size, hs, hid, List.length_append, List.length_singleton]
    · simp [Shelf.closes, Shelf.get?, hs, hid, Shelf.size, hl]

/-- A machine with nothing on it but a library file. -/
def Host.bare : Host where
  disk := ⟨⟨[(["mod.so"], .file .empty 0)]⟩, [], 950⟩
  platform := StandIn.platform "/" fun _ => .ok true
  environment := []
  machine := ⟨"x86_64", "linux"⟩
  clock := 0
  stopped := false
  launches := []
  server := ⟨[], 0, 0, false, none⟩
  waits := none
  ticks := []
  shelf := .empty
  effects := []
  context := []
  records := []
  sink := none
  stdout := ""
  stderr := ""

/-- The path of the library on a bare machine. -/
def Host.libraryPath : Files.Path :=
  ⟨.rooted, ["mod.so"]⟩

theorem Host.isFile_bare : bare.disk.isFile libraryPath = .ok true := by
  have hwalk : bare.disk.tree.walk ⟨true, false⟩ Files.linkLimit (bare.disk.start libraryPath) libraryPath.parts =
      .ok (.found ["mod.so"] (.file .empty 0)) := by
    change Files.Tree.walk _ _ _ [] ["mod.so"] = _
    rw [Files.Tree.walk]
    rfl
  have hlook : bare.disk.look ⟨true, false⟩ libraryPath = .ok (.found ["mod.so"] (.file .empty 0)) := by
    rw [Files.Disk.look, if_neg (by decide), if_neg (by decide), hwalk]
  rw [Files.Disk.isFile, Files.Disk.node?, hlook]
  rfl

/-- Whatever functions are given, there is a session with a handle on them. -/
theorem exists_spawned {g : GivenLoader} (hg : g.failure = none) :
    ∃ s, Spawned s ∧ s.loader = .given g ∧ s.handle = Handle.new Host.libraryPath Delay.standard 0 ∧
      s.host.shelf.libraries = [.new Host.libraryPath (.given g.functions) none] := by
  obtain ⟨h', hs, hshelf⟩ := Handle.spawn_given hg Host.isFile_bare Delay.standard Watcher.standardInterval
  exact ⟨_, .of hs, rfl, rfl, by rw [hshelf]; rfl⟩

end Hotload
