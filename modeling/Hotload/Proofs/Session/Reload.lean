import Hotload.Proofs.Files.Listing
import Hotload.Proofs.Session
import Hotload.Session.Run

/-!
What a session with a watcher starts with, and what its reloads leave alone. A load keeps the files and the stop request as
they are, and a reload keeps the watcher: of the handle it changes the active library, unless the handle is closed by it.
-/
namespace Hotload

open Files

namespace Loader

theorem keeps_loadOn (l : Loader) (path : Path) : Action.Keeps (l.loadOn path) :=
  Action.keeps_get.bind fun h =>
    Action.Keeps.bind (fun _ => ⟨rfl, rfl, rfl, rfl⟩) fun _ =>
      (Action.keeps_forM_log _).bind fun _ => Action.keeps_lift (l.load h.disk path h.shelf).outcome

theorem keeps_loadFile (l : Loader) (path : Path) : Action.Keeps (l.loadFile path) := by
  refine (Action.keeps_ask _).bind fun file => ?_
  split
  · refine (keeps_loadOn l path).attempt.bind fun r => ?_
    cases r with
    | ok id => exact Action.keeps_pure id
    | error f => exact Action.keeps_throw _
  · exact Action.keeps_throw _

/-- Only a file is loaded. -/
theorem isFile_of_loadFile {l : Loader} {path : Path} {h h' : Host} {id : LibraryId}
    (hl : l.loadFile path h = (.ok id, h')) : h.disk.isFile path = .ok true := by
  obtain ⟨file, h₁, ha, hl⟩ := Action.bind_ok hl
  obtain ⟨hf, -⟩ := Action.ask_ok ha
  cases file with
  | false => cases hl
  | true => exact hf

end Loader

theorem Files.Disk.isFile_ok {d : Disk} {p : Path} (h : d.isFile p = .ok true) :
    ∃ l content t, d.look ⟨true, false⟩ p = .ok (.found l (.file content t)) := by
  unfold isFile node? at h
  split at h
  · rename_i l n hl
    cases n with
    | file content t => exact ⟨l, content, t, hl⟩
    | directory | link => cases h
  · cases h
  · split at h <;> cases h

/-- A new handle with its watcher at work, which has seen the file with a time. -/
def Handle.attended (path : Path) (delay : Int) (id : LibraryId) (interval : Binary64) (t : Int) : Handle :=
  { new path delay id with watcher := some ⟨[path], [(path, t)], interval⟩, watching := true }

theorem Handle.watch_of_look {path : Path} {delay : Int} {id : LibraryId} {interval : Binary64} {d : Disk}
    {k : Location} {content : ByteArray} {t : Int}
    (h : d.look ⟨true, false⟩ path = .ok (.found k (.file content t))) :
    (new path delay id).watch interval d = .ok (attended path delay id interval t) := by
  change (Watcher.start d [path] interval).map _ = _
  rw [Watcher.start, Disk.snapshot_of_look h]
  rfl

/-- A handle that is spawned with its watcher has seen the file as it is. -/
theorem Handle.spawn_watching {l : Loader} {path : Path} {delay : Int} {interval : Binary64} {h h' : Host}
    {handle : Handle} (hs : spawn l path delay interval true h = (.ok handle, h')) :
    ∃ k content t, h'.disk.look ⟨true, false⟩ path = .ok (.found k (.file content t)) ∧
      handle = attended path delay handle.active interval t := by
  obtain ⟨id, h₁, hl, hs⟩ := Action.bind_ok hs
  obtain ⟨k, content, t, hk⟩ := Disk.isFile_ok (Loader.isFile_of_loadFile hl)
  have hd : h₁.disk = h.disk := by
    have hkeeps := (l.keeps_loadFile path h).1
    rwa [hl] at hkeeps
  rw [← hd] at hk
  dsimp only at hs
  rw [if_pos rfl] at hs
  obtain ⟨_, _, ha, hg⟩ := Action.bind_ok hs
  obtain ⟨hw, rfl⟩ := Action.ask_ok ha
  obtain ⟨_, _, he, hg⟩ := Action.bind_ok hg
  cases he
  cases hg
  rw [watch_of_look hk] at hw
  cases hw
  exact ⟨k, content, t, hk, rfl⟩

/-- On a file, a loader that does not fail has a handle spawned with its watcher. -/
theorem Handle.spawn_given_watching {g : GivenLoader} (hg : g.failure = none) {path : Path} {h : Host} {k : Location}
    {content : ByteArray} {t : Int} (hk : h.disk.look ⟨true, false⟩ path = .ok (.found k (.file content t))) (delay : Int)
    (interval : Binary64) :
    ∃ h', spawn (.given g) path delay interval true h = (.ok (attended path delay h.shelf.size interval t), h') ∧
      h'.disk = h.disk ∧ h'.platform = h.platform ∧
      h'.shelf = (h.shelf.add (.new path (.given g.functions) none)).2 := by
  have hf : h.disk.isFile path = .ok true := by
    rw [Disk.isFile, Disk.node?, hk]
    rfl
  rw [spawn, Action.bind_of_ok (Loader.loadFile_given hg hf)]
  dsimp only
  rw [if_pos rfl, Action.bind_of_ok
    (Action.ask_of_ok (h := { h with shelf := (h.shelf.add (.new path (.given g.functions) none)).2 }) (watch_of_look hk))]
  exact ⟨_, rfl, rfl, rfl, rfl⟩

/-- What closing makes of an open handle: it is marked, and then its watcher and its timer are stopped unless that fails. -/
inductive Handle.Shut (h : Handle) : Handle → Prop where
  | marked : Shut h h.mark
  | silenced (lingering : Bool) : Shut h (h.mark.still lingering)

namespace Handle.Shut

variable {h h' : Handle}

theorem closed (hs : Shut h h') : h'.closed = true := by
  cases hs <;> rfl

theorem path_eq (hs : Shut h h') : h'.path = h.path := by
  cases hs <;> rfl

theorem watcher_eq (hs : Shut h h') : h'.watcher = h.watcher := by
  cases hs <;> rfl

theorem pending (hs : Shut h h') (hp : h'.debouncer.pending = true) : h.debouncer.pending = true := by
  cases hs with
  | marked => exact hp
  | silenced => cases hp

end Handle.Shut

namespace Session

variable {s s' : Session}

@[simp] theorem disk_log (s : Session) (e : Log.Event) : (s.log e).host.disk = s.host.disk := rfl

theorem disk_load (s : Session) : s.load.2.host.disk = s.host.disk := by
  have hfold (es : List Log.Event) (s : Session) : (es.foldl log s).host.disk = s.host.disk := by
    induction es generalizing s with
    | nil => rfl
    | cons e es ih => exact ih (s.log e)
  exact hfold _ _

@[simp] theorem disk_abandon (s : Session) (f : Failure) : (s.abandon f).2.host.disk = s.host.disk := by
  unfold abandon
  split <;> rfl

@[simp] theorem disk_install (s : Session) (fresh : LibraryId) : (s.install fresh).2.host.disk = s.host.disk := by
  unfold install settle
  dsimp only
  split <;> rfl

theorem handle_install_of_closed (h : s.handle.closed = true) (fresh : LibraryId) :
    (s.install fresh).2.handle = s.handle := by
  simp [install, s.swap_of_closed h]

theorem reload_of_error {f : Failure} (h : s.load = (.error f, s')) : s.reload = s'.abandon f := by
  rw [reload, h]

theorem reload_of_ok {id : LibraryId} (h : s.load = (.ok id, s')) :
    s.reload.2 = ((if s'.loader.interrupts then s'.close.2 else s').install id).2 := by
  rw [reload, h]

theorem shut_close (h : s.handle.closed = false) : s.handle.Shut s.close.2.handle := by
  cases hs : s.mark.silence with
  | error f =>
    rw [close_of_error h hs]
    exact .marked
  | ok s' =>
    obtain ⟨lingering, rfl⟩ := silence_ok hs
    rw [close_of_ok h hs]
    exact .silenced lingering

@[simp] theorem disk_close (s : Session) : s.close.2.host.disk = s.host.disk := by
  cases h : s.handle.closed with
  | true => rw [close_of_closed h]
  | false =>
    cases hs : s.mark.silence with
    | error f =>
      rw [close_of_error h hs]
      rfl
    | ok s' =>
      obtain ⟨lingering, rfl⟩ := silence_ok hs
      rw [close_of_ok h hs]
      rfl

/-- A reload leaves the handle as it is, or it has a library that was loaded taken in, or the handle was closed by then. -/
theorem reload_cases (s : Session) :
    s.reload.2.host.disk = s.host.disk ∧
      (s.reload.2.handle = s.handle ∧ (s.handle.closed = true ∨ ∃ f, s.load.1 = .error f) ∨
        (∃ id, s.load.1 = .ok id ∧
          s.reload.2.handle = { s.handle with active := id, reloads := s.handle.reloads + 1 }) ∨
        s.handle.Shut s.reload.2.handle) := by
  have hdisk := s.disk_load
  rcases hl : s.load with ⟨r, s₁⟩
  obtain ⟨hh, -⟩ := load_spec hl
  rw [hl] at hdisk
  dsimp only at hdisk
  cases r with
  | error f =>
    rw [reload_of_error hl]
    exact ⟨by simp [hdisk], .inl ⟨by simp [hh], .inr ⟨f, rfl⟩⟩⟩
  | ok id =>
    rw [reload_of_ok hl]
    generalize hu : (if s₁.loader.interrupts = true then s₁.close.2 else s₁) = u
    have hud : u.host.disk = s.host.disk := by
      rw [← hu, ← hdisk]
      split
      · exact disk_close s₁
      · rfl
    have huh : u.handle = s.handle ∨ s.handle.Shut u.handle := by
      rw [← hu, ← hh]
      split
      · cases hc : s₁.handle.closed with
        | true => exact .inl (by rw [close_of_closed hc])
        | false => exact .inr (shut_close hc)
      · exact .inl rfl
    refine ⟨by simp [hud], ?_⟩
    obtain huh | huh := huh
    · cases hc : s.handle.closed with
      | true => exact .inl ⟨(handle_install_of_closed (by rw [huh, hc]) id).trans huh, .inl rfl⟩
      | false =>
        refine .inr (.inl ⟨id, rfl, ?_⟩)
        rw [handle_install_of_open u (by rw [huh, hc]), huh]
    · rw [handle_install_of_closed huh.closed]
      exact .inr (.inr huh)

end Session

end Hotload
