import Hotload.Proofs.Invocation
import Hotload.Proofs.Session.Run

/-!
What closing makes of a session that was spawned with its watcher. Its handle is on the only library that came with it, and
the call of an entry point changes nothing about that. If the watcher can be waited for, the library is closed and nothing
is watched any more; if it cannot, the handle is marked and no more than that.
-/
namespace Hotload

/-- A handle that is not spawned with its watcher leaves the libraries as they are: once there is a library, all goes well. -/
theorem Handle.spawn_error {l : Loader} {path : Files.Path} {delay : Int} {interval : Binary64} {h h' : Host}
    {f : Failure} (hs : spawn l path delay interval true h = (.error f, h')) : h'.shelf.libraries = h.shelf.libraries := by
  obtain ⟨e, hl, -⟩ | ⟨id, h₁, hl, hs⟩ := Action.bind_cases hs
  · exact Loader.loadFile_spec hl
  · obtain ⟨k, content, t, hk⟩ := Files.Disk.isFile_ok (Loader.isFile_of_loadFile hl)
    have hd := (l.keeps_loadFile path h).1
    rw [hl] at hd
    rw [← hd] at hk
    rw [if_pos rfl, Action.bind_of_ok (Action.ask_of_ok (watch_of_look hk))] at hs
    cases hs

theorem Handle.keeps_spawn (l : Loader) (path : Files.Path) (delay : Int) (interval : Binary64) :
    Action.Keeps (spawn l path delay interval true) :=
  (l.keeps_loadFile path).bind fun _ => (Action.keeps_ask _).bind fun _ =>
    (Action.keeps_log _).bind fun _ => Action.keeps_pure _

namespace Session

variable {s s' : Session} {s₀ : Shelf}

/-- A machine that more was printed on. -/
def print (s : Session) (text : String) : Session :=
  { s with host := { s.host with stdout := s.host.stdout ++ text } }

theorem print_empty (s : Session) : s.print "" = s := by
  rw [print, String.append_empty]

/-- Closing has nothing to do with what was printed. -/
theorem close_print (s : Session) (text : String) : (s.print text).close = (s.close.1, s.close.2.print text) := by
  cases hc : s.handle.closed with
  | true => rw [close_of_closed hc, close_of_closed (s := s.print text) hc]
  | false =>
    have hsilence : (s.print text).mark.silence = s.mark.silence.map (·.print text) := by
      change Except.map _ (s.mark.handle.silence s.mark.host.platform.join) = _
      unfold silence
      cases s.mark.handle.silence s.mark.host.platform.join <;> rfl
    cases hs : s.mark.silence with
    | error f =>
      rw [hs] at hsilence
      rw [close_of_error hc hs, close_of_error (s := s.print text) hc hsilence]
      rfl
    | ok s' =>
      rw [hs] at hsilence
      rw [close_of_ok hc hs, close_of_ok (s := s.print text) hc hsilence]
      rfl

theorem stdout_close (s : Session) : s.close.2.host.stdout = s.host.stdout := by
  cases hc : s.handle.closed with
  | true => rw [close_of_closed hc]
  | false =>
    cases hs : s.mark.silence with
    | error f => rw [close_of_error hc hs]; rfl
    | ok s' =>
      obtain ⟨lingering, rfl⟩ := silence_ok hs
      rw [close_of_ok hc hs]
      rfl

/-- Closed: every library that came since is closed once, the others are as they were, and nothing goes on but a thread
that was not waited for long enough. -/
structure Released (s₀ : Shelf) (s : Session) : Prop where
  since : s₀.Since s.host.shelf s.handle.active
  once : ∀ id, s₀.Since s.host.shelf id → s.host.shelf.closes id = 1
  older : ∀ id < s₀.size, s.host.shelf.closes id = s₀.closes id
  watching : s.handle.watching = false
  pending : s.handle.debouncer.pending = false

/-- Marked, and no more than that: the library is open, and what goes on was not stopped. -/
structure Abandoned (s₀ : Shelf) (s : Session) : Prop where
  marked : s.handle.closed = true
  active : s.handle.active = s₀.size
  since : s₀.Since s.host.shelf s.handle.active
  isOpen : s.host.shelf.closes s.handle.active = 0
  watching : s.handle.watching = true

/-- An open handle on the only library that came since. -/
structure Sole (s₀ : Shelf) (w : Watcher) (s : Session) : Prop where
  working : s.handle.working? = some w
  opened : s.handle.closed = false
  active : s.handle.active = s₀.size
  size : s.host.shelf.size = s₀.size + 1
  closes : ∀ id, s.host.shelf.closes id = s₀.closes id

namespace Sole

variable {w : Watcher}

theorem since (h : Sole s₀ w s) : s₀.Since s.host.shelf s.handle.active := by
  rw [Shelf.Since, h.size, h.active]
  exact ⟨Nat.le_refl _, Nat.lt_succ_self _⟩

theorem isOpen (h : Sole s₀ w s) : s.host.shelf.closes s.handle.active = 0 := by
  rw [h.closes, h.active, Shelf.closes_of_size_le (Nat.le_refl _)]

theorem abandoned_close (h : Sole s₀ w s) {f : Failure} (hj : s.host.platform.join w.patience = .error f) :
    s.close.1 = .error f ∧ Abandoned s₀ s.close.2 := by
  have hsilence : s.mark.silence = .error f := by
    rw [silence_of_working (s := s.mark) (w := w) h.working]
    exact congrArg (Except.map _) hj
  have hwatching : s.handle.watching = true := by
    have hw := h.working
    unfold Handle.working? at hw
    split at hw
    · assumption
    · cases hw
  rw [close_of_error h.opened hsilence]
  exact ⟨rfl, rfl, h.active, h.since, h.isOpen, hwatching⟩

theorem released_close (h : Sole s₀ w s) {ended : Bool} (hj : s.host.platform.join w.patience = .ok ended) :
    s.close.1 = .ok () ∧ Released s₀ s.close.2 ∧ s.close.2.handle.lingering = !ended := by
  have hsilence : s.mark.silence = .ok { s.mark with handle := s.mark.handle.still !ended } := by
    rw [silence_of_working (s := s.mark) (w := w) h.working]
    exact congrArg (Except.map _) hj
  obtain ⟨hle, hlt⟩ := h.since
  have hcloses (id : Nat) := Shelf.closes_close hlt id
  rw [close_of_ok h.opened hsilence]
  have hsize : (s.host.shelf.close s.handle.active).size = s.host.shelf.size := Shelf.size_close _ _
  refine ⟨rfl, ⟨⟨hle, hsize ▸ hlt⟩, fun id hid => ?_, fun id hid => ?_, rfl, rfl⟩, rfl⟩
  · have hlast : id < s₀.size + 1 := h.size ▸ hsize ▸ hid.2
    obtain rfl : id = s.handle.active := (Nat.le_antisymm (Nat.lt_succ_iff.1 hlast) hid.1).trans h.active.symm
    refine (hcloses _).trans ?_
    rw [if_pos rfl, h.isOpen]
  · refine (hcloses id).trans ?_
    rw [if_neg (Nat.ne_of_gt (Nat.lt_of_lt_of_le hid hle)), h.closes, Nat.add_zero]

/-- An invocation leaves all that alone. -/
theorem invoke (h : Sole s₀ w s) (entry : String) : Sole s₀ w (Invocation.invoke entry s).2 := by
  have hh := (invoke_same entry s).1
  obtain ⟨hsize, hcloses⟩ := Invocation.kept_invoke entry s
  exact ⟨hh ▸ h.working, hh ▸ h.opened, hh ▸ h.active, hsize.trans h.size, fun id => (hcloses id).trans (h.closes id)⟩

end Sole

end Session

/-- A handle that is spawned with its watcher at work is one on the only library that came since. -/
theorem Handle.sole_of_spawn {l : Loader} {path : Files.Path} {delay : Int} {interval : Binary64} {h h' : Host}
    {handle : Handle} (hs : spawn l path delay interval true h = (.ok handle, h')) :
    ∃ w : Watcher, w.interval = interval ∧ Session.Sole h.shelf w ⟨h', l, handle⟩ := by
  obtain ⟨hadd, -, hc⟩ := spawn_ok hs
  obtain ⟨hid, hsize⟩ := hadd.size_eq
  obtain ⟨k, content, t, -, hh⟩ := spawn_watching hs
  exact ⟨⟨[path], [(path, t)], interval⟩, rfl, by rw [hh]; rfl, hc, hid, hsize, hadd.closes_eq⟩

end Hotload
