import Hotload.Proofs.Debouncer.Race
import Hotload.Proofs.Files.Write
import Hotload.Proofs.Session.Reload

/-!
No rebuild is lost. Once the library file was written and the watcher has polled, either a timer is pending or the library
was loaded since, unless a load failed: the watcher has seen the last write, and what it saw last is behind a pending timer
or a load. And the debouncer calls for no more loads than there were changes and notifications.
-/
namespace Hotload.Session

open Files

variable {s s' v : Session} {e : Event} {es xs ys : List Event}

/-- What is known of the watcher of a session: it watches the library, what it has seen of it last, and what there is. -/
structure Watches (s : Session) (path : Path) (seen now : Int) : Prop where
  library : s.handle.path = path
  watcher : ∃ interval, s.handle.watcher = some ⟨[path], [(path, seen)], interval⟩
  file : ∃ l content, s.libraryFile = .ok (.found l (.file content now))

variable {path : Path} {seen now : Int}

theorem poll_of_watches (h : s.Watches path seen now) :
    ∃ interval, s.poll = if now = seen then (.ok false, s)
      else (.ok true, (log { s with handle := { s.handle with watcher := some ⟨[path], [(path, now)], interval⟩ } }
        (Watcher.changeEvent ⟨[path], [(path, now)], interval⟩)).notify) := by
  obtain ⟨interval, hw⟩ := h.watcher
  refine ⟨interval, ?_⟩
  obtain ⟨l, content, hf⟩ := h.file
  rw [libraryFile, h.library] at hf
  have hs : s.host.disk.snapshot [path] = .ok [(path, now)] := Disk.snapshot_of_look hf
  unfold poll
  rw [hw]
  dsimp only [Watcher.poll]
  rw [hs]
  by_cases hn : now = seen
  · subst hn
    simp [Except.map]
  · simp [Except.map, hn]

theorem Watches.congr (h : s.Watches path seen now) (hp : s'.handle.path = s.handle.path)
    (hw : s'.handle.watcher = s.handle.watcher) (hd : s'.host.disk = s.host.disk) : s'.Watches path seen now where
  library := hp.trans h.library
  watcher := hw ▸ h.watcher
  file := by rw [libraryFile, hp, hd]; exact h.file

/-- A timer passes and the library is reloaded, or nothing happens. -/
theorem expire_cases (s : Session) (id : Nat) :
    (s.handle.debouncer.closed = true ∨ s.handle.debouncer.isCurrent id = false) ∧ s.expire id = (none, s) ∨
      s.handle.debouncer.pending = true ∧
        ∃ u : Session, u.handle = { s.handle with debouncer := { s.handle.debouncer with timer := none } } ∧
          u.host = s.host ∧ u.loader = s.loader ∧ s.expire id = (some u.load.1, u.reload.2) := by
  unfold expire
  obtain ⟨-, hi, hd⟩ | ⟨hr, hd⟩ := s.handle.debouncer.deliver_cases id
  · rw [hd]
    exact .inr ⟨Debouncer.pending_iff.2 ⟨id, hi⟩,
      { s with handle := { s.handle with debouncer := { s.handle.debouncer with timer := none } } }, rfl, rfl, rfl, rfl⟩
  · rw [hd]
    exact .inl ⟨hr, rfl⟩

theorem invoke_same (entry : String) (s : Session) :
    (Invocation.invoke entry s).2.handle = s.handle ∧ (Invocation.invoke entry s).2.host.disk = s.host.disk := by
  unfold Invocation.invoke
  split
  · exact ⟨rfl, rfl⟩
  · unfold Invocation.callAs Invocation.report
    dsimp only
    split <;> exact ⟨rfl, rfl⟩

theorem reload_watches (h : s.Watches path seen now) : s.reload.2.Watches path seen now := by
  obtain ⟨hd, ⟨hh, -⟩ | ⟨id, -, hh⟩ | hh⟩ := s.reload_cases
  · exact h.congr (by rw [hh]) (by rw [hh]) hd
  · exact h.congr (by rw [hh]) (by rw [hh]) hd
  · exact h.congr hh.path_eq hh.watcher_eq hd

/-- Each poll sees the last write. -/
theorem Watches.step (h : s.Watches path seen now) (hs : Step s e s') :
    s'.Watches path (if e.isPoll then now else seen) (e.written?.getD now) := by
  cases hs with
  | write hl => exact ⟨h.library, h.watcher, _, _, hl⟩
  | poll =>
    obtain ⟨interval, hpoll⟩ := poll_of_watches h
    rw [hpoll]
    split
    · rename_i hn
      exact hn ▸ h
    · exact ⟨h.library, ⟨interval, rfl⟩, h.file⟩
  | notify => exact h.congr rfl rfl rfl
  | expire id =>
    obtain ⟨-, he⟩ | ⟨-, u, hu, hh, -, he⟩ := s.expire_cases id
    · rw [he]
      exact h
    · rw [he]
      exact reload_watches (h.congr (by rw [hu]) (by rw [hu]) (by rw [hh]))
  | reload => exact reload_watches h
  | lookUp => exact h
  | call => exact h.congr rfl rfl rfl
  | invoke entry =>
    obtain ⟨hh, hd⟩ := invoke_same entry s
    exact h.congr (by rw [hh]) (by rw [hh]) hd
  | elsewhere _ hf =>
    obtain ⟨l, content, hl⟩ := h.file
    exact ⟨h.library, h.watcher, l, content, hf.trans hl⟩

/-- The debouncer of an open handle takes triggers. -/
def Live (s : Session) : Prop :=
  s.handle.closed = false → s.handle.debouncer.closed = false

theorem reload_live (h : s.Live) : s.reload.2.Live := by
  obtain ⟨-, ⟨hh, -⟩ | ⟨id, -, hh⟩ | hh⟩ := s.reload_cases
  · rwa [Live, hh]
  · rwa [Live, hh]
  · exact fun ho => absurd (hh.closed.symm.trans ho) nofun

theorem closed_trigger (d : Debouncer) (now : Int) : (d.trigger now).closed = d.closed := by
  unfold Debouncer.trigger
  split <;> rfl

theorem poll_cases (s : Session) :
    (∃ r, s.poll = (r, s) ∧ r ≠ .ok true) ∨
      ∃ w, s.poll = (.ok true, (log { s with handle := { s.handle with watcher := some w } } w.changeEvent).notify) := by
  unfold poll
  split
  · exact .inl ⟨_, rfl, nofun⟩
  · split
    · exact .inl ⟨_, rfl, nofun⟩
    · exact .inl ⟨_, rfl, nofun⟩
    · exact .inr ⟨_, rfl⟩

theorem Live.step (h : s.Live) (hs : Step s e s') : s'.Live := by
  cases hs with
  | write | lookUp | call | elsewhere => exact h
  | notify => exact fun ho => (closed_trigger _ _).trans (h ho)
  | poll =>
    obtain ⟨r, hr, -⟩ | ⟨w, hw⟩ := s.poll_cases
    · rwa [hr]
    · rw [hw]
      exact fun ho => (closed_trigger _ _).trans (h ho)
  | expire id =>
    obtain ⟨-, he⟩ | ⟨-, u, hu, -, -, he⟩ := s.expire_cases id
    · rwa [he]
    · rw [he]
      exact reload_live (by rw [Live, hu]; exact h)
  | reload => exact reload_live h
  | invoke entry =>
    rw [Live, (invoke_same entry s).1]
    exact h

/-- A reload sets no timer. -/
theorem reload_pending (h : s.reload.2.handle.debouncer.pending = true) : s.handle.debouncer.pending = true := by
  obtain ⟨-, ⟨hh, -⟩ | ⟨id, -, hh⟩ | hh⟩ := s.reload_cases
  · rwa [hh] at h
  · rw [hh] at h
    exact h
  · exact hh.pending h

/-- Each load that the debouncer calls for takes a timer away, and only changes and notifications set one. -/
theorem Step.pending_le (hs : Step s e s') :
    e.isDebounced.toNat + s'.handle.debouncer.pending.toNat ≤
      s.handle.debouncer.pending.toNat + e.isChange.toNat + e.isNotification.toNat := by
  have hsame (hd : e.isDebounced = false) (hp : s'.handle.debouncer.pending = true → s.handle.debouncer.pending = true) :
      e.isDebounced.toNat + s'.handle.debouncer.pending.toNat ≤
        s.handle.debouncer.pending.toNat + e.isChange.toNat + e.isNotification.toNat := by
    have hle : s'.handle.debouncer.pending.toNat ≤ s.handle.debouncer.pending.toNat := by
      cases hp' : s'.handle.debouncer.pending with
      | false => exact Nat.zero_le _
      | true => exact Nat.le_of_eq (by rw [hp hp'])
    rw [hd, Bool.toNat_false]
    omega
  have hone := Bool.toNat_le s'.handle.debouncer.pending
  cases hs with
  | write | lookUp | call | elsewhere => exact hsame rfl fun hp => hp
  | notify =>
    simp only [Event.isDebounced, Event.isChange, Event.isNotification, Bool.toNat_false, Bool.toNat_true]
    omega
  | poll =>
    obtain ⟨r, hr, hn⟩ | ⟨w, hw⟩ := s.poll_cases
    · exact hsame rfl fun hp => by rwa [hr] at hp
    · have hc : Event.isChange (.poll s.poll.1) = true := by rw [hw]; rfl
      rw [hc]
      simp only [Event.isDebounced, Bool.toNat_false, Bool.toNat_true]
      omega
  | expire id =>
    obtain ⟨-, he⟩ | ⟨hp, u, hu, -, -, he⟩ := s.expire_cases id
    · exact hsame (by rw [he]; rfl) fun hp => by rwa [he] at hp
    · have hnone : u.reload.2.handle.debouncer.pending = false :=
        Bool.eq_false_iff.2 fun hr => absurd (reload_pending hr) (by rw [hu]; nofun)
      rw [he, hp, hnone]
      simp only [Event.isDebounced, Bool.toNat_false, Bool.toNat_true]
      omega
  | reload => exact hsame rfl reload_pending
  | invoke entry => exact hsame rfl fun hp => by rwa [(invoke_same entry s).1] at hp

theorem debounced_le (h : Runs Step s es v) :
    es.countP Event.isDebounced + v.handle.debouncer.pending.toNat ≤
      s.handle.debouncer.pending.toNat + es.countP Event.isChange + es.countP Event.isNotification := by
  induction h with
  | none => simp
  | @more es e u v _ hs ih =>
    have := hs.pending_le
    have hcount (p : Event → Bool) : (es ++ [e]).countP p = es.countP p + (p e).toNat := by
      rw [List.countP_append, List.countP_singleton]
      cases p e <;> rfl
    simp only [hcount]
    omega

theorem reload_open (h : s.reload.2.handle.closed = false) : s.handle.closed = false := by
  obtain ⟨-, ⟨hh, -⟩ | ⟨id, -, hh⟩ | hh⟩ := s.reload_cases
  · rwa [hh] at h
  · rw [hh] at h
    exact h
  · exact absurd (hh.closed.symm.trans h) nofun

/-- A handle that is closed stays so. -/
theorem Step.open (hs : Step s e s') (ho : s'.handle.closed = false) : s.handle.closed = false := by
  cases hs with
  | write | lookUp | call | elsewhere | notify => exact ho
  | poll =>
    obtain ⟨r, hr, -⟩ | ⟨w, hw⟩ := s.poll_cases
    · rwa [hr] at ho
    · rw [hw] at ho
      exact ho
  | expire id =>
    obtain ⟨-, he⟩ | ⟨-, u, hu, -, -, he⟩ := s.expire_cases id
    · rwa [he] at ho
    · rw [he] at ho
      have hopen := reload_open ho
      rwa [hu] at hopen
  | reload => exact reload_open ho
  | invoke entry => rwa [(invoke_same entry s).1] at ho

/-- A reload of a handle that is open afterwards: its load failed, or it loaded what is active now. -/
theorem reload_of_open (ho : s.reload.2.handle.closed = false) :
    (∃ f, s.load.1 = .error f) ∨ s.load.1 = .ok s.reload.2.handle.active := by
  obtain ⟨-, ⟨hh, hc | hf⟩ | ⟨id, hl, hh⟩ | hh⟩ := s.reload_cases
  · rw [hh, hc] at ho
    cases ho
  · exact .inl hf
  · exact .inr (by rw [hl, hh])
  · exact absurd (hh.closed.symm.trans ho) nofun

theorem pending_trigger_of_live (hl : s.Live) (ho : s.handle.closed = false) (now : Int) :
    (s.handle.debouncer.trigger now).pending = true :=
  Debouncer.pending_trigger _ _ (hl ho)

/-- What a step does to an open handle: it attempts a load, which fails or gives the active library, or else the active
library and the pending timer stay; and a poll that sees a change sets a timer. -/
theorem Step.cases_of_open (hw : s.Watches path seen now) (hl : s.Live) (hs : Step s e s')
    (ho : s'.handle.closed = false) :
    (∃ f, e.attempt? = some (.error f)) ∨ e.attempt? = some (.ok s'.handle.active) ∨
      s'.handle.active = s.handle.active ∧
        (s.handle.debouncer.pending = true → s'.handle.debouncer.pending = true) ∧
        (e.isPoll = true → now ≠ seen → s'.handle.debouncer.pending = true) := by
  have hopen := hs.open ho
  cases hs with
  | write | lookUp | call | elsewhere => exact .inr (.inr ⟨rfl, fun hp => hp, nofun⟩)
  | notify =>
    have hp := pending_trigger_of_live hl hopen s.host.clock
    exact .inr (.inr ⟨rfl, fun _ => hp, nofun⟩)
  | poll =>
    obtain ⟨interval, hpoll⟩ := poll_of_watches hw
    rw [hpoll]
    split
    · rename_i hn
      exact .inr (.inr ⟨rfl, fun hp => hp, fun _ hne => absurd hn hne⟩)
    · have hp := pending_trigger_of_live hl hopen s.host.clock
      exact .inr (.inr ⟨rfl, fun _ => hp, fun _ _ => hp⟩)
  | expire id =>
    obtain ⟨-, he⟩ | ⟨-, u, -, -, -, he⟩ := s.expire_cases id
    · rw [he]
      exact .inr (.inr ⟨rfl, fun hp => hp, nofun⟩)
    · rw [he] at ho ⊢
      obtain ⟨f, hf⟩ | hf := reload_of_open ho
      · exact .inl ⟨f, congrArg some hf⟩
      · exact .inr (.inl (congrArg some hf))
  | reload =>
    obtain ⟨f, hf⟩ | hf := reload_of_open ho
    · exact .inl ⟨f, congrArg some hf⟩
    · exact .inr (.inl (congrArg some hf))
  | invoke entry =>
    rw [(invoke_same entry s).1]
    exact .inr (.inr ⟨rfl, fun hp => hp, nofun⟩)

/-- What holds from a write on, by the events since: if the watcher has seen the file as it was written, then a timer is
pending or a load was made, and each poll sees it. -/
structure Answers (ys : List Event) (t : Int) (path : Path) (v : Session) : Prop where
  live : v.Live
  watches : ∃ seen, v.Watches path seen t ∧ ((∃ e ∈ ys, e.isPoll = true) → seen = t) ∧
    (seen = t → v.handle.debouncer.pending = true ∨ Failed ys ∨ Loaded ys v.handle.active)

theorem Failed.concat (h : Failed ys) (e : Event) : Failed (ys ++ [e]) :=
  let ⟨e', he, hf⟩ := h
  ⟨e', List.mem_append_left _ he, hf⟩

theorem Loaded.concat {id : LibraryId} (h : Loaded ys id) (e : Event) : Loaded (ys ++ [e]) id :=
  let ⟨e', he, hl⟩ := h
  ⟨e', List.mem_append_left _ he, hl⟩

theorem Answers.step {t : Int} (h : Answers ys t path s) (hs : Step s e s') (he : e.written? = none)
    (ho : s'.handle.closed = false) : Answers (ys ++ [e]) t path s' := by
  obtain ⟨hl, seen, hw, hpolled, hanswer⟩ := h
  have hw' := hw.step hs
  rw [he, Option.getD_none] at hw'
  refine ⟨hl.step hs, _, hw', fun ⟨e', hm, hp⟩ => ?_, fun hseen => ?_⟩
  · split
    · rfl
    · rename_i hno
      obtain hm | hm := List.mem_append.1 hm
      · exact hpolled ⟨e', hm, hp⟩
      · rw [List.mem_singleton.1 hm] at hp
        exact absurd hp hno
  · have hmem : e ∈ ys ++ [e] := List.mem_append_right _ (List.mem_singleton_self e)
    obtain ⟨f, hf⟩ | hf | ⟨ha, hkeep, hset⟩ := hs.cases_of_open hw hl ho
    · exact .inr (.inl ⟨e, hmem, f, hf⟩)
    · exact .inr (.inr ⟨e, hmem, hf⟩)
    · by_cases hn : t = seen
      · obtain hp | hf | hld := hanswer hn.symm
        · exact .inl (hkeep hp)
        · exact .inr (.inl (hf.concat e))
        · rw [ha]
          exact .inr (.inr (hld.concat e))
      · split at hseen
        · rename_i hp
          exact .inl (hset hp hn)
        · exact absurd hseen.symm hn

theorem writes_append (xs ys : List Event) : writes (xs ++ ys) = writes xs ++ writes ys :=
  List.filterMap_append

theorem Watches.run {t : Int} (h : s.Watches path t t) (hr : Runs Step s es v) :
    ∃ seen now, v.Watches path seen now ∧ seen ∈ t :: writes es ∧ now ∈ t :: writes es := by
  induction hr with
  | none => exact ⟨t, t, h, List.mem_cons_self, List.mem_cons_self⟩
  | @more es e u v _ hs ih =>
    obtain ⟨seen, now, hw, hseen, hnow⟩ := ih
    have hmono {x : Int} (hx : x ∈ t :: writes es) : x ∈ t :: writes (es ++ [e]) := by
      rw [writes_append, ← List.cons_append]
      exact List.mem_append_left _ hx
    refine ⟨_, _, hw.step hs, ?_, ?_⟩
    · split
      · exact hmono hnow
      · exact hmono hseen
    · cases he : e.written? with
      | none => exact hmono hnow
      | some x =>
        rw [writes_append]
        simp [writes, he]

theorem Live.run (h : s.Live) (hr : Runs Step s es v) : v.Live := by
  induction hr with
  | none => exact h
  | more _ hs ih => exact ih.step hs

theorem Answers.run {t : Int} (h : Answers [] t path s) (hr : Runs Step s ys v) (hy : writes ys = [])
    (ho : v.handle.closed = false) : Answers ys t path v := by
  induction hr with
  | none => exact h
  | @more ys e u v _ hs ih =>
    rw [writes_append] at hy
    obtain ⟨hy, he⟩ := List.append_eq_nil_iff.1 hy
    refine (ih hy (hs.open ho)).step hs ?_ ho
    cases hw : e.written? with
    | none => rfl
    | some x => simp [writes, hw] at he

theorem step_of_writeFile {content : ByteArray} {t : Int} {d : Disk}
    (h : s.host.disk.writeFile s.handle.path content t = .ok d) :
    Step s (.write t) { s with host := { s.host with disk := d } } :=
  let ⟨_, hl⟩ := Disk.look_writeFile h
  .write hl

theorem step_of_poll {r : Outcome Bool} (h : s.poll = (r, s')) : Step s (.poll r) s' := by
  have hs : Step s _ _ := .poll
  rwa [h] at hs

theorem step_of_expire {id : Nat} {r : Option (Outcome LibraryId)} (h : s.expire id = (r, s')) :
    Step s (.expire r) s' := by
  have hs : Step s _ _ := .expire id
  rwa [h] at hs

theorem step_setClock (s : Session) (time : Int) : Step s .elsewhere (s.setClock time) :=
  .elsewhere (l := s.loader) rfl rfl

/-- A session at a time at which its timer has passed. -/
def silent (s : Session) (time : Int) : Session :=
  { s.setClock time with handle := { s.handle with debouncer := { s.handle.debouncer with timer := none } } }

/-- Time passes as in a run: nothing happens but that a timer that is due by then is delivered at its time. -/
theorem run_advance (s : Session) (millis : Int) :
    ∃ es, Runs Step s es (s.advance millis).2 ∧ ∀ e ∈ es, e = .elsewhere ∨ ∃ r, e = .expire r := by
  obtain h | ⟨t, hd, h⟩ := s.handle.debouncer.advance_cases (s.host.clock + millis)
  · have hs : (s.advance millis).2 = s.setClock (s.host.clock + millis) := by
      unfold advance
      dsimp only
      rw [h]
    rw [hs]
    exact ⟨_, .one (s.step_setClock _), by simp⟩
  · -- The timer passes at its own time, and the clock goes on from there.
    have he : (s.setClock t.due).expire t.id = (some (s.silent t.due).load.1, (s.silent t.due).reload.2) := by
      unfold expire
      rw [show (s.setClock t.due).handle.debouncer.deliver t.id = _ from hd]
      rfl
    have hr := (Runs.one (s.step_setClock t.due)).more (step_of_expire he)
    have ha : (s.advance millis).2 = (s.silent t.due).reload.2 ∨
        (s.advance millis).2 = (s.silent t.due).reload.2.setClock (s.host.clock + millis) := by
      unfold advance
      dsimp only
      rw [h]
      rcases hs : (s.silent t.due).reload with ⟨r, u⟩
      rw [silent, setClock] at hs
      dsimp only [setClock]
      rw [hs]
      cases r with
      | ok _ => exact .inr rfl
      | error f => exact .inl rfl
    obtain ha | ha := ha
    · rw [ha]
      exact ⟨_, hr, by simp⟩
    · rw [ha]
      exact ⟨_, hr.more (step_setClock _ _), by simp⟩

theorem reload_given {g : GivenLoader} (hl : s.loader = .given g) (hg : g.failure = none) (hi : g.interrupted = false)
    (ho : s.handle.closed = false) :
    s.load.1 = .ok s.host.shelf.size ∧ s.reload.2.handle =
      { s.handle with active := s.host.shelf.size, reloads := s.handle.reloads + 1 } := by
  have hload := load_given hl hg
  refine ⟨by rw [hload], ?_⟩
  rw [reload_of_ok hload, if_neg (by simp [hl, Loader.interrupts, hi])]
  rw [handle_install_of_open _ (by exact ho)]

theorem poll_of_change (h : s.Watches path seen now) (hn : now ≠ seen) :
    ∃ s', s.poll = (.ok true, s') ∧ s'.host.shelf = s.host.shelf ∧ s'.loader = s.loader ∧
      s'.handle.closed = s.handle.closed ∧ s'.handle.debouncer = s.handle.debouncer.trigger s.host.clock := by
  obtain ⟨interval, hpoll⟩ := poll_of_watches h
  rw [hpoll, if_neg hn]
  exact ⟨_, rfl, rfl, rfl, rfl, rfl⟩

/-- A write that is seen by a poll is loaded when the timer expires, if the loader does not fail. -/
theorem run_rebuild {g : GivenLoader} (hw : s.Watches path seen now) (hl : s.Live) (ho : s.handle.closed = false)
    (hg : s.loader = .given g) (hf : g.failure = none) (hi : g.interrupted = false) {content : ByteArray} {t : Int}
    {d : Disk} (hwrite : s.host.disk.writeFile s.handle.path content t = .ok d) (ht : t ≠ seen) :
    ∃ v, Runs Step s [.write t, .poll (.ok true), .expire (some (.ok s.host.shelf.size))] v ∧
      v.handle.closed = false ∧ v.handle.debouncer.pending = false := by
  have h₁ := step_of_writeFile hwrite
  obtain ⟨s₂, hpoll, hshelf, hloader, hclosed, hd⟩ := poll_of_change (hw.step h₁) ht
  have h₂ := step_of_poll hpoll
  have hcurrent : s₂.handle.debouncer.closed = false ∧ s₂.handle.debouncer.isCurrent s.handle.debouncer.issued = true := by
    rw [hd]
    simp [Debouncer.trigger, hl ho, Debouncer.isCurrent]
  obtain ⟨hno, -⟩ | ⟨-, u, hu, hhost, huloader, he⟩ := s₂.expire_cases s.handle.debouncer.issued
  · obtain hno | hno := hno
    · rw [hcurrent.1] at hno
      cases hno
    · rw [hcurrent.2] at hno
      cases hno
  · obtain ⟨hload, hreload⟩ := reload_given (huloader.trans (hloader.trans hg)) hf hi (by rw [hu]; exact hclosed.trans ho)
    have h₃ := step_of_expire he
    rw [hload, hhost, hshelf] at h₃
    refine ⟨_, ((Runs.one h₁).more h₂).more h₃, ?_, ?_⟩
    · rw [hreload, hu]
      exact hclosed.trans ho
    · rw [hreload, hu]
      rfl

theorem look_bare : Host.bare.disk.look ⟨true, false⟩ Host.libraryPath = .ok (.found ["mod.so"] (.file .empty 0)) :=
  Disk.look_eq_ok.2 ⟨by decide, by decide, .file ⟨by decide, by decide, by decide, by decide⟩ rfl⟩

/-- On an open handle that watches its library, once there was a poll after the last write and no timer is pending, the
library was loaded after that write, unless a load since then failed. The debouncer has attempted no more loads than there
were polls that saw a change and notifications. -/
theorem reloaded_after_write {l : Loader} {delay : Int} {interval : Binary64} {h h' : Host} {handle : Handle}
    (hs : Handle.spawn l path delay interval true h = (.ok handle, h')) (hr : Runs Step ⟨h', l, handle⟩ es v)
    (ho : v.handle.closed = false) (hn : ((h'.disk.modified? path).toList ++ writes es).Nodup) :
    (∀ xs t ys, es = xs ++ .write t :: ys → writes ys = [] → (∃ e ∈ ys, e.isPoll = true) →
      v.handle.debouncer.pending = false → ¬Failed ys → Loaded ys v.handle.active) ∧
      es.countP Event.isDebounced ≤ es.countP Event.isChange + es.countP Event.isNotification := by
  obtain ⟨k, content, t₀, hk, hh⟩ := Handle.spawn_watching hs
  have hlive : Live ⟨h', l, handle⟩ := by
    rw [Live, hh]
    exact fun _ => rfl
  have hwatch : Watches ⟨h', l, handle⟩ path t₀ t₀ := by
    refine ⟨by rw [hh]; rfl, ⟨interval, by rw [hh]; rfl⟩, k, content, ?_⟩
    rw [libraryFile, hh]
    exact hk
  rw [Disk.modified?_of_look hk] at hn
  refine ⟨fun xs t ys hes hy hpoll hpending hfailed => ?_, ?_⟩
  · subst hes
    obtain ⟨u, w, hx, hwrite, hrest⟩ := hr.split
    obtain ⟨seen, now, hu, hseen, -⟩ := hwatch.run hx
    have hw := hu.step hwrite
    have hfresh : seen ≠ t := by
      rintro rfl
      rw [writes_append] at hn
      exact (List.nodup_append.1 (show ((t₀ :: writes xs) ++ seen :: writes ys).Nodup from hn)).2.2 seen hseen seen
        List.mem_cons_self rfl
    have hstart : Answers [] t path w :=
      ⟨(hlive.run hx).step hwrite, seen, hw, fun ⟨e, he, _⟩ => absurd he List.not_mem_nil, fun heq => absurd heq hfresh⟩
    obtain ⟨-, seen', -, hpolled, hanswer⟩ := hstart.run hrest hy ho
    obtain hp | hf | hl := hanswer (hpolled hpoll)
    · rw [hpending] at hp
      cases hp
    · exact absurd hf hfailed
    · exact hl
  · have hcount := debounced_le hr
    have hnone : (⟨h', l, handle⟩ : Session).handle.debouncer.pending.toNat = 0 := by
      rw [hh]
      rfl
    omega

/-- A file that is written, seen by a poll and loaded when the timer expires. -/
theorem reloaded_after_one_write :
    ∃ (g : GivenLoader) (h' : Host) (handle : Handle) (v : Session),
      Handle.spawn (.given g) Host.libraryPath Delay.standard Watcher.standardInterval true .bare = (.ok handle, h') ∧
        Runs Step ⟨h', .given g, handle⟩ [.write 1, .poll (.ok true), .expire (some (.ok h'.shelf.size))] v ∧
        Loaded [.poll (.ok true), .expire (some (.ok h'.shelf.size))] v.handle.active := by
  obtain ⟨h', hs, hd, -⟩ :=
    Handle.spawn_given_watching (g := ⟨[], none, false⟩) rfl look_bare Delay.standard Watcher.standardInterval
  have hfile : h'.disk.look ⟨true, true⟩ Host.libraryPath = .ok (.found ["mod.so"] (.file .empty 0)) := by
    rw [hd]
    exact Disk.look_eq_ok.2 ⟨by decide, by decide, .file ⟨by decide, by decide, by decide, by decide⟩ rfl⟩
  have hlook := Disk.look_uncreating hfile
  generalize hhandle : Handle.attended _ _ _ _ _ = handle at hs
  have hw : Watches ⟨h', .given ⟨[], none, false⟩, handle⟩ Host.libraryPath 0 0 := by
    subst hhandle
    exact ⟨rfl, ⟨_, rfl⟩, ["mod.so"], .empty, hlook⟩
  obtain ⟨v, hr, ho, hp⟩ := run_rebuild hw (by rw [← hhandle]; exact fun _ => rfl) (by rw [← hhandle]; rfl) rfl rfl rfl
    (by rw [← hhandle]; exact Disk.writeFile_of_look hfile rfl .empty 1) (show (1 : Int) ≠ 0 by decide)
  have hn : ((h'.disk.modified? Host.libraryPath).toList ++
      writes [.write 1, .poll (.ok true), .expire (some (.ok h'.shelf.size))]).Nodup := by
    rw [Disk.modified?_of_look hlook]
    show ([0, 1] : List Int).Nodup
    decide
  have hfailed : ¬Failed [.poll (.ok true), .expire (some (.ok h'.shelf.size))] := by
    rintro ⟨e, he, f, hf⟩
    simp only [List.mem_cons, List.not_mem_nil, or_false] at he
    obtain rfl | rfl := he <;> cases hf
  exact ⟨_, h', _, v, hs, hr,
    (reloaded_after_write hs hr ho hn).1 [] 1 _ rfl rfl ⟨_, List.mem_cons_self, rfl⟩ hp hfailed⟩

end Hotload.Session
