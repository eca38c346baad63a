import Hotload.Proofs.Shared.Lifetime
import Hotload.Proofs.Session.Run
import Hotload.Shared.Upkeep

/-!
A handle that was closed. From the moment that it is silenced no timer is set and none passes; the active library and the
number of reloads stay, and what a reload loads it closes again. Only a watcher may be asked for once more, and nothing
stops that one.
-/
namespace Hotload

/-- A thread leaves the watcher and the debouncer alone. -/
theorem Thread.Step.upkeep_eq {s s' : Session} {l l' : ReadWriteLock} {x y : Thread} {d : Deed} (h : Step s l x d y s' l') :
    s'.handle.debouncer = s.handle.debouncer ∧ s'.handle.watching = s.handle.watching := by
  by_cases hd : ∃ fresh, d = .install fresh
  · obtain ⟨fresh, rfl⟩ := hd
    rw [h.handle_install.2]
    exact ⟨rfl, rfl⟩
  · rw [h.handle_eq fun fresh hf => hd ⟨fresh, hf⟩]
    exact ⟨rfl, rfl⟩

theorem Closing.Step.upkeep_eq {s s' : Session} {l l' : ReadWriteLock} {c c' : Closing} {d : Deed}
    (h : Step s l c d c' s' l') (hd : d ≠ .silence) :
    s'.handle.debouncer = s.handle.debouncer ∧ s'.handle.watching = s.handle.watching := by
  cases h with
  | silence => exact absurd rfl hd
  | mark | again | fail | enter | close | leave => exact ⟨rfl, rfl⟩

namespace Shared.Upkeep

variable {s : Session} {w u v : Shared} {e : Event} {es fs xs ys : List Event} {t : Nat}

theorem alike_watch {s s' : Session} {interval : Binary64} (h : s.watch interval = .ok s') :
    s.Alike s' ∧ s'.handle.debouncer = s.handle.debouncer ∧ s'.handle.watching = true := by
  unfold Session.watch at h
  cases hw : s.handle.watch interval s.host.disk with
  | error f =>
    rw [hw] at h
    cases h
  | ok handle =>
    rw [hw] at h
    cases h
    obtain ⟨ha, hr, hc⟩ := Handle.watch_ok hw
    refine ⟨⟨rfl, ha, hr, hc⟩, ?_⟩
    unfold Handle.watch at hw
    split at hw
    · next hwatching =>
      cases hw
      exact ⟨rfl, hwatching⟩
    · cases hs : Watcher.start s.host.disk [s.handle.path] interval with
      | error f =>
        rw [hs] at hw
        cases hw
      | ok x =>
        rw [hs] at hw
        cases hw
        exact ⟨rfl, rfl⟩

theorem alike_notify (s : Session) : s.Alike s.notify :=
  ⟨rfl, rfl, rfl, rfl⟩

/-- A poll does no more to the handle than a notification. -/
theorem alike_poll (s : Session) :
    s.Alike s.poll.2 ∧ s.poll.2.handle.watching = s.handle.watching ∧
      (s.poll.2.handle.debouncer = s.handle.debouncer ∨
        s.poll.2.handle.debouncer = s.handle.debouncer.trigger s.host.clock) := by
  unfold Session.poll
  split
  · exact ⟨⟨rfl, rfl, rfl, rfl⟩, rfl, .inl rfl⟩
  · split
    · exact ⟨⟨rfl, rfl, rfl, rfl⟩, rfl, .inl rfl⟩
    · exact ⟨⟨rfl, rfl, rfl, rfl⟩, rfl, .inl rfl⟩
    · exact ⟨⟨rfl, rfl, rfl, rfl⟩, rfl, .inr rfl⟩

theorem Step.seen (h : Step w e v) : Shared.Run w e.seen v := by
  cases h with
  | shared h => exact Runs.none.more h
  | notify => exact Runs.none.more (.elsewhere (alike_notify _))
  | expire id =>
    unfold Shared.expire
    cases hd : w.session.handle.debouncer.deliver id with
    | mk passes d =>
      have halike : w.session.Alike { w.session with handle := { w.session.handle with debouncer := d } } :=
        ⟨rfl, rfl, rfl, rfl⟩
      cases passes with
      | false => exact Runs.none.more (.elsewhere halike)
      | true => exact (Runs.none.more (.elsewhere halike)).more (.demand .reload)
  | watch h => exact Runs.none.more (.elsewhere (alike_watch h).1)
  | fail => exact Runs.none.more (.elsewhere ⟨rfl, rfl, rfl, rfl⟩)
  | poll => exact Runs.none.more (.elsewhere (alike_poll _).1)
  | machine hh hs => exact Runs.none.more (.elsewhere ⟨hs, by rw [hh], by rw [hh], by rw [hh]⟩)

/-- A run is one of the threads and the owner, with something going on elsewhere now and then. -/
theorem seen_run (h : Runs Step w es v) : Shared.Run w (es.flatMap Event.seen) v := by
  induction h with
  | none => exact .none
  | more _ hs ih =>
    rw [List.flatMap_append, List.flatMap_singleton]
    exact ih.trans hs.seen

theorem mem_seen {a : Shared.Event} (helsewhere : a ≠ .elsewhere) (hdemand : a ≠ .demand .reload) :
    a ∈ es.flatMap Event.seen ↔ .shared a ∈ es := by
  rw [List.mem_flatMap]
  constructor
  · rintro ⟨e, he, ha⟩
    cases e with
    | shared b =>
      obtain rfl := List.mem_singleton.1 ha
      exact he
    | expire passes => cases passes <;> simp_all [Event.seen]
    | notify | watch | fail | poll | machine => simp_all [Event.seen]
  · intro ha
    exact ⟨_, ha, List.mem_singleton_self _⟩

/-- The owner has silenced the handle. -/
structure Silenced (w : Shared) : Prop where
  closed : w.closed = true
  unmarked : w.closing ≠ .marked
  refuses : w.session.handle.debouncer.closed = true
  unset : w.session.handle.debouncer.timer = none

namespace Silenced

theorem congr (h : Silenced w) (hc : v.closed = w.closed) (hclosing : v.closing = w.closing)
    (hd : v.session.handle.debouncer = w.session.handle.debouncer) : Silenced v where
  closed := hc.trans h.closed
  unmarked := hclosing ▸ h.unmarked
  refuses := hd ▸ h.refuses
  unset := hd ▸ h.unset

theorem trigger (h : Silenced w) (now : Int) : w.session.handle.debouncer.trigger now = w.session.handle.debouncer := by
  rw [Debouncer.trigger, if_pos h.refuses]

theorem expire_eq (h : Silenced w) (id : Nat) : w.expire id = (false, w) := by
  rw [Shared.expire, Debouncer.deliver_of_closed h.refuses]
  rfl

/-- It is silenced once: who marks a handle finds it open. -/
theorem not_silence (h : Silenced w) : ¬ Step w (.shared (.owner .silence)) v := by
  intro hs
  cases hs with
  | shared hs =>
    cases hs with
    | owner hs =>
      generalize hc : w.closing = c at hs
      cases hs
      exact h.unmarked hc

theorem step (h : Silenced w) (hs : Step w e v) : Silenced v := by
  cases hs with
  | shared hs helsewhere =>
    cases hs with
    | demand => exact h.congr rfl rfl rfl
    | act hx hs => exact h.congr hs.closed_eq rfl hs.upkeep_eq.1
    | @owner d c s l hs =>
      have hd : d ≠ .silence := by
        rintro rfl
        exact h.not_silence (v := { w with session := s, lock := l, closing := c }) (.shared (.owner hs) nofun)
      have hc : c ≠ .marked := by
        rintro rfl
        generalize w.closing = c at hs
        cases hs with
        | mark ho => exact absurd (h.closed.symm.trans ho) nofun
        | again hidle => cases hidle
      exact ⟨hs.closed_of_closed h.closed, hc, (hs.upkeep_eq hd).1 ▸ h.refuses, (hs.upkeep_eq hd).1 ▸ h.unset⟩
    | elsewhere => exact absurd rfl helsewhere
  | notify => exact h.congr rfl rfl (h.trigger _)
  | expire id =>
    rw [h.expire_eq]
    exact h
  | watch hs =>
    obtain ⟨halike, hd, -⟩ := alike_watch hs
    exact h.congr halike.closed rfl hd
  | fail => exact h
  | poll =>
    obtain ⟨halike, -, hd | hd⟩ := alike_poll w.session
    · exact h.congr halike.closed rfl hd
    · exact h.congr halike.closed rfl (hd.trans (h.trigger _))
  | machine hh => exact h.congr (by rw [Shared.closed, setSession, hh]; rfl) rfl (by rw [setSession, hh])

theorem run (h : Silenced w) (hr : Runs Step w es v) : Silenced v := by
  induction hr with
  | none => exact h
  | more _ hs ih => exact ih.step hs

end Silenced

/-- Silencing stops the watcher, cancels the timer and comes after marking. -/
theorem silenced_of_silence {first : Nat} (ho : Owned first w) (hs : Step w (.shared (.owner .silence)) v) :
    Silenced v ∧ v.session.handle.watching = false := by
  cases hs with
  | shared hs =>
    cases hs with
    | owner hs =>
      have hclosed := ho.marked
      generalize w.closing = c at hs hclosed
      cases hs with
      | silence hs =>
        obtain ⟨lingering, rfl⟩ := Session.silence_ok hs
        exact ⟨⟨hclosed nofun, nofun, rfl, rfl⟩, rfl⟩

/-- Nobody comes past the silencing on the way to the lock. -/
theorem silence_mem (h : Runs Step (start s) es w) (hc : w.closing.isIdle = false) (hm : w.closing ≠ .marked) :
    .shared (.owner .silence) ∈ es := by
  induction h with
  | none => cases hc
  | @more es e u v _ hs ih =>
    have earlier (h : v.closing = u.closing) : .shared (.owner .silence) ∈ es ++ [e] :=
      List.mem_append_left _ (ih (h ▸ hc) (h ▸ hm))
    cases hs with
    | shared hs =>
      cases hs with
      | demand | act | elsewhere => exact earlier rfl
      | owner hs =>
        generalize u.closing = c at hs ih
        cases hs with
        | mark => exact absurd rfl hm
        | again hidle => exact absurd (hidle.symm.trans hc) nofun
        | fail | leave => cases hc
        | silence => simp
        | enter | close => exact List.mem_append_left _ (ih rfl nofun)
    | notify | expire | watch | fail | poll | machine => exact earlier rfl

/-- On a silenced handle only a call that starts a watcher changes what is watched. -/
theorem watching_step (h : Silenced w) (hs : Step w e v) :
    v.session.handle.watching = true ↔ w.session.handle.watching = true ∨ e = .watch true := by
  cases hs with
  | shared hs helsewhere =>
    have hsilence := h.not_silence (v := v)
    cases hs with
    | demand => simp
    | act hx hs => simp [Shared.move, hs.upkeep_eq.2]
    | @owner d c s l hs =>
      have hd : d ≠ .silence := by
        rintro rfl
        exact hsilence (.shared (.owner hs) helsewhere)
      simp [(hs.upkeep_eq hd).2]
    | elsewhere => exact absurd rfl helsewhere
  | notify => simp [setSession, Session.notify, Handle.notify]
  | expire id => simp [h.expire_eq]
  | watch hs =>
    obtain ⟨-, -, hwatching⟩ := alike_watch hs
    simp only [setSession, hwatching, true_iff, Event.watch.injEq]
    cases w.session.handle.watching <;> simp
  | fail => simp
  | poll => simp [setSession, (alike_poll w.session).2.1]
  | machine hh => simp [setSession, hh]

theorem watching_run (h : Silenced w) (hr : Runs Step w es v) :
    v.session.handle.watching = true ↔ w.session.handle.watching = true ∨ .watch true ∈ es := by
  induction hr with
  | none => simp
  | more hr hs ih =>
    rw [watching_step (h.run hr) hs, ih, or_assoc, List.mem_append, List.mem_singleton, eq_comm (a := Event.watch true)]

/-- Nothing is installed on a closed handle. -/
theorem installs_of_closed {as : List Shared.Event} (h : Shared.Run w as v) (hc : w.closed = true) : installs as = [] := by
  induction h with
  | none => rfl
  | @more as a u v h hs ih =>
    rw [installs_concat, ih, List.nil_append]
    cases ha : a.installed? with
    | none => rfl
    | some id => exact absurd ((Run.closed_of_closed h hc).symm.trans (hs.hold_install ha).1) nofun

theorem hold_eq_of_closed {as : List Shared.Event} (h : Shared.Run w as v) (hc : w.closed = true) :
    v.active = w.active ∧ v.reloads = w.reloads := by
  obtain ⟨ha, hr⟩ := h.hold
  rw [installs_of_closed h hc] at ha hr
  exact ⟨ha, hr⟩

/-- A library that was dropped is closed. -/
theorem closes_of_drop {as : List Shared.Event} {first id : Nat} (h : Shared.Run w as v) (ho : Owned first w)
    (hd : .act t (.drop id) ∈ as) : v.shelf.closes id = 1 := by
  have howned := h.owned ho
  obtain ⟨as₁, as₂, u, u', rfl, h₁, hs, h₂⟩ := h.at_mem hd
  have hsize := Nat.le_trans hs.keeps.size_le (Run.keeps h₂).size_le
  cases hs with
  | act hx hs =>
    cases hs with
    | @drop fresh =>
      obtain ⟨hle, hlt⟩ := (Run.owned h₁ ho).held _ (List.mem_of_getElem? hx) id rfl
      have hclose := Shelf.closes_close hlt id
      rw [if_pos rfl] at hclose
      have hmono := (Run.keeps h₂).closes_le id
      have hshelf : (u.move t (.reload (.ended (.ok (u.session.settle fresh id).1))) (u.session.settle fresh id).2
          u.lock).shelf = u.shelf.close id := by
        simp [Shared.move, Shared.shelf]
      rw [hshelf, hclose] at hmono
      have := howned.closes_le hle (Nat.lt_of_lt_of_le hlt hsize)
      omega

/-- A thread that loads on a closed handle and has ended closed what it loaded. -/
theorem ended_of_load {id : Nat} {r : Outcome Bool} (h : Runs Step (start s) es u) (hs : s.Fresh) (hc : u.closed = true)
    (h' : Runs Step u fs v) (hload : .shared (.act t (.load id)) ∈ fs)
    (ht : v.threads[t]? = some (.reload (.ended r))) : r = .ok false ∧ v.shelf.closes id = 1 := by
  have hrun := (seen_run h).trans (seen_run h')
  have hmem := mem_deeds.2 ((mem_seen (a := .act t (.load id)) nofun nofun).2 hload)
  have hinstall (fresh : Nat) : .install fresh ∉ deeds t (fs.flatMap Event.seen) := by
    intro hi
    have := mem_installs_iff.2 ⟨t, mem_deeds.1 hi⟩
    rw [installs_of_closed (seen_run h') hc] at this
    cases this
  have hpast := Run.past hrun ht
  rw [deeds_append] at hpast
  obtain ⟨f, hds, -⟩ | ⟨fresh, dropped, hds, -⟩ | ⟨fresh, hds, rfl⟩ := hpast
  · have hin := hds ▸ List.mem_append_right (deeds t (es.flatMap Event.seen)) hmem
    simp at hin
  · -- Who loads after closing has done nothing before, so the installation would come after closing, too.
    cases hbefore : deeds t (es.flatMap Event.seen) with
    | nil =>
      rw [hbefore, List.nil_append] at hds
      exact absurd (hds ▸ by simp) (hinstall fresh)
    | cons d ds =>
      rw [hbefore, List.cons_append, List.cons.injEq] at hds
      have hin := hds.2 ▸ List.mem_append_right ds hmem
      simp at hin
  · have hin := hds ▸ List.mem_append_right (deeds t (es.flatMap Event.seen)) hmem
    obtain rfl : id = fresh := by simpa using hin
    have hdrop : .drop id ∈ deeds t (es.flatMap Event.seen ++ fs.flatMap Event.seen) := by
      rw [deeds_append, hds]
      simp
    exact ⟨rfl, closes_of_drop hrun (owned_start hs) (mem_deeds.1 hdrop)⟩

/-- Who left the lock was silenced before, and since then only calls for a watcher had it watch. -/
theorem silenced_of_leave (h : Runs Step (start s) es u) (hs : s.Fresh) (hl : .shared (.owner .leave) ∈ es) :
    Silenced u ∧ ∃ xs ys, es = xs ++ .shared (.owner .silence) :: ys ∧
      (u.session.handle.watching = true ↔ .watch true ∈ ys) := by
  have hsilence : .shared (.owner .silence) ∈ es := by
    obtain ⟨xs, ys, rfl⟩ := List.append_of_mem hl
    obtain ⟨w, w', hx, hleave, -⟩ := h.split
    have hc : w.closing = .released := by
      cases hleave with
      | shared hleave =>
        cases hleave with
        | owner hleave =>
          generalize w.closing = c at hleave
          cases hleave
          rfl
    exact List.mem_append_left _ (silence_mem hx (hc ▸ rfl) (hc ▸ nofun))
  obtain ⟨xs, ys, rfl⟩ := List.append_of_mem hsilence
  obtain ⟨w, w', hx, hstep, hy⟩ := h.split
  obtain ⟨hw', hwatching⟩ := silenced_of_silence ((seen_run hx).owned (owned_start hs)) hstep
  refine ⟨hw'.run hy, xs, ys, rfl, ?_⟩
  rw [watching_run hw' hy, hwatching]
  simp

/-- Once closed, a handle is quiet but for its watcher. -/
theorem quiet_after_close (hs : Spawned s) (h : Runs Step (start s) es u) (hl : .shared (.owner .leave) ∈ es)
    (h' : Runs Step u fs v) :
    v.session.handle.debouncer.pending = false ∧ v.reloads = u.reloads ∧ v.active = u.active ∧
      (∀ (t id : Nat) (r : Outcome Bool), .shared (.act t (.load id)) ∈ fs →
        v.threads[t]? = some (.reload (.ended r)) → r = .ok false ∧ v.shelf.closes id = 1) ∧
      ∃ xs ys, es = xs ++ .shared (.owner .silence) :: ys ∧
        (v.session.handle.watching = true ↔ .watch true ∈ ys ++ fs) := by
  obtain ⟨hu, xs, ys, hes, hwatching⟩ := silenced_of_leave h hs.fresh hl
  obtain ⟨hactive, hreloads⟩ := hold_eq_of_closed (seen_run h') hu.closed
  refine ⟨?_, hreloads, hactive, ?_, xs, ys, hes, ?_⟩
  · rw [Debouncer.pending, (hu.run h').unset]
    rfl
  · intro t id r hload ht
    exact ended_of_load h hs.fresh hu.closed h' hload ht
  · rw [watching_run hu h', hwatching, List.mem_append]

theorem of_run {as : List Shared.Event} (h : Shared.Run w as v) (ha : .elsewhere ∉ as) :
    Runs Step w (as.map .shared) v := by
  induction h with
  | none => exact .none
  | more _ hs ih =>
    rw [List.mem_append, List.mem_singleton, not_or] at ha
    rw [List.map_append]
    exact (ih ha.1).more (.shared hs (Ne.symm ha.2))

theorem run_close {s' : Session} (hc : s.handle.closed = false) (hs : s.mark.silence = .ok s') :
    Runs Step (start s) ([.owner .mark, .owner .silence, .owner .enter, .owner (.close s.handle.active),
      .owner .leave].map Event.shared) (start s.close.2) :=
  of_run (run_close_open s [] hc hs) (by simp)

/-- A notification comes too late, and a reload closes what it loaded. -/
theorem quiet_after_close_reload :
    ∃ s es u fs v, Spawned s ∧ Runs Step (start s) es u ∧ .shared (.owner .leave) ∈ es ∧ Runs Step u fs v ∧
      .notify ∈ fs ∧ .shared (.act 0 (.load 1)) ∈ fs ∧ v.session.handle.debouncer.pending = false ∧ v.reloads = u.reloads ∧
      v.shelf.closes 1 = 1 ∧ v.session.handle.watching = false := by
  obtain ⟨s, hs, hl, hh, hsh⟩ := exists_spawned (g := ⟨[], none, false⟩) rfl
  have ho : s.handle.closed = false := hs.fresh.closed
  have hidle : s.mark.silence = .ok _ := Session.silence_of_idle (by rw [Session.mark, hh]; rfl)
  have hclose := run_close ho hidle
  have heq := congrArg Prod.snd (Session.close_of_ok ho hidle)
  have hnotify : Runs Step (start s.close.2) [.notify] (start s.close.2.notify) := .one .notify
  have hsize : s.close.2.notify.host.shelf.size = 1 := by
    have hshelf : s.close.2.notify.host.shelf = s.host.shelf.close s.handle.active := by
      rw [heq]
      rfl
    rw [hshelf, Shelf.size_close, Shelf.size, hsh]
    rfl
  have hload := Session.load_given (s := s.close.2.notify) (by rw [heq]; exact hl) rfl
  rw [hsize] at hload
  generalize Session.mk _ _ _ = s₁ at hload
  have hclosed : s₁.handle.closed = true := by
    rw [(Session.load_spec hload).1, Session.notify, Handle.notify, heq]
    rfl
  have hsteps : Thread.Steps s.close.2.notify .free (.reload .begun)
      [.load 1, .enter .write, .decline 1, .leave .write, .drop 1] (.reload (.ended (.ok (s₁.install 1).1)))
      (s₁.install 1).2 .free :=
    .cons (.load hload) (.install_closed hclosed 1)
  have hreload := of_run (Run.demand (d := .reload) .resting [] hsteps) (by simp)
  have hlater := hnotify.trans hreload
  obtain ⟨hpending, hreloads, -, hended, xs, ys, hes, hwatching⟩ := quiet_after_close hs hclose (by simp) hlater
  refine ⟨s, _, _, _, _, hs, hclose, by simp, hlater, by simp, by simp, hpending, hreloads,
    (hended 0 1 _ (by simp) rfl).2, ?_⟩
  rw [Bool.eq_false_iff]
  intro hw
  have hin := List.mem_append_right (xs ++ [.shared (.owner .silence)]) (hwatching.1 hw)
  rw [← List.append_assoc, List.append_assoc xs, List.singleton_append, ← hes] at hin
  simp at hin

theorem exists_watch {k : Files.Location} {content : ByteArray} {t : Int}
    (hk : s.host.disk.look ⟨true, false⟩ s.handle.path = .ok (.found k (.file content t))) (interval : Binary64) :
    ∃ s', s.watch interval = .ok s' := by
  unfold Session.watch Handle.watch
  split
  · exact ⟨_, rfl⟩
  · rw [Watcher.start, Files.Disk.snapshot_of_look hk]
    exact ⟨_, rfl⟩

/-- What was closed may be watched again. -/
theorem watching_after_close :
    ∃ s es u v, Spawned s ∧ Runs Step (start s) es u ∧ .shared (.owner .leave) ∈ es ∧ Runs Step u [.watch true] v ∧
      v.session.handle.watching = true := by
  obtain ⟨h', hs, hd, hp, -⟩ :=
    Handle.spawn_given_watching (g := ⟨[], none, false⟩) rfl Session.look_bare Delay.standard Watcher.standardInterval
  have hspawned := Spawned.of hs
  generalize hsession : Session.mk _ _ _ = s at hspawned
  have ho : s.handle.closed = false := hspawned.fresh.closed
  have hsilence : s.mark.silence = .ok { s.mark with handle := s.mark.handle.still false } := by
    rw [← hsession, Session.silence_of_working rfl]
    dsimp only [Session.mark]
    rw [hp]
    rfl
  have heq := congrArg Prod.snd (Session.close_of_ok ho hsilence)
  have hlook : s.close.2.host.disk.look ⟨true, false⟩ s.close.2.handle.path =
      .ok (.found ["mod.so"] (.file .empty 0)) := by
    rw [heq, ← hsession]
    exact hd ▸ Session.look_bare
  obtain ⟨s', hwatch⟩ := exists_watch hlook Watcher.standardInterval
  have hstep := Step.watch (w := start s.close.2) hwatch
  have hstarted : (!(start s.close.2).session.handle.watching) = true := by
    rw [heq]
    rfl
  rw [hstarted] at hstep
  exact ⟨s, _, _, _, hspawned, run_close ho hsilence, by simp, .one hstep, (alike_watch hwatch).2.2⟩

end Shared.Upkeep

end Hotload
