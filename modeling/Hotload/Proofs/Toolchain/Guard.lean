import Hotload.Proofs.Action
import Hotload.Proofs.Debouncer.Race
import Hotload.Toolchain.Vigil

/-!
The loop, the watcher and the debouncer, step by step. A change that a poll has seen goes on as a timer, a signal and a
wait that is over, and none of these is lost before the compiler is started; where none of them is, nothing starts it.
-/
namespace Hotload

open Files

namespace External

theorem keeps_nextLaunch : Action.Keeps nextLaunch := by
  refine Action.keeps_get.bind fun h => ?_
  split
  · exact Action.keeps_pure _
  · exact Action.Keeps.bind (fun _ => ⟨rfl, rfl, rfl, rfl⟩) fun _ => Action.keeps_pure _

theorem keeps_runCommand (command : List String) (directory : Option Path) (extra : Environment) :
    Action.Keeps (runCommand command directory extra) := by
  refine (Action.keeps_log _).bind fun _ => Action.keeps_get.bind fun h => (Action.keeps_note _).bind fun _ =>
    keeps_nextLaunch.bind fun l => ?_
  cases l with
  | exited code => exact Action.keeps_pure code
  | failed f => exact Action.keeps_throw _

theorem keeps_compile (x : External) (manifest : Path) (o : CompileOptions) : Action.Keeps (x.compile manifest o) :=
  (keeps_runCommand _ _ _).bind fun _ => (Action.keeps_log _).bind fun _ => Action.keeps_pure _

theorem compile_same {x : External} {manifest : Path} {o : CompileOptions} {h h' : Host} {r : Outcome Bool}
    (hx : x.compile manifest o h = (r, h')) : h'.disk = h.disk ∧ h'.stopped = h.stopped := by
  have hk := x.keeps_compile manifest o h
  rw [hx] at hk
  exact ⟨hk.1, hk.2.1⟩

theorem keeps_recompile (x : External) (manifest : Path) (o : CompileOptions) : Action.Keeps (x.recompile manifest o) := by
  refine (keeps_compile x manifest o).attempt.bind fun r => ?_
  cases r with
  | ok _ => exact Action.keeps_pure ()
  | error f =>
    dsimp only
    split
    · exact Action.keeps_log _
    · exact Action.keeps_throw f

theorem recompile_same {x : External} {manifest : Path} {o : CompileOptions} {h h' : Host} {r : Outcome Unit}
    (hx : x.recompile manifest o h = (r, h')) : h'.disk = h.disk ∧ h'.stopped = h.stopped := by
  have hk := x.keeps_recompile manifest o h
  rw [hx] at hk
  exact ⟨hk.1, hk.2.1⟩

/-- A compiler of which nothing else is laid down is content. -/
theorem compile_of_no_launches (x : External) (manifest : Path) (o : CompileOptions) {h : Host} (hl : h.launches = []) :
    ∃ h', x.compile manifest o h = (.ok true, h') ∧ h'.launches = [] := by
  obtain ⟨_, _, _, _, _, _, launches, _⟩ := h
  cases hl
  exact ⟨_, rfl, rfl⟩

theorem recompile_of_no_launches (x : External) (manifest : Path) (o : CompileOptions) {h : Host} (hl : h.launches = []) :
    ∃ h', x.recompile manifest o h = (.ok (), h') := by
  obtain ⟨_, _, _, _, _, _, launches, _⟩ := h
  cases hl
  exact ⟨_, rfl⟩

end External

namespace Watching

variable {w w' : Watching} {d : Disk} {now : Int} {changed : Bool}

/-- A poll takes a new listing and tells whether it is another one. -/
theorem poll_ok (h : w.poll d = .ok (changed, w')) :
    ∃ ls, d.snapshot w.watcher.paths = .ok ls ∧ (changed = false ↔ ls = w.watcher.seen) ∧
      w' = { w with watcher := { w.watcher with seen := ls } } := by
  unfold poll Watcher.poll at h
  cases hs : d.snapshot w.watcher.paths with
  | error f =>
    rw [hs] at h
    cases h
  | ok ls =>
    rw [hs] at h
    simp only [Except.map] at h
    split at h
    · rename_i hl
      cases h
      exact ⟨ls, rfl, by simp [hl], by simp [hl]⟩
    · rename_i hl
      cases h
      exact ⟨ls, rfl, by simp [hl], rfl⟩

theorem poll_of_ne {ls : Listing} (h : d.snapshot w.watcher.paths = .ok ls) (hn : ls ≠ w.watcher.seen) :
    w.poll d = .ok (true, { w with watcher := { w.watcher with seen := ls } }) := by
  simp only [poll, Watcher.poll, h, Except.map, if_neg hn]

theorem poll_of_eq (h : d.snapshot w.watcher.paths = .ok w.watcher.seen) : w.poll d = .ok (false, w) := by
  simp only [poll, Watcher.poll, h, Except.map, if_true]

theorem notice_ok (h : w.notice now = .ok w') : ∃ b, w.debouncer.arm now = .ok b ∧ w' = { w with debouncer := b } := by
  unfold notice at h
  cases ha : w.debouncer.arm now with
  | error f =>
    rw [ha] at h
    cases h
  | ok b =>
    rw [ha] at h
    cases h
    exact ⟨b, rfl, rfl⟩

theorem notice_of_arm {b : Debouncer} (h : w.debouncer.arm now = .ok b) :
    w.notice now = .ok { w with debouncer := b } := by
  simp only [notice, h, Except.map]

theorem start_ok {manifest : Path} {interval : Binary64} {debounce : Int}
    (h : start d manifest interval debounce = .ok w) :
    ∃ ls, d.snapshot (External.watchPaths manifest) = .ok ls ∧
      w = ⟨⟨External.watchPaths manifest, ls, interval⟩, .new debounce, false⟩ := by
  unfold start Watcher.start at h
  cases hs : d.snapshot (External.watchPaths manifest) with
  | error f =>
    rw [hs] at h
    cases h
  | ok ls =>
    rw [hs] at h
    cases h
    exact ⟨ls, rfl, rfl⟩

end Watching

theorem Debouncer.seconds_of_arm {d d' : Debouncer} {now : Int} (h : d.arm now = .ok d') (hc : d.closed = false) :
    ∃ s, Delay.seconds d.delay = .ok s := by
  unfold arm at h
  rw [if_neg (by simp [hc])] at h
  cases hs : Delay.seconds d.delay with
  | error f =>
    rw [hs] at h
    cases h
  | ok s => exact ⟨s, rfl⟩

theorem Debouncer.arm_error {d : Debouncer} {now : Int} {f : Failure} (h : d.arm now = .error f) :
    d.closed = false ∧ ∀ s, Delay.seconds d.delay ≠ .ok s := by
  unfold arm at h
  split at h
  · cases h
  · rename_i hc
    refine ⟨Bool.eq_false_iff.2 hc, fun s hs => ?_⟩
    rw [hs] at h
    cases h

theorem Debouncer.deliver_trigger {d : Debouncer} (h : d.closed = false) (now : Int) :
    (d.trigger now).deliver d.issued = (true, { d with timer := none, issued := d.issued + 1 }) := by
  simp [trigger, deliver, isCurrent, h]

namespace Vigil

variable {x : External} {manifest : Path}

namespace Guard

variable {h : Host} {g g' : Guard} {e : Event}

def seen (g : Guard) : Listing :=
  g.watching.watcher.seen

/-- The watcher and the debouncer are those of the loop, and the debouncer is closed when the loop is over. -/
structure Fits (x : External) (manifest : Path) (g : Guard) : Prop where
  paths : g.watching.watcher.paths = External.watchPaths manifest
  delay : g.watching.debouncer.delay = x.debounce
  closed : g.watching.debouncer.closed = true ↔ g.phase = .over

theorem Fits.step (hf : g.Fits x manifest) (hs : Step h g e g') : g'.Fits x manifest := by
  obtain ⟨hp, hd, hc⟩ := hf
  cases hs with
  | wake hw => exact ⟨hp, hd, by simpa [hw] using hc⟩
  | take hw => exact ⟨hp, hd, by simpa [hw, Watching.takeSignal] using hc⟩
  | compile hw => exact ⟨hp, hd, by simpa [hw] using hc⟩
  | poll _ hpoll =>
    obtain ⟨ls, -, -, rfl⟩ := Watching.poll_ok hpoll
    exact ⟨hp, hd, hc⟩
  | blind | stall | signal => exact ⟨hp, hd, hc⟩
  | notice _ hn =>
    obtain ⟨b, ha, rfl⟩ := Watching.notice_ok hn
    obtain ⟨-, rfl⟩ | ⟨-, rfl⟩ := Debouncer.arm_ok ha
    · exact ⟨hp, hd, hc⟩
    · exact ⟨hp, hd, hc⟩
  | deliver id =>
    obtain ⟨-, -, hx⟩ | ⟨-, hx⟩ := g.watching.debouncer.deliver_cases id
    · rw [hx]
      exact ⟨hp, hd, hc⟩
    · rw [hx]
      exact ⟨hp, hd, hc⟩

/-- Only a poll changes what was seen. -/
theorem Step.seen_or (hs : Step h g e g') : g'.seen = g.seen ∨ ∃ changed, e = .poll changed := by
  cases hs with
  | poll => exact .inr ⟨_, rfl⟩
  | notice _ hn =>
    obtain ⟨b, -, rfl⟩ := Watching.notice_ok hn
    exact .inl rfl
  | wake | take | compile | blind | stall | deliver | signal => exact .inl rfl

/-- A poll sees what there is. -/
theorem Step.seen_of_poll {changed : Bool} (hs : Step h g (.poll changed) g') :
    h.disk.snapshot g.watching.watcher.paths = .ok g'.seen := by
  generalize he : Event.poll changed = e at hs
  cases hs with
  | poll _ hpoll =>
    obtain ⟨ls, hls, -, rfl⟩ := Watching.poll_ok hpoll
    exact hls
  | wake | take | compile | blind | notice | stall | deliver | signal => cases he

/-- A poll that sees nothing new changes nothing. -/
theorem Step.of_seen (hp : g.poller = .resting) (hs : h.disk.snapshot g.watching.watcher.paths = .ok g.seen) :
    Step h g (.poll false) g := by
  have hstep : Step h g _ _ := .poll hp (Watching.poll_of_eq hs)
  rwa [if_neg Bool.false_ne_true, ← hp] at hstep

/-- Something is under way that leads to a compilation. -/
inductive Roused (g : Guard) : Prop where
  | woken : g.phase = .woken → Roused g
  | ready : g.phase = .ready → Roused g
  | signalled : g.watching.rebuild = true → Roused g
  | set : g.watching.debouncer.pending = true → Roused g
  | owed {n : Nat} : g.owed = n + 1 → Roused g
  | noticed : g.poller = .noticed → Roused g

theorem rests_start {w : Watching} (hr : w.rebuild = false) (hp : w.debouncer.pending = false) : (start w).Rests :=
  ⟨rfl, hr, hp, rfl, nofun⟩

theorem Rests.not_roused (hr : g.Rests) : ¬g.Roused := by
  rintro (h | h | h | h | h | h)
  · rw [hr.waiting] at h
    cases h
  · rw [hr.waiting] at h
    cases h
  · rw [hr.unsignalled] at h
    cases h
  · rw [hr.unset] at h
    cases h
  · rw [hr.settled] at h
    cases h
  · exact hr.unnoticed h

theorem Roused.congr (hr : g.Roused) (hp : g'.phase = g.phase) (hw : g'.watching.rebuild = g.watching.rebuild)
    (hd : g'.watching.debouncer = g.watching.debouncer) (ho : g'.owed = g.owed)
    (hn : g.poller = .noticed → g'.poller = .noticed) : g'.Roused := by
  cases hr with
  | woken h => exact .woken (hp.trans h)
  | ready h => exact .ready (hp.trans h)
  | signalled h => exact .signalled (hw.trans h)
  | set h => exact .set (by rw [hd, h])
  | owed h => exact .owed (ho.trans h)
  | noticed h => exact .noticed (hn h)

theorem Roused.resume (hr : g.Roused) (hc : g.phase = .compiling) : Roused { g with phase := .waiting } := by
  cases hr with
  | woken h | ready h =>
    rw [hc] at h
    cases h
  | signalled h => exact .signalled h
  | set h => exact .set h
  | owed h => exact .owed h
  | noticed h => exact .noticed h

/-- A poll that sees another listing rouses the loop. -/
theorem Step.roused_of_poll {changed : Bool} (hs : Step h g (.poll changed) g') (hn : g'.seen ≠ g.seen) : g'.Roused := by
  generalize he : Event.poll changed = e at hs
  cases hs with
  | poll _ hpoll =>
    obtain ⟨ls, -, hch, rfl⟩ := Watching.poll_ok hpoll
    refine .noticed (if_pos ?_)
    exact Bool.ne_false_iff.1 fun hfalse => hn (hch.1 hfalse)
  | wake | take | compile | blind | notice | stall | deliver | signal => cases he

/-- What is under way goes on until the compiler is started, if the delay is one that a timer can be given. -/
theorem Roused.step {s : Binary64} (hr : g.Roused) (hf : g.Fits x manifest) (ho : g.phase ≠ .over)
    (hd : Delay.seconds x.debounce = .ok s) (hs : Step h g e g') : g'.Roused ∨ e = .compile := by
  have hopen : g.watching.debouncer.closed = false := Bool.eq_false_iff.2 fun hc => ho (hf.closed.1 hc)
  cases hs with
  | wake => exact .inl (.woken rfl)
  | take => exact .inl (.ready rfl)
  | compile => exact .inr rfl
  | poll hrest hpoll =>
    obtain ⟨ls, -, -, rfl⟩ := Watching.poll_ok hpoll
    exact .inl (hr.congr rfl rfl rfl rfl fun hn => by rw [hrest] at hn; cases hn)
  | blind hrest =>
    exact .inl (hr.congr rfl rfl rfl rfl fun hn => by rw [hrest] at hn; cases hn)
  | notice _ hn =>
    obtain ⟨b, ha, rfl⟩ := Watching.notice_ok hn
    obtain ⟨hc, -⟩ | ⟨-, rfl⟩ := Debouncer.arm_ok ha
    · rw [hopen] at hc
      cases hc
    · exact .inl (.set rfl)
  | stall _ hn =>
    unfold Watching.notice at hn
    cases ha : g.watching.debouncer.arm h.clock with
    | ok b =>
      rw [ha] at hn
      cases hn
    | error f => exact absurd (hf.delay ▸ hd) ((Debouncer.arm_error ha).2 s)
  | deliver id =>
    left
    obtain ⟨-, -, hx⟩ | ⟨-, hx⟩ := g.watching.debouncer.deliver_cases id
    · rw [hx]
      exact .owed rfl
    · rw [hx]
      exact hr.congr rfl rfl rfl rfl fun hn => hn
  | signal => exact .inl (.signalled rfl)

theorem Step.over (hs : Step h g e g') (ho : g.phase = .over) : g'.phase = .over := by
  cases hs with
  | wake hw | take hw | compile hw =>
    rw [ho] at hw
    cases hw
  | poll | blind | notice | stall | deliver | signal => exact ho

/-- Nothing is under way, a change that was noticed apart. -/
structure Calm (g : Guard) : Prop where
  phase : g.phase = .waiting ∨ g.phase = .over
  unsignalled : g.watching.rebuild = false
  unset : g.watching.debouncer.pending = false
  settled : g.owed = 0

theorem calm_start {w : Watching} (hr : w.rebuild = false) (hp : w.debouncer.pending = false) : (start w).Calm :=
  ⟨.inl rfl, hr, hp, rfl⟩

theorem Calm.close (hc : g.Calm) : g.close.Calm :=
  ⟨.inr rfl, hc.unsignalled, rfl, hc.settled⟩

/-- Nothing comes of nothing: without a change that was noticed, or with a delay that no timer can be given, the compiler
is not started. -/
theorem Calm.step (hc : g.Calm) (hf : g.Fits x manifest) (hs : Step h g e g')
    (hq : g.poller ≠ .noticed ∨ ∀ s, Delay.seconds x.debounce ≠ .ok s) : g'.Calm ∧ e ≠ .compile := by
  obtain ⟨hphase, hr, hp, ho⟩ := hc
  cases hs with
  | wake _ hw =>
    rw [hr] at hw
    cases hw
  | take hw | compile hw =>
    rw [hw] at hphase
    obtain hphase | hphase := hphase <;> cases hphase
  | poll _ hpoll =>
    obtain ⟨ls, -, -, rfl⟩ := Watching.poll_ok hpoll
    exact ⟨⟨hphase, hr, hp, ho⟩, nofun⟩
  | blind | stall => exact ⟨⟨hphase, hr, hp, ho⟩, nofun⟩
  | notice hn hw =>
    obtain ⟨b, ha, rfl⟩ := Watching.notice_ok hw
    obtain ⟨-, rfl⟩ | ⟨hopen, -⟩ := Debouncer.arm_ok ha
    · exact ⟨⟨hphase, hr, hp, ho⟩, nofun⟩
    · obtain ⟨s, hs⟩ := Debouncer.seconds_of_arm ha hopen
      obtain hq | hq := hq
      · exact absurd hn hq
      · exact absurd (hf.delay ▸ hs) (hq s)
  | deliver id =>
    obtain ⟨-, hi, -⟩ | ⟨-, hx⟩ := g.watching.debouncer.deliver_cases id
    · rw [Debouncer.pending_iff.2 ⟨id, hi⟩] at hp
      cases hp
    · rw [hx]
      exact ⟨⟨hphase, hr, hp, ho⟩, nofun⟩
  | signal hn =>
    rw [ho] at hn
    cases hn

/-- A poll of files that were seen before notices nothing. -/
theorem Step.unnoticed (hs : Step h g e g') (hn : g.poller ≠ .noticed)
    (hseen : h.disk.snapshot g.watching.watcher.paths = .ok g.seen) : g'.poller ≠ .noticed := by
  cases hs with
  | poll _ hpoll =>
    obtain ⟨ls, hls, hch, rfl⟩ := Watching.poll_ok hpoll
    cases hls.symm.trans hseen
    rw [hch.2 rfl]
    exact nofun
  | notice h => exact absurd h hn
  | stall h => exact absurd h hn
  | blind => exact nofun
  | wake | take | compile | deliver | signal => exact hn

/-- From a change that a poll sees the guard goes on until the signal is taken, with nothing left to do but to compile. -/
theorem run_ready {ls : Listing} (hr : g.Rests) (hp : g.poller = .resting) (hc : g.watching.debouncer.closed = false)
    (hd : (Binary64.ofInt g.watching.debouncer.delay).isInfinite = false)
    (hs : h.disk.snapshot g.watching.watcher.paths = .ok ls) (hn : ls ≠ g.seen) :
    ∃ g', Runs (Step h) g [.poll true, .notice, .deliver true, .signal, .wake, .take] g' ∧
      g'.phase = .ready ∧ Rests { g' with phase := .waiting } := by
  obtain ⟨⟨⟨paths, seen, interval⟩, b, rebuild⟩, phase, poller, owed⟩ := g
  obtain ⟨hphase, hrebuild, -, howed, -⟩ := hr
  dsimp only at hphase hrebuild howed hp hc hd hs
  subst hphase hrebuild howed hp
  have h₁ : Step h ⟨⟨⟨paths, seen, interval⟩, b, false⟩, .waiting, .resting, 0⟩ (.poll true)
      ⟨⟨⟨paths, ls, interval⟩, b, false⟩, .waiting, .noticed, 0⟩ := .poll rfl (Watching.poll_of_ne hs hn)
  have h₂ : Step h ⟨⟨⟨paths, ls, interval⟩, b, false⟩, .waiting, .noticed, 0⟩ .notice
      ⟨⟨⟨paths, ls, interval⟩, b.trigger h.clock, false⟩, .waiting, .resting, 0⟩ :=
    .notice rfl (Watching.notice_of_arm (Debouncer.arm_of_finite hd h.clock))
  have h₃ := Step.deliver (h := h) (g := ⟨⟨⟨paths, ls, interval⟩, b.trigger h.clock, false⟩, .waiting, .resting, 0⟩) b.issued
  dsimp only at h₃
  rw [Debouncer.deliver_trigger hc] at h₃
  have h₄ := (((Runs.one h₁).more h₂).more h₃).more (.signal rfl)
  exact ⟨_, (h₄.more (.wake rfl rfl)).more (.take rfl), rfl, rfl, rfl, rfl, rfl, nofun⟩

/-- From there it goes on to the compilation, with nothing left to do after it. -/
theorem run_compiling {ls : Listing} (hr : g.Rests) (hp : g.poller = .resting) (hc : g.watching.debouncer.closed = false)
    (hd : (Binary64.ofInt g.watching.debouncer.delay).isInfinite = false) (hst : h.stopped = false)
    (hs : h.disk.snapshot g.watching.watcher.paths = .ok ls) (hn : ls ≠ g.seen) :
    ∃ g', Runs (Step h) g [.poll true, .notice, .deliver true, .signal, .wake, .take, .compile] g' ∧
      g'.phase = .compiling ∧ Rests { g' with phase := .waiting } := by
  obtain ⟨g', hrun, hphase, hrests⟩ := run_ready hr hp hc hd hs hn
  exact ⟨_, hrun.more (.compile hphase hst), rfl, hrests⟩

end Guard

end Vigil

end Hotload
