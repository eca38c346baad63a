import Hotload.Proofs.Files.Listing
import Hotload.Proofs.Files.Write
import Hotload.Proofs.Session
import Hotload.Proofs.Toolchain.Guard

/-!
Which edits are compiled. A listing that was taken before an edit differs from every one after it, so once the watcher was
started, a poll after the edit sees it and rouses the loop, which rests again only after a compilation. Before that there
is no listing that an edit could differ from: what is edited during the first compilation is in the first listing already.
-/
namespace Hotload.Vigil

open Files

variable {x : External} {manifest : Path} {o : CompileOptions}
variable {w u v : Vigil} {g : Guard} {e : Event} {es xs ys : List Event}

/-- The files of the loop are among those that were so far, and so are those that the watcher has seen. -/
structure Sound (x : External) (manifest : Path) (w : Vigil) : Prop where
  present : w.host.disk ∈ w.past
  fits : ∀ g, w.stage = .guarding g → g.Fits x manifest ∧
    ∃ d ∈ w.past, d.snapshot (External.watchPaths manifest) = .ok g.seen

theorem sound_start (h : Host) : (start h).Sound x manifest :=
  ⟨List.mem_singleton_self _, fun _ hg => by cases hg⟩

/-- Other files than before join those that were. -/
theorem Sound.join (hw : w.Sound x manifest) (h : Host) :
    Sound x manifest { w with host := h, past := h.disk :: w.past } where
  present := List.mem_cons_self
  fits g hg :=
    let ⟨hf, d, hd, hs⟩ := hw.fits g hg
    ⟨hf, d, List.mem_cons_of_mem _ hd, hs⟩

theorem Sound.close (hw : w.Sound x manifest) (hg : w.stage = .guarding g) : (w.close g).Sound x manifest := by
  obtain ⟨hf, hpast⟩ := hw.fits g hg
  refine ⟨hw.present, fun g' hg' => ?_⟩
  cases hg'
  exact ⟨⟨hf.paths, hf.delay, by simp [Guard.close, Debouncer.cancel]⟩, hpast⟩

theorem Sound.step (hw : w.Sound x manifest) (hs : Step x manifest o w e v) : v.Sound x manifest := by
  cases hs with
  | compiled _ hx | fail _ hx => exact ⟨(External.compile_same hx).1 ▸ hw.present, fun _ hg => by cases hg⟩
  | watch hg hx =>
    obtain ⟨ls, hls, rfl⟩ := Watching.start_ok hx
    refine ⟨hw.present, fun g hg => ?_⟩
    cases hg
    exact ⟨⟨rfl, rfl, by simp [Guard.start, Debouncer.new]⟩, _, hw.present, hls⟩
  | unwatched => exact ⟨hw.present, fun _ hg => by cases hg⟩
  | guard hg hx =>
    obtain ⟨hf, d, hd, hseen⟩ := hw.fits _ hg
    refine ⟨hw.present, fun g' hg' => ?_⟩
    cases hg'
    refine ⟨hf.step hx, ?_⟩
    obtain hsame | ⟨changed, rfl⟩ := hx.seen_or
    · exact ⟨d, hd, by rw [hsame, hseen]⟩
    · exact ⟨_, hw.present, hf.paths ▸ hx.seen_of_poll⟩
  | finish hg hphase hx =>
    obtain ⟨hf, hpast⟩ := hw.fits _ hg
    refine ⟨(External.recompile_same hx).1 ▸ hw.present, fun g' hg' => ?_⟩
    cases hg'
    exact ⟨⟨hf.paths, hf.delay, by simpa [hphase] using hf.closed⟩, hpast⟩
  | @crash g f h hg hphase hx =>
    have hw' : Sound x manifest { w with host := h } := ⟨(External.recompile_same hx).1 ▸ hw.present, hw.fits⟩
    exact hw'.close hg
  | leave hg => exact hw.close hg
  | interrupt hg => exact hw.close hg
  | stop => exact ⟨hw.present, hw.fits⟩
  | edit => exact hw.join _
  | disturb => exact hw.join _
  | elsewhere => exact hw.join _

theorem Sound.run (hw : w.Sound x manifest) (hr : Runs (Step x manifest o) w es v) : v.Sound x manifest := by
  induction hr with
  | none => exact hw
  | more _ hs ih => exact ih.step hs

/-- What the guard does by itself is done in the watch build. -/
theorem run_guard {g' : Guard} (hg : w.stage = .guarding g) (hr : Runs (Guard.Step w.host) g es g') :
    Runs (Step x manifest o) w es { w with stage := .guarding g' } := by
  induction hr with
  | none =>
    rw [← hg]
    exact .none
  | more _ hs ih => exact ih.more (.guard rfl hs)

/-- The first compilation and the start of the watcher. -/
theorem run_start {h h' : Host} {content : Bool} {ls : Listing} (hx : x.compile manifest o h = (.ok content, h'))
    (hs : h.disk.snapshot (External.watchPaths manifest) = .ok ls) (past : List Disk) :
    Runs (Step x manifest o) ⟨h, .first, past⟩ [.compiled, .watch]
      ⟨h', .guarding (.start ⟨⟨External.watchPaths manifest, ls, x.pollInterval⟩, .new x.debounce, false⟩), past⟩ := by
  rw [← (External.compile_same hx).1] at hs
  refine (Runs.one (.compiled rfl hx)).more (.watch rfl ?_)
  simp only [Watching.start, Watcher.start, hs, Except.map]

/-- An idle loop whose files have changed can compile them and be idle again. -/
theorem run_rebuilt {h : Host} {ls : Listing} (hw : w.Sound x manifest) (hg : w.stage = .guarding g) (hr : g.Rests)
    (hp : g.poller = .resting) (hst : w.host.stopped = false) (hd : (Binary64.ofInt x.debounce).isInfinite = false)
    (hs : w.host.disk.snapshot (External.watchPaths manifest) = .ok ls) (hn : ls ≠ g.seen)
    (hx : x.recompile manifest o w.host = (.ok (), h)) :
    ∃ v, Runs (Step x manifest o) w [.poll true, .notice, .deliver true, .signal, .wake, .take, .compile, .finish] v ∧
      v.Idle := by
  obtain ⟨hf, -⟩ := hw.fits g hg
  have hopen : g.watching.debouncer.closed = false :=
    Bool.eq_false_iff.2 fun hc => by cases hr.waiting.symm.trans (hf.closed.1 hc)
  obtain ⟨g', hrun, hphase, hrests⟩ := Guard.run_compiling hr hp hopen (hf.delay.symm ▸ hd) hst (hf.paths.symm ▸ hs) hn
  exact ⟨_, (run_guard hg hrun).more (.finish rfl hphase hx), (External.recompile_same hx).2.trans hst, _, rfl, hrests⟩

theorem mem_concat_iff {a : Event} : a ∈ ys ++ [e] ↔ a ∈ ys ∨ a = e := by
  rw [List.mem_append, List.mem_singleton]

theorem forall_of_concat {p : Event → Prop} (h : ∀ a ∈ ys ++ [e], p a) : (∀ a ∈ ys, p a) ∧ p e :=
  ⟨fun a ha => h a (mem_concat_iff.2 (.inl ha)), h e (mem_concat_iff.2 (.inr rfl))⟩

/-- The watcher, if there is one, has seen the files as they are. -/
def Seen (manifest : Path) (w : Vigil) : Prop :=
  ∀ g, w.stage = .guarding g → w.host.disk.snapshot (External.watchPaths manifest) = .ok g.seen

theorem Seen.close {h : Host} (hw : w.Seen manifest) (hd : h.disk = w.host.disk) (hg : w.stage = .guarding g) :
    (Vigil.close { w with host := h } g).Seen manifest := by
  rintro g' hg'
  cases hg'
  have hs := hw g hg
  rw [← hd] at hs
  exact hs

theorem Seen.step (h : w.Seen manifest) (hw : w.Sound x manifest) (hs : Step x manifest o w e v)
    (he : e.isChange = false) : v.Seen manifest := by
  cases hs with
  | compiled | fail | unwatched => exact fun _ hg => by cases hg
  | watch hg hx =>
    obtain ⟨ls, hls, rfl⟩ := Watching.start_ok hx
    rintro g hg
    cases hg
    exact hls
  | guard hg hx =>
    rintro g' hg'
    cases hg'
    obtain hsame | ⟨changed, rfl⟩ := hx.seen_or
    · rw [hsame]
      exact h _ hg
    · exact (hw.fits _ hg).1.paths ▸ hx.seen_of_poll
  | finish hg _ hx =>
    have hseen := h _ hg
    rw [← (External.recompile_same hx).1] at hseen
    rintro g' hg'
    cases hg'
    exact hseen
  | crash hg _ hx => exact h.close (External.recompile_same hx).1 hg
  | leave hg => exact h.close rfl hg
  | interrupt hg => exact h.close rfl hg
  | stop => exact h
  | edit | disturb => cases he
  | elsewhere _ hsnap => exact fun g hg => hsnap.trans (h g hg)

theorem Seen.of_poll {changed : Bool} (hw : w.Sound x manifest) (hs : Step x manifest o w (.poll changed) v) :
    v.Seen manifest := by
  generalize he : Event.poll changed = e at hs
  cases hs with
  | guard hg hx =>
    subst he
    rintro g' hg'
    cases hg'
    exact (hw.fits _ hg).1.paths ▸ hx.seen_of_poll
  | compiled | fail | watch | unwatched | finish | crash | leave | interrupt | stop | edit | disturb | elsewhere => cases he

theorem Seen.run (hw : w.Sound x manifest) (hr : Runs (Step x manifest o) w ys v) (hy : ∀ e ∈ ys, e.isChange = false)
    (hp : ∃ changed, .poll changed ∈ ys) : v.Seen manifest := by
  induction hr with
  | none => exact absurd hp.choose_spec List.not_mem_nil
  | more hr hs ih =>
    obtain ⟨hy, he⟩ := forall_of_concat hy
    obtain ⟨changed, hm⟩ := hp
    obtain hm | rfl := mem_concat_iff.1 hm
    · exact (ih hy ⟨changed, hm⟩).step (hw.run hr) hs he
    · exact .of_poll (hw.run hr) hs

/-- What holds from an edit on, by the events since: if the watcher has seen the files as they are, then a compilation was
started since, or something is under way, or the loop is at its end. -/
inductive Stirred (manifest : Path) (ys : List Event) (v : Vigil) : Prop where
  | of {g : Guard} : v.stage = .guarding g →
      (v.host.disk.snapshot (External.watchPaths manifest) = .ok g.seen →
        g.Roused ∨ g.phase = .over ∨ v.host.stopped = true ∨ .compile ∈ ys) → Stirred manifest ys v

/-- An event that keeps what was seen and what there is. -/
theorem Stirred.pass {g' : Guard} (h : Stirred manifest ys w) (hg : w.stage = .guarding g) (hv : v.stage = .guarding g')
    (hseen : g'.seen = g.seen)
    (hdisk : v.host.disk.snapshot (External.watchPaths manifest) = w.host.disk.snapshot (External.watchPaths manifest))
    (hstop : w.host.stopped = true → v.host.stopped = true) (hover : g.phase = .over → g'.phase = .over)
    (hrouse : g.Roused → g'.Roused ∨ g'.phase = .over ∨ e = .compile) : Stirred manifest (ys ++ [e]) v := by
  obtain @⟨g₀, hg₀, hanswer⟩ := h
  cases hg.symm.trans hg₀
  refine .of hv fun hs => ?_
  rw [hdisk, hseen] at hs
  obtain hr | ho | hst | hc := hanswer hs
  · obtain hr | ho | rfl := hrouse hr
    · exact .inl hr
    · exact .inr (.inl ho)
    · exact .inr (.inr (.inr (mem_concat_iff.2 (.inr rfl))))
  · exact .inr (.inl (hover ho))
  · exact .inr (.inr (.inl (hstop hst)))
  · exact .inr (.inr (.inr (mem_concat_iff.2 (.inl hc))))

theorem Stirred.close {h : Host} (hd : h.disk = w.host.disk) (hs : Stirred manifest ys w) (hg : w.stage = .guarding g) :
    Stirred manifest (ys ++ [.leave]) (Vigil.close { w with host := h } g) :=
  hs.pass hg rfl rfl (by rw [← hd]; rfl) (fun _ => rfl) (fun _ => rfl) fun _ => .inr (.inl rfl)

/-- A step of the guard. A poll that sees something new rouses the loop. -/
theorem Stirred.guard {g' : Guard} {s : Binary64} (h : Stirred manifest ys w) (hf : g.Fits x manifest)
    (hd : Delay.seconds x.debounce = .ok s) (hg : w.stage = .guarding g) (hx : Guard.Step w.host g e g') :
    Stirred manifest (ys ++ [e]) { w with stage := .guarding g' } := by
  by_cases hseen : g'.seen = g.seen
  · refine h.pass hg rfl hseen rfl (fun hst => hst) hx.over fun hr => ?_
    by_cases ho : g.phase = .over
    · exact .inr (.inl (hx.over ho))
    · exact (hr.step hf ho hd hx).imp_right .inr
  · obtain ⟨changed, rfl⟩ := hx.seen_or.resolve_left hseen
    exact .of rfl fun _ => .inl (hx.roused_of_poll hseen)

theorem Stirred.step {s : Binary64} (h : Stirred manifest ys w) (hw : w.Sound x manifest)
    (hd : Delay.seconds x.debounce = .ok s) (hs : Step x manifest o w e v) (he : e.isChange = false) :
    Stirred manifest (ys ++ [e]) v := by
  obtain @⟨g₀, hg₀, -⟩ := id h
  cases hs with
  | compiled hg | fail hg | watch hg | unwatched hg =>
    rw [hg] at hg₀
    cases hg₀
  | guard hg hx => exact h.guard (hw.fits _ hg).1 hd hg hx
  | finish hg hphase hx =>
    obtain ⟨hdisk, hstop⟩ := External.recompile_same hx
    exact h.pass hg rfl rfl (by rw [← hdisk]) (fun hst => hstop.trans hst)
      (fun ho => by rw [hphase] at ho; cases ho) fun hr => .inl (hr.resume hphase)
  | crash hg hphase hx => exact h.close (External.recompile_same hx).1 hg
  | leave hg => exact h.close rfl hg
  | interrupt hg => exact h.close rfl hg
  | stop => exact h.pass hg₀ hg₀ rfl rfl (fun _ => rfl) (fun ho => ho) .inl
  | edit | disturb => cases he
  | elsewhere hst hsnap => exact h.pass hg₀ hg₀ rfl hsnap (fun h => hst.trans h) (fun ho => ho) .inl

theorem Stirred.run {s : Binary64} (h : Stirred manifest [] w) (hw : w.Sound x manifest)
    (hd : Delay.seconds x.debounce = .ok s) (hr : Runs (Step x manifest o) w ys v)
    (hy : ∀ e ∈ ys, e.isChange = false) : Stirred manifest ys v := by
  induction hr with
  | none => exact h
  | more hr hs ih =>
    obtain ⟨hy, he⟩ := forall_of_concat hy
    exact (ih hy).step (hw.run hr) hd hs he

theorem Idle.compiled (hi : v.Idle) (h : Stirred manifest ys v) (hseen : v.Seen manifest) : .compile ∈ ys := by
  obtain ⟨hst, g, hg, hrests⟩ := hi
  obtain @⟨g₀, hg₀, hanswer⟩ := h
  cases hg.symm.trans hg₀
  obtain hr | ho | hst' | hc := hanswer (hseen g hg)
  · exact absurd hr hrests.not_roused
  · rw [hrests.waiting] at ho
    cases ho
  · rw [hst] at hst'
    cases hst'
  · exact hc

/-- Nothing is under way. -/
def Calm (w : Vigil) : Prop :=
  ∀ g, w.stage = .guarding g → g.Calm

theorem calm_start (h : Host) : (start h).Calm := fun _ hg => by cases hg

theorem Calm.close (h : w.Calm) (hg : w.stage = .guarding g) : (w.close g).Calm := by
  rintro g' hg'
  cases hg'
  exact (h g hg).close

theorem Calm.not_compiling (h : w.Calm) (hg : w.stage = .guarding g) : g.phase ≠ .compiling := by
  intro hc
  have hphase := (h g hg).phase
  rw [hc] at hphase
  obtain hphase | hphase := hphase <;> cases hphase

theorem Calm.step (h : w.Calm) (hw : w.Sound x manifest) (hs : Step x manifest o w e v)
    (hq : (∀ g, w.stage = .guarding g → g.poller ≠ .noticed) ∨ ∀ s, Delay.seconds x.debounce ≠ .ok s) :
    v.Calm ∧ e ≠ .compile := by
  cases hs with
  | compiled | fail | unwatched => exact ⟨fun _ hg => (by cases hg), nofun⟩
  | watch hg hx =>
    obtain ⟨ls, hls, rfl⟩ := Watching.start_ok hx
    refine ⟨fun g hg => ?_, nofun⟩
    cases hg
    exact Guard.calm_start rfl rfl
  | guard hg hx =>
    obtain ⟨hc, hne⟩ := (h _ hg).step (hw.fits _ hg).1 hx (hq.imp_left fun hn => hn _ hg)
    refine ⟨fun g' hg' => ?_, hne⟩
    cases hg'
    exact hc
  | finish hg hphase => exact absurd hphase (h.not_compiling hg)
  | crash hg hphase => exact absurd hphase (h.not_compiling hg)
  | leave hg => exact ⟨h.close hg, nofun⟩
  | interrupt hg => exact ⟨h.close hg, nofun⟩
  | stop | edit | disturb | elsewhere => exact ⟨h, nofun⟩

/-- The watcher has seen the files as they are, and there is no change that it has yet to report. -/
structure Current (manifest : Path) (w : Vigil) : Prop where
  seen : w.Seen manifest
  unnoticed : ∀ g, w.stage = .guarding g → g.poller ≠ .noticed

theorem Current.step (h : w.Current manifest) (hw : w.Sound x manifest) (hs : Step x manifest o w e v)
    (he : e.isChange = false) : v.Current manifest := by
  refine ⟨h.seen.step hw hs he, ?_⟩
  cases hs with
  | compiled | fail | unwatched => exact fun _ hg => by cases hg
  | watch =>
    rintro g hg
    cases hg
    exact nofun
  | guard hg hx =>
    rintro g' hg'
    cases hg'
    exact hx.unnoticed (h.unnoticed _ hg) ((hw.fits _ hg).1.paths.symm ▸ h.seen _ hg)
  | @finish g _ hg =>
    rintro g' hg'
    cases hg'
    exact h.unnoticed g hg
  | @crash g _ _ hg | @leave g hg | @interrupt g hg =>
    rintro g' hg'
    cases hg'
    exact h.unnoticed g hg
  | stop | elsewhere => exact h.unnoticed
  | edit | disturb => cases he

/-- As long as the files are as the watcher has seen them, nothing is compiled. -/
theorem Current.run (h : w.Current manifest) (hc : w.Calm) (hw : w.Sound x manifest)
    (hr : Runs (Step x manifest o) w ys v) (hy : ∀ e ∈ ys, e.isChange = false) :
    v.Current manifest ∧ v.Calm ∧ .compile ∉ ys := by
  induction hr with
  | none => exact ⟨h, hc, List.not_mem_nil⟩
  | more hr hs ih =>
    obtain ⟨hy, he⟩ := forall_of_concat hy
    obtain ⟨hcurrent, hcalm, hno⟩ := ih hy
    obtain ⟨hcalm', hne⟩ := hcalm.step (hw.run hr) hs (.inl hcurrent.unnoticed)
    exact ⟨hcurrent.step (hw.run hr) hs he, hcalm', fun hm => (mem_concat_iff.1 hm).elim hno hne.symm⟩

/-- With a delay that no timer can be given, nothing is ever compiled again. -/
theorem Calm.run (h : w.Calm) (hw : w.Sound x manifest) (hd : ∀ s, Delay.seconds x.debounce ≠ .ok s)
    (hr : Runs (Step x manifest o) w ys v) : v.Calm ∧ .compile ∉ ys := by
  induction hr with
  | none => exact ⟨h, List.not_mem_nil⟩
  | more hr hs ih =>
    obtain ⟨hcalm, hno⟩ := ih
    obtain ⟨hcalm', hne⟩ := hcalm.step (hw.run hr) hs (.inr hd)
    exact ⟨hcalm', fun hm => (mem_concat_iff.1 hm).elim hno hne.symm⟩

theorem Idle.calm (hi : v.Idle) : v.Calm := by
  obtain ⟨-, g, hg, hrests⟩ := hi
  intro g' hg'
  cases hg.symm.trans hg'
  exact ⟨.inl hrests.waiting, hrests.unsignalled, hrests.unset, hrests.settled⟩

theorem Idle.current (hi : v.Idle) (hseen : v.Seen manifest) : v.Current manifest := by
  obtain ⟨-, g, hg, hrests⟩ := hi
  refine ⟨hseen, fun g' hg' => ?_⟩
  cases hg.symm.trans hg'
  exact hrests.unnoticed

theorem watch_mem_iff_step (hs : Step x manifest o w e v) :
    (∃ g, v.stage = .guarding g) ↔ (∃ g, w.stage = .guarding g) ∨ e = .watch := by
  cases hs with
  | compiled hg | fail hg | unwatched hg => simp [hg]
  | watch => simp
  | guard hg => simp [hg]
  | finish hg => simp [hg]
  | crash hg => simp [hg, close]
  | leave hg => simp [hg, close]
  | interrupt hg => simp [hg, close]
  | stop | disturb | elsewhere | edit => simp [setDisk]

/-- The watcher was started just if there is a guard. -/
theorem watch_mem_iff {h : Host} (hr : Runs (Step x manifest o) (start h) es w) :
    .watch ∈ es ↔ ∃ g, w.stage = .guarding g := by
  induction hr with
  | none => simp [start]
  | more _ hs ih => rw [mem_concat_iff, ih, watch_mem_iff_step hs, eq_comm]

/-- A file that a path stands for is in the listing. -/
theorem mem_snapshot_of_shows {d : Disk} {ps : List Path} {q : Path} {t : Int} {ls : Listing} (hs : d.Shows ps t q)
    (h : d.snapshot ps = .ok ls) : (q, t) ∈ ls := by
  rw [Disk.mem_snapshot h]
  cases hs with
  | itself hp hl => exact ⟨Disk.modified?_of_look hl, q, hp, _, Disk.filesAt_of_look hl, List.mem_singleton_self q⟩
  | @below p l k names n content hp hl hne hg hn hq =>
    exact ⟨Disk.modified?_of_look hq, p, hp, _, Disk.filesAt_of_directory hl, Disk.mem_filesBelow hne hg hn⟩

theorem step_edit {q : Path} {t : Int} (hs : Step x manifest o w (.edit q t) v) :
    ∃ d : Disk, d.Shows (External.watchPaths manifest) t q ∧ (∀ d' ∈ w.past, d'.modified? q ≠ some t) ∧
      v = w.setDisk d := by
  generalize he : Event.edit q t = e at hs
  cases hs with
  | edit hshows hfresh =>
    cases he
    exact ⟨_, hshows, hfresh, rfl⟩
  | guard _ hx => subst he; cases hx
  | compiled | fail | watch | unwatched | finish | crash | leave | interrupt | stop | disturb | elsewhere => cases he

theorem step_of_writeFile {d : Disk} {q : Path} {content : ByteArray} {t : Int} (hq : q ∈ External.watchPaths manifest)
    (h : w.host.disk.writeFile q content t = .ok d) (hfresh : ∀ d' ∈ w.past, d'.modified? q ≠ some t) :
    Step x manifest o w (.edit q t) (w.setDisk d) :=
  let ⟨_, hl⟩ := Disk.look_writeFile h
  .edit (.itself hq hl) hfresh

/-- Before the watcher is started an edit is not seen. -/
theorem not_compiled_of_unguarded (hw : w.Sound x manifest) (hn : ∀ g, w.stage ≠ .guarding g)
    (hr : Runs (Step x manifest o) w ys v) (hy : ∀ e ∈ ys, e.isChange = false) : .compile ∉ ys := by
  have hcurrent : w.Current manifest := ⟨fun g hg => absurd hg (hn g), fun g hg => absurd hg (hn g)⟩
  have hcalm : w.Calm := fun g hg => absurd hg (hn g)
  exact (hcurrent.run hcalm hw hr hy).2.2

/-- An edit shows in every listing after it and in none before it. -/
theorem stirred_edit {d : Disk} {q : Path} {t : Int} (hw : w.Sound x manifest) (hg : w.stage = .guarding g)
    (hshows : d.Shows (External.watchPaths manifest) t q) (hfresh : ∀ d' ∈ w.past, d'.modified? q ≠ some t) :
    Stirred manifest [] (w.setDisk d) := by
  obtain ⟨-, d₀, hd₀, hseen⟩ := hw.fits g hg
  refine .of hg fun hsame => ?_
  have hmem : (q, t) ∈ g.seen := mem_snapshot_of_shows hshows hsame
  exact absurd ((Disk.mem_snapshot hseen).1 hmem).1 (hfresh d₀ hd₀)

/-- The path of a manifest on a machine that has none. -/
def manifestPath : Path :=
  ⟨.rooted, [Package.manifestName]⟩

theorem look_manifest (c : Bool) : Host.bare.disk.look ⟨true, c⟩ manifestPath = .ok (.absent [] Package.manifestName) :=
  Disk.look_eq_ok.2 ⟨by decide, by decide, .absent ⟨by decide, by decide, by cases c <;> decide, by decide⟩ rfl⟩

/-- The files of that machine with the manifest written. -/
def written : Disk :=
  { Host.bare.disk with tree := Host.bare.disk.tree.put [Package.manifestName] (.file .empty 1) }

theorem writeFile_manifest : Host.bare.disk.writeFile manifestPath .empty 1 = .ok written :=
  Disk.writeFile_of_look (look_manifest true) rfl .empty 1

theorem look_written : written.look ⟨true, false⟩ manifestPath = .ok (.found [Package.manifestName] (.file .empty 1)) :=
  Disk.look_eq_ok.2 ⟨by decide, by decide, .file ⟨by decide, by decide, by decide, by decide⟩ rfl⟩

theorem look_source {t : Tree} (h : t.get? [Package.sourceDirectory] = none) :
    (Disk.mk t [] 950).look ⟨true, false⟩ (manifestPath.parent.child Package.sourceDirectory) =
      .ok (.absent [] Package.sourceDirectory) :=
  Disk.look_eq_ok.2 ⟨by decide, by decide, .absent ⟨by decide, by decide, by decide, by decide⟩ h⟩

theorem snapshot_bare : Host.bare.disk.snapshot (External.watchPaths manifestPath) = .ok [] := by
  have hs : Host.bare.disk.filesAt _ = _ := Disk.filesAt_of_absent (look_source (t := Host.bare.disk.tree) rfl)
  have hm := Disk.filesAt_of_absent (look_manifest false)
  simp only [Disk.snapshot, External.watchPaths, List.mapM_cons, List.mapM_nil, hs, hm]
  rfl

theorem snapshot_written : written.snapshot (External.watchPaths manifestPath) = .ok [(manifestPath, 1)] := by
  have hs : written.filesAt _ = _ := Disk.filesAt_of_absent (look_source (t := written.tree) rfl)
  have hm := Disk.filesAt_of_look look_written
  simp only [Disk.snapshot, External.watchPaths, List.mapM_cons, List.mapM_nil, hs, hm]
  simp [pure, Except.pure, bind, Except.bind, Disk.modified?_of_look look_written, Listing.ofList, Listing.insert]

/-- Before it is written the manifest has no time. -/
theorem fresh_manifest : ∀ d ∈ [Host.bare.disk], d.modified? manifestPath ≠ some 1 := by
  intro d hd
  rw [List.mem_singleton.1 hd, Disk.modified?_of_absent (look_manifest false)]
  nofun

/-- A compiler with a delay that a timer can be given. -/
def munc : External :=
  ⟨["munc"], ["mun-language-server"], .zero, Delay.standard, Host.bare.platform.loader⟩

theorem finite_munc : (Binary64.ofInt munc.debounce).isInfinite = false := by decide

theorem seconds_munc : ∃ s, Delay.seconds munc.debounce = .ok s :=
  ⟨_, by rw [Delay.seconds, finite_munc]; rfl⟩

/-- An edit is followed by a compilation just if the watcher was started before it and a timer can be given the delay. What
was not compiled when the loop is idle after a poll is not compiled at all before the next change. -/
theorem rebuilt_iff {h : Host} {q : Path} {t : Int}
    (hr : Runs (Step x manifest o) (start h) (xs ++ .edit q t :: ys) v) (hy : ∀ e ∈ ys, e.isChange = false)
    (hi : v.Idle) (hp : ∃ changed, .poll changed ∈ ys) :
    (.compile ∈ ys ↔ .watch ∈ xs ∧ ∃ s, Delay.seconds x.debounce = .ok s) ∧
      ∀ zs u, Runs (Step x manifest o) v zs u → (∀ e ∈ zs, e.isChange = false) → .compile ∉ zs := by
  obtain ⟨u, w, hx, hs, hrest⟩ := hr.split
  have hu := (sound_start h).run hx
  have hw := hu.step hs
  have hseen := Seen.run hw hrest hy hp
  obtain ⟨d, hshows, hfresh, rfl⟩ := step_edit hs
  refine ⟨⟨fun hc => ⟨?_, ?_⟩, ?_⟩, fun zs u hz hquiet => ?_⟩
  · -- Without a watcher there is no listing from before the edit.
    by_contra hno
    have hnone : ∀ g, u.stage ≠ .guarding g := fun g hg => hno ((watch_mem_iff hx).2 ⟨g, hg⟩)
    exact not_compiled_of_unguarded hw hnone hrest hy hc
  · -- A delay that no timer can be given never lets a change through, whenever it was made.
    by_contra hno
    have hlate : ∀ s, Delay.seconds x.debounce ≠ .ok s := fun s hs => hno ⟨s, hs⟩
    exact ((calm_start h).run (sound_start h) hlate hr).2 (List.mem_append_right _ (List.mem_cons_of_mem _ hc))
  · rintro ⟨hwatch, s, hsec⟩
    obtain ⟨g, hg⟩ := (watch_mem_iff hx).1 hwatch
    exact hi.compiled ((stirred_edit hu hg hshows hfresh).run hw hsec hrest hy) hseen
  · exact ((hi.current hseen).run hi.calm (hw.run hrest) hz hquiet).2.2

/-- A manifest that is written while the loop waits is compiled, and then the loop rests. -/
theorem rebuilt_after_edit :
    ∃ (o : CompileOptions) (v : Vigil) (ys : List Event), v.Idle ∧
      Runs (Step munc manifestPath o) (start .bare) ([.compiled, .watch] ++ .edit manifestPath 1 :: ys) v ∧
      .compile ∈ ys ∧ ∀ zs u, Runs (Step munc manifestPath o) v zs u → (∀ e ∈ zs, e.isChange = false) → .compile ∉ zs := by
  let o : CompileOptions := ⟨⟨"x86_64-unknown-linux-gnu"⟩, .default, none, .auto⟩
  obtain ⟨h, hx, hl⟩ := munc.compile_of_no_launches manifestPath o (h := .bare) rfl
  obtain ⟨hdisk, hstop⟩ := External.compile_same hx
  have hstart := run_start hx snapshot_bare [Host.bare.disk]
  have hwrite := hdisk.symm ▸ writeFile_manifest
  have hedit := hstart.more (step_of_writeFile List.mem_cons_self hwrite fresh_manifest)
  obtain ⟨h', hx'⟩ := munc.recompile_of_no_launches manifestPath o (h := { h with disk := written }) hl
  obtain ⟨v, hrest, hi⟩ := run_rebuilt ((sound_start _).run hedit) rfl (Guard.rests_start rfl rfl) rfl hstop finite_munc
    snapshot_written (List.cons_ne_nil _ _) hx'
  have hr : Runs (Step munc manifestPath o) (start .bare) ([.compiled, .watch] ++ .edit manifestPath 1 ::
      [.poll true, .notice, .deliver true, .signal, .wake, .take, .compile, .finish]) v := hedit.trans hrest
  obtain ⟨hiff, hquiet⟩ := rebuilt_iff hr (by decide) hi ⟨true, List.mem_cons_self⟩
  exact ⟨o, v, _, hi, hr, hiff.2 ⟨List.mem_cons_of_mem _ List.mem_cons_self, seconds_munc⟩, hquiet⟩

/-- A manifest that is written while the compiler runs for the first time is not compiled. -/
theorem rebuilt_fails :
    ∃ (o : CompileOptions) (v : Vigil), v.Idle ∧
      Runs (Step munc manifestPath o) (start .bare) [.edit manifestPath 1, .compiled, .watch, .poll false] v := by
  let o : CompileOptions := ⟨⟨"x86_64-unknown-linux-gnu"⟩, .default, none, .auto⟩
  have hedit : Runs (Step munc manifestPath o) (start .bare) [.edit manifestPath 1] ((start .bare).setDisk written) :=
    .one (step_of_writeFile List.mem_cons_self writeFile_manifest fresh_manifest)
  obtain ⟨h, hx, -⟩ := munc.compile_of_no_launches manifestPath o (h := { Host.bare with disk := written }) rfl
  obtain ⟨hdisk, hstop⟩ := External.compile_same hx
  have hstart := hedit.trans (run_start hx snapshot_written _)
  have hpoll := hstart.more (.guard rfl (.of_seen rfl (by rw [hdisk]; exact snapshot_written)))
  exact ⟨o, _, ⟨hstop, _, rfl, Guard.rests_start rfl rfl⟩, hpoll⟩

end Hotload.Vigil
