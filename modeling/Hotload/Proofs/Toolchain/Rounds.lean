import Hotload.Proofs.Files.Names
import Hotload.Proofs.Toolchain.WatchLoop
import Hotload.Watcher.Run

/-!
The rounds of the watch loop. The loop wakes, takes the signal, starts the compiler and comes to the end of that, over and
over, until it is left somewhere in a round; then it does nothing more. A signal is there just if one was given since the
last was taken, so that all those given in the course of a compilation make one more round. However the loop is left, a
stop is requested by then, so that the watcher ends, and the debouncer is cancelled.
-/
namespace Hotload

/-- A watcher that has to stop does nothing more. -/
theorem Watcher.run_of_stopped (w : Watcher) (ts : List Tick) {h : Host} (hs : h.stopped = true) :
    w.run ts h = (.ok (), h) := by
  cases ts with
  | nil =>
    obtain ⟨_, _, _, _, _, stopped, _⟩ := h
    cases hs
    rfl
  | cons t ts =>
    rw [run, Action.bind_eq, Action.get_eq]
    dsimp only
    rw [if_pos hs]
    rfl

namespace External

variable {x : External} {manifest : Files.Path} {o : CompileOptions} {h h' : Host}

theorem recompile_eq (x : External) (manifest : Files.Path) (o : CompileOptions) (h : Host) :
    x.recompile manifest o h =
      match x.compile manifest o h with
      | (.ok _, h') => (.ok (), h')
      | (.error f, h') =>
        if f.kind = .own .compile then
          Action.log (Log.error logger "watch_compile_failed"
            (Log.extra [("manifest", .path manifest), ("error", .text f.message)])) h'
        else (.error f, h') := by
  rw [recompile, Action.bind_eq, Action.attempt_eq]
  rcases x.compile manifest o h with ⟨f | b, h'⟩
  · dsimp only
    split <;> rfl
  · rfl

/-- A compiler that cannot be started does not end the loop, whatever it is content with does not either. -/
theorem recompile_ok {r : Outcome Bool} (hx : x.compile manifest o h = (r, h'))
    (hr : ∀ f, r = .error f → f.kind = .own .compile) : ∃ h'', x.recompile manifest o h = (.ok (), h'') := by
  rw [recompile_eq, hx]
  cases r with
  | ok b => exact ⟨h', rfl⟩
  | error f => exact ⟨_, if_pos (hr f rfl)⟩

theorem recompile_error {f : Failure} (hx : x.recompile manifest o h = (.error f, h')) :
    f.kind ≠ .own .compile ∧ x.compile manifest o h = (.error f, h') := by
  rw [recompile_eq] at hx
  rcases hc : x.compile manifest o h with ⟨e | b, h₁⟩
  · rw [hc] at hx
    dsimp only at hx
    split at hx
    · cases hx
    · next hk =>
      cases hx
      exact ⟨hk, rfl⟩
  · rw [hc] at hx
    cases hx

/-- The first compilation fails, or the first listing does, or the loop is entered, and then a stop is requested at the end
and the outcome is a failure or that all went well. -/
theorem watchBuild_cases (x : External) (manifest : Files.Path) (o : CompileOptions) (h : Host) :
    (∃ f h₁, x.compile manifest o h = (.error f, h₁) ∧ x.watchBuild manifest o h = (.error f, h₁)) ∨
      ∃ c h₁, x.compile manifest o h = (.ok c, h₁) ∧
        ((∃ f, Watching.start h₁.disk manifest x.pollInterval x.debounce = .error f ∧ x.watchBuild manifest o h = (.error f, h₁)) ∨
          ∃ ws, Watching.start h₁.disk manifest x.pollInterval x.debounce = .ok ws ∧ (x.watchBuild manifest o h).2.stopped = true ∧
            ∀ b, (x.watchBuild manifest o h).1 = .ok b → b = true) := by
  unfold watchBuild
  rcases hx : x.compile manifest o h with ⟨f | c, h₁⟩
  · exact .inl ⟨f, h₁, rfl, Action.bind_of_error hx⟩
  · refine .inr ⟨c, h₁, rfl, ?_⟩
    rw [Action.bind_of_ok hx, Action.bind_eq, Action.ask_eq]
    cases hs : Watching.start h₁.disk manifest x.pollInterval x.debounce with
    | error f => exact .inl ⟨f, rfl, rfl⟩
    | ok ws =>
      refine .inr ⟨ws, rfl, ?_⟩
      dsimp only
      rw [Action.bind_of_ok (show Action.log _ h₁ = (.ok (), _) from rfl), Action.bind_of_ok (Action.get_eq _), Action.bind_eq,
        Action.andFinally_stop]
      split
      · next hy =>
        obtain ⟨-, rfl⟩ := Prod.mk.inj hy
        exact ⟨rfl, fun b hb => (Except.ok.inj hb).symm⟩
      · next hy =>
        obtain ⟨-, rfl⟩ := Prod.mk.inj hy
        exact ⟨rfl, nofun⟩

end External

namespace Vigil

open Files

variable {x : External} {manifest : Path} {o : CompileOptions} {h : Host}
variable {w u v : Vigil} {g g' : Guard} {e : Event} {es xs ys : List Event} {p : Phase}

/-- What the loop itself does. -/
def Event.isLoop : Event → Bool
  | .wake | .take | .compile | .finish | .leave => true
  | _ => false

def Event.isTake : Event → Bool
  | .take => true
  | _ => false

def Event.isCompile : Event → Bool
  | .compile => true
  | _ => false

/-- Compilations that were started, with the first one that a build starts with. -/
def compilations (es : List Event) : Nat :=
  1 + es.countP Event.isCompile

def round : List Event := [.wake, .take, .compile, .finish]

/-- The part of a round that is done in a phase. -/
def Phase.done : Phase → List Event
  | .woken => [.wake]
  | .ready => [.wake, .take]
  | .compiling => [.wake, .take, .compile]
  | .waiting | .over => []

/-- Signals that were taken in this round with the compiler not started yet. -/
def Phase.owes : Phase → Nat
  | .ready => 1
  | _ => 0

theorem filter_idle (es : List Event) (he : e.isLoop = false) : (es ++ [e]).filter Event.isLoop = es.filter Event.isLoop := by
  simp [List.filter_append, he]

/-- The loop has done whole rounds and come to a phase of the next. It is still there, or it was left there. -/
inductive Rounds (es : List Event) (p : Phase) : Phase → Prop where
  | going {n : Nat} : p ≠ .over → es.filter Event.isLoop = (List.replicate n round).flatten ++ p.done → Rounds es p p
  | left {n : Nat} : p ≠ .over →
      es.filter Event.isLoop = (List.replicate n round).flatten ++ p.done ++ [.leave] → Rounds es p .over

namespace Rounds

variable {q : Phase}

theorem idle (h : Rounds es p q) (he : e.isLoop = false) : Rounds (es ++ [e]) p q := by
  cases h with
  | going hp hes => exact .going hp ((filter_idle es he).trans hes)
  | left hp hes => exact .left hp ((filter_idle es he).trans hes)

theorem going_iff (hq : q ≠ .over) : Rounds es p q ↔
    p = q ∧ ∃ n, es.filter Event.isLoop = (List.replicate n round).flatten ++ q.done := by
  constructor
  · rintro (⟨hp, hes⟩ | ⟨hp, hes⟩)
    · exact ⟨rfl, _, hes⟩
    · exact absurd rfl hq
  · rintro ⟨rfl, n, hes⟩
    exact .going hq hes

/-- The next thing in a round is done. -/
theorem next {q' : Phase} (h : Rounds es p q) (hq : q ≠ .over) (hq' : q' ≠ .over) (he : e.isLoop = true)
    (hd : q.done ++ [e] = q'.done) : Rounds (es ++ [e]) q' q' := by
  obtain ⟨-, n, hes⟩ := (going_iff hq).1 h
  refine .going (n := n) hq' ?_
  rw [List.filter_append, hes, List.append_assoc, ← hd]
  simp [he]

theorem finish (h : Rounds es p .compiling) : Rounds (es ++ [.finish]) .waiting .waiting := by
  obtain ⟨-, n, hes⟩ := (going_iff (q := .compiling) nofun).1 h
  refine .going (n := n + 1) nofun ?_
  rw [List.filter_append, hes, List.replicate_succ', List.flatten_append]
  simp [Event.isLoop, Phase.done, round]

theorem leave (h : Rounds es p q) (hq : q ≠ .over) : Rounds (es ++ [.leave]) q .over := by
  obtain ⟨-, n, hes⟩ := (going_iff hq).1 h
  refine .left (n := n) hq ?_
  rw [List.filter_append, hes]
  rfl

/-- Every signal that was taken has had its compilation, but for the one of this round. -/
theorem countP_take (h : Rounds es p q) : es.countP Event.isTake = es.countP Event.isCompile + p.owes := by
  have hloop (f : Event → Bool) (hf : ∀ e, f e = true → e.isLoop = true) :
      es.countP f = (es.filter Event.isLoop).countP f := by
    rw [List.countP_filter]
    refine List.countP_congr fun e _ => ?_
    simp only [Bool.and_eq_true]
    exact ⟨fun he => ⟨he, hf e he⟩, And.left⟩
  have hround (n : Nat) : (List.replicate n round).flatten.countP Event.isTake =
      (List.replicate n round).flatten.countP Event.isCompile := by
    simp only [List.countP_flatten, List.map_replicate]
    rfl
  have hdone : p.done.countP Event.isTake = p.done.countP Event.isCompile + p.owes := by cases p <;> rfl
  rw [hloop Event.isTake (by rintro ⟨⟩ <;> simp [Event.isTake, Event.isLoop]),
    hloop Event.isCompile (by rintro ⟨⟩ <;> simp [Event.isCompile, Event.isLoop])]
  cases h with
  | going _ hes =>
    rw [hes, List.countP_append, List.countP_append, hround, hdone, Nat.add_assoc]
  | left _ hes =>
    have hleave : [Event.leave].countP Event.isTake = [Event.leave].countP Event.isCompile := rfl
    rw [hes]
    simp only [List.countP_append, hround, hdone, hleave]
    omega

end Rounds

theorem Guard.Step.rounds (hs : Guard.Step h g e g') (hr : Rounds es p g.phase) :
    ∃ q, Rounds (es ++ [e]) q g'.phase := by
  cases hs with
  | wake hw | take hw | compile hw =>
    rw [hw] at hr
    exact ⟨_, hr.next nofun nofun rfl rfl⟩
  | poll | blind | notice | stall | deliver | signal => exact ⟨p, hr.idle rfl⟩

/-- The loop is in the round that its events have come to; where there is no loop, it has done nothing. -/
def Turns (es : List Event) : Stage → Prop
  | .guarding g => ∃ p, Rounds es p g.phase
  | .first | .compiled | .failed => es.filter Event.isLoop = []

namespace Turns

variable {s : Stage}

theorem unguarded (h : Turns es s) (hs : ∀ g, s ≠ .guarding g) : es.filter Event.isLoop = [] := by
  cases s with
  | guarding g => exact absurd rfl (hs g)
  | first | compiled | failed => exact h

theorem idle (h : Turns es s) (he : e.isLoop = false) : Turns (es ++ [e]) s := by
  cases s with
  | guarding g =>
    obtain ⟨p, hp⟩ := h
    exact ⟨p, hp.idle he⟩
  | first | compiled | failed => exact (filter_idle es he).trans h

theorem leave (h : Turns es w.stage) (hg : w.stage = .guarding g) (hp : g.phase ≠ .over) :
    Turns (es ++ [.leave]) (.guarding g.close) := by
  rw [hg] at h
  obtain ⟨p, hr⟩ := h
  exact ⟨_, hr.leave hp⟩

theorem step (h : Turns es w.stage) (hs : Step x manifest o w e v) : Turns (es ++ [e]) v.stage := by
  cases hs with
  | compiled hw | fail hw | unwatched hw =>
    rw [hw] at h
    exact (filter_idle es rfl).trans h
  | watch hw =>
    rw [hw] at h
    exact ⟨_, .going (n := 0) nofun ((filter_idle es rfl).trans h)⟩
  | guard hg hx =>
    rw [hg] at h
    obtain ⟨p, hp⟩ := h
    exact hx.rounds hp
  | finish hg hphase =>
    rw [hg] at h
    obtain ⟨p, hp⟩ := h
    rw [hphase] at hp
    exact ⟨_, hp.finish⟩
  | crash hg hphase => exact h.leave hg (by rw [hphase]; exact nofun)
  | leave hg hphase => exact h.leave hg (by obtain hphase | hphase := hphase <;> rw [hphase] <;> exact nofun)
  | interrupt hg hphase => exact h.leave hg hphase
  | stop | edit | disturb | elsewhere => exact h.idle rfl

theorem run (hr : Runs (Step x manifest o) (start h) es w) : Turns es w.stage := by
  induction hr with
  | none => rfl
  | more _ hs ih => exact ih.step hs

end Turns

/-- A signal was given, and none was taken since. -/
def Signals (es : List Event) : Prop :=
  ∃ xs ys, es = xs ++ .signal :: ys ∧ .take ∉ ys

theorem not_signals_nil : ¬Signals [] := by
  rintro ⟨xs, ys, hes, -⟩
  simp at hes

theorem signals_concat : Signals (es ++ [e]) ↔ e = .signal ∨ e ≠ .take ∧ Signals es := by
  constructor
  · rintro ⟨xs, ys, hes, hys⟩
    obtain rfl | ⟨zs, a, rfl⟩ := List.eq_nil_or_concat ys
    · obtain ⟨-, he⟩ := List.append_inj' hes rfl
      exact .inl (List.singleton_inj.1 he)
    · rw [List.concat_eq_append, ← List.cons_append, ← List.append_assoc] at hes
      obtain ⟨rfl, he⟩ := List.append_inj' hes rfl
      cases he
      rw [List.concat_eq_append, mem_concat_iff, not_or] at hys
      exact .inr ⟨Ne.symm hys.2, xs, zs, rfl, hys.1⟩
  · rintro (rfl | ⟨hne, xs, ys, rfl, hys⟩)
    · exact ⟨es, [], rfl, List.not_mem_nil⟩
    · refine ⟨xs, ys ++ [e], by simp, ?_⟩
      rw [mem_concat_iff, not_or]
      exact ⟨hys, Ne.symm hne⟩

/-- Whether a rebuild is signalled to the loop. -/
def signalled (w : Vigil) : Bool :=
  match w.stage with
  | .guarding g => g.watching.rebuild
  | _ => false

theorem signalled_of_guarding (hg : w.stage = .guarding g) : w.signalled = g.watching.rebuild := by
  rw [signalled, hg]

theorem Guard.Step.rebuild_iff (hs : Guard.Step h g e g') :
    g'.watching.rebuild = true ↔ e = .signal ∨ e ≠ .take ∧ g.watching.rebuild = true := by
  cases hs with
  | wake | compile | blind | stall | deliver => simp
  | take => simp [Watching.takeSignal]
  | poll _ hp =>
    obtain ⟨ls, -, -, rfl⟩ := Watching.poll_ok hp
    simp
  | notice _ hn =>
    obtain ⟨b, -, rfl⟩ := Watching.notice_ok hn
    simp
  | signal => simp

theorem Step.signalled_iff (hs : Step x manifest o w e v) :
    v.signalled = true ↔ e = .signal ∨ e ≠ .take ∧ w.signalled = true := by
  cases hs with
  | compiled hw | fail hw | unwatched hw => simp [signalled, hw]
  | watch hw hx =>
    obtain ⟨ls, -, rfl⟩ := Watching.start_ok hx
    simp [signalled, hw, Guard.start]
  | guard hg hx =>
    rw [signalled_of_guarding hg]
    exact hx.rebuild_iff
  | finish hg | crash hg | leave hg | interrupt hg => simp [signalled, hg, close, Guard.close]
  | stop | edit | disturb | elsewhere => simp [signalled, setDisk]

theorem signalled_iff (hr : Runs (Step x manifest o) (start h) es w) : w.signalled = true ↔ Signals es := by
  induction hr with
  | none => exact ⟨nofun, fun hs => absurd hs not_signals_nil⟩
  | more _ hs ih => rw [hs.signalled_iff, signals_concat, ih]

/-- A loop that has woken has a signal to take. -/
def Woken (w : Vigil) : Prop :=
  ∀ g, w.stage = .guarding g → g.phase = .woken → g.watching.rebuild = true

theorem Guard.Step.woken (hs : Guard.Step h g e g') (hg : g.phase = .woken → g.watching.rebuild = true) :
    g'.phase = .woken → g'.watching.rebuild = true := by
  cases hs with
  | wake _ hr => exact fun _ => hr
  | take | compile => exact nofun
  | poll _ hp =>
    obtain ⟨ls, -, -, rfl⟩ := Watching.poll_ok hp
    exact hg
  | notice _ hn =>
    obtain ⟨b, -, rfl⟩ := Watching.notice_ok hn
    exact hg
  | blind | stall | deliver => exact hg
  | signal => exact fun _ => rfl

theorem Woken.step (h : Woken w) (hs : Step x manifest o w e v) : Woken v := by
  cases hs with
  | compiled | fail | unwatched => exact fun _ hg => by cases hg
  | watch | finish | crash | leave | interrupt =>
    rintro g ⟨⟩
    exact nofun
  | guard hg hx =>
    rintro g ⟨⟩
    exact hx.woken (h _ hg)
  | stop | edit | disturb | elsewhere => exact h

theorem woken_run (hr : Runs (Step x manifest o) (start h) es w) : Woken w := by
  induction hr with
  | none => exact fun _ hg => by cases hg
  | more _ hs ih => exact ih.step hs

theorem step_take (hs : Step x manifest o w .take v) : ∃ g, w.stage = .guarding g ∧ g.phase = .woken := by
  cases hs with
  | guard hg hx =>
    cases hx with
    | take hphase => exact ⟨_, hg, hphase⟩

/-- What the loop takes was signalled since it last took a signal. -/
theorem signals_of_take (hr : Runs (Step x manifest o) (start h) (xs ++ .take :: ys) w) : Signals xs := by
  obtain ⟨u, v, hx, hs, -⟩ := hr.split
  obtain ⟨g, hg, hphase⟩ := step_take hs
  rw [← signalled_iff hx, signalled_of_guarding hg]
  exact woken_run hx g hg hphase

theorem Step.stopped (hs : Step x manifest o w e v) (hw : w.host.stopped = true ∨ e = .stop) : v.host.stopped = true := by
  cases hs with
  | compiled _ hx | fail _ hx => exact (External.compile_same hx).2.trans (hw.resolve_right nofun)
  | finish _ _ hx => exact (External.recompile_same hx).2.trans (hw.resolve_right nofun)
  | crash | leave | interrupt | stop => rfl
  | elsewhere hst => exact hst.trans (hw.resolve_right nofun)
  | watch | unwatched | edit | disturb => exact hw.resolve_right nofun
  | guard _ hx => exact hw.resolve_right (by rintro rfl; cases hx)

theorem stopped_run (hr : Runs (Step x manifest o) w es v) (hw : w.host.stopped = true ∨ .stop ∈ es) :
    v.host.stopped = true := by
  induction hr with
  | none => exact hw.resolve_right List.not_mem_nil
  | more _ hs ih =>
    rw [mem_concat_iff, ← or_assoc] at hw
    exact hs.stopped (hw.imp ih Eq.symm)

theorem step_compile (hs : Step x manifest o w .compile v) : w.host.stopped = false := by
  cases hs with
  | guard _ hx =>
    cases hx with
    | compile _ hst => exact hst

/-- Nothing is compiled again after a stop was requested. -/
theorem unstopped_of_compile (hr : Runs (Step x manifest o) (start h) (xs ++ .compile :: ys) w) :
    h.stopped = false ∧ .stop ∉ xs := by
  obtain ⟨u, v, hx, hs, -⟩ := hr.split
  have hst := step_compile hs
  refine ⟨Bool.eq_false_iff.2 fun hh => ?_, fun hm => ?_⟩
  · rw [stopped_run hx (.inl hh)] at hst
    cases hst
  · rw [stopped_run hx (.inr hm)] at hst
    cases hst

/-- The build is left with an outcome: with the failure of the first compilation or of the first listing, with that of a
later compilation, well after a stop, or because something else fails or interrupts it in the loop. -/
inductive Leaves (x : External) (manifest : Path) (o : CompileOptions) (w : Vigil) : Outcome Bool → Vigil → Prop where
  | failed {f : Failure} {h : Host} : w.stage = .first → x.compile manifest o w.host = (.error f, h) →
      Leaves x manifest o w (.error f) { w with host := h, stage := .failed }
  | unwatched {f : Failure} : w.stage = .compiled → Watching.start w.host.disk manifest x.pollInterval x.debounce = .error f →
      Leaves x manifest o w (.error f) { w with stage := .failed }
  | crashed {g : Guard} {f : Failure} {h : Host} : w.stage = .guarding g → g.phase = .compiling →
      x.recompile manifest o w.host = (.error f, h) → Leaves x manifest o w (.error f) ({ w with host := h }.close g)
  | stopped {g : Guard} : w.stage = .guarding g → g.phase = .waiting ∨ g.phase = .ready → w.host.stopped = true →
      Leaves x manifest o w (.ok true) (w.close g)
  | interrupted {g : Guard} {f : Failure} : w.stage = .guarding g → g.phase ≠ .over → f.kind ≠ .own .compile →
      Leaves x manifest o w (.error f) (w.close g)

/-- The ways to leave are the steps that leave. -/
theorem leaves_iff : (∃ r, Leaves x manifest o w r v) ↔ Step x manifest o w .fail v ∨ Step x manifest o w .leave v := by
  constructor
  · rintro ⟨r, hl⟩
    cases hl with
    | failed hw hx => exact .inl (.fail hw hx)
    | unwatched hw hx => exact .inl (.unwatched hw hx)
    | crashed hg hp hx => exact .inr (.crash hg hp hx)
    | stopped hg hp hst => exact .inr (.leave hg hp hst)
    | interrupted hg hp => exact .inr (.interrupt hg hp)
  · have hinterrupt : (Failure.raised ⟨.interrupt, [], [], none⟩).kind ≠ .own .compile := nofun
    rintro (hs | hs)
    · cases hs with
      | fail hw hx => exact ⟨_, .failed hw hx⟩
      | unwatched hw hx => exact ⟨_, .unwatched hw hx⟩
      | guard _ hx => cases hx
    · cases hs with
      | crash hg hp hx => exact ⟨_, .crashed hg hp hx⟩
      | leave hg hp hst => exact ⟨_, .stopped hg hp hst⟩
      | interrupt hg hp => exact ⟨_, .interrupted hg hp hinterrupt⟩
      | guard _ hx => cases hx

/-- The loop was left: a stop is requested, with which the watcher ends, and the debouncer is cancelled with no timer set. -/
structure Closed (v : Vigil) : Prop where
  stopped : v.host.stopped = true
  released : ∃ g, v.stage = .guarding g ∧ g.phase = .over ∧ g.watching.debouncer.closed = true ∧
    g.watching.debouncer.pending = false ∧ ∀ ts, g.watching.watcher.run ts v.host = (.ok (), v.host)

theorem Closed.of_guarding (hv : v.stage = .guarding g) (hst : v.host.stopped = true) (hp : g.phase = .over)
    (hc : g.watching.debouncer.closed = true) (ht : g.watching.debouncer.pending = false) : Closed v :=
  ⟨hst, g, hv, hp, hc, ht, fun ts => Watcher.run_of_stopped _ ts hst⟩

theorem closed_close (w : Vigil) (g : Guard) : Closed (w.close g) :=
  .of_guarding rfl rfl rfl rfl (Debouncer.pending_cancel _)

theorem Closed.step (h : Closed v) (hs : Step x manifest o v e u) : Closed u := by
  obtain ⟨hst, g, hg, hp, hc, ht, -⟩ := h
  have hover {g' : Guard} (hg' : v.stage = .guarding g') : g' = g := by
    cases hg'.symm.trans hg
    rfl
  cases hs with
  | compiled hw | fail hw | watch hw | unwatched hw =>
    rw [hg] at hw
    cases hw
  | finish hg' hp' | crash hg' hp' =>
    rw [hover hg', hp] at hp'
    cases hp'
  | leave hg' hp' =>
    rw [hover hg', hp] at hp'
    obtain hp' | hp' := hp' <;> cases hp'
  | interrupt hg' hp' => exact absurd (hover hg' ▸ hp) hp'
  | stop => exact .of_guarding hg rfl hp hc ht
  | edit | disturb => exact .of_guarding hg hst hp hc ht
  | elsewhere hsame => exact .of_guarding hg (hsame.trans hst) hp hc ht
  | guard hg' hx =>
    cases hover hg'
    cases hx with
    | wake hp' | take hp' | compile hp' =>
      rw [hp] at hp'
      cases hp'
    | poll _ hpoll =>
      obtain ⟨ls, -, -, rfl⟩ := Watching.poll_ok hpoll
      exact .of_guarding rfl hst hp hc ht
    | notice _ hn =>
      obtain ⟨b, ha, rfl⟩ := Watching.notice_ok hn
      obtain ⟨-, rfl⟩ | ⟨hopen, -⟩ := Debouncer.arm_ok ha
      · exact .of_guarding rfl hst hp hc ht
      · rw [hc] at hopen
        cases hopen
    | deliver id =>
      refine .of_guarding rfl hst hp ?_ ?_
      all_goals
        dsimp only
        rw [Debouncer.deliver_of_closed hc]
        assumption
    | blind | stall | signal => exact .of_guarding rfl hst hp hc ht

theorem Closed.run (h : Closed v) (hr : Runs (Step x manifest o) v es u) : Closed u := by
  induction hr with
  | none => exact h
  | more _ hs ih => exact ih.step hs

theorem Step.stage_of_failed (hs : Step x manifest o v e u) (hv : v.stage = .failed) : u.stage = .failed := by
  cases hs with
  | compiled hw | watch hw | guard hw | finish hw | crash hw | leave hw | interrupt hw =>
    rw [hv] at hw
    cases hw
  | fail | unwatched => rfl
  | stop | edit | disturb | elsewhere => exact hv

theorem stage_of_failed (hv : v.stage = .failed) (hr : Runs (Step x manifest o) v es u) : u.stage = .failed := by
  induction hr with
  | none => exact hv
  | more _ hs ih => exact hs.stage_of_failed ih

/-- How a build that was left ends. If it comes to no watcher, because the first compilation or the first listing failed,
it ends with that failure, and there never is a watcher or a timer. Otherwise it ends well after a stop, or with a failure
that is not one to start the compiler, and it stays closed. -/
inductive Ends (x : External) (manifest : Path) (o : CompileOptions) (es : List Event) (w : Vigil) (r : Outcome Bool)
    (v : Vigil) : Prop where
  | unguarded {f : Failure} : r = .error f → .watch ∉ es →
      (w.stage = .first ∧ (∃ h', x.compile manifest o w.host = (.error f, h')) ∨
        w.stage = .compiled ∧ w.host.disk.snapshot (External.watchPaths manifest) = .error f) →
      (∀ zs u, Runs (Step x manifest o) v zs u → u.stage = .failed) → Ends x manifest o es w r v
  | closed {g : Guard} : w.stage = .guarding g →
      (r = .ok true ∧ w.host.stopped = true ∧ g.phase ≠ .compiling ∨ ∃ f, r = .error f ∧ f.kind ≠ .own .compile) →
      (∀ zs u, Runs (Step x manifest o) v zs u → Closed u) → Ends x manifest o es w r v

theorem Leaves.ends {r : Outcome Bool} (hr : Runs (Step x manifest o) (start h) es w) (hl : Leaves x manifest o w r v) :
    Ends x manifest o es w r v := by
  have hwatch (hn : ∀ g, w.stage ≠ .guarding g) : .watch ∉ es := fun hm =>
    let ⟨g, hg⟩ := (watch_mem_iff hr).1 hm
    hn g hg
  have hclosed (w : Vigil) (g : Guard) (zs : List Event) (u : Vigil) (hz : Runs (Step x manifest o) (w.close g) zs u) :
      Closed u := (closed_close w g).run hz
  cases hl with
  | failed hw hx =>
    exact .unguarded rfl (hwatch fun _ hg => by cases hw.symm.trans hg) (.inl ⟨hw, _, hx⟩) fun zs u hz => stage_of_failed rfl hz
  | @unwatched f hw hx =>
    refine .unguarded rfl (hwatch fun _ hg => by cases hw.symm.trans hg) (.inr ⟨hw, ?_⟩) fun zs u hz => stage_of_failed rfl hz
    unfold Watching.start Watcher.start at hx
    cases hs : w.host.disk.snapshot (External.watchPaths manifest) with
    | ok ls =>
      rw [hs] at hx
      cases hx
    | error e =>
      rw [hs] at hx
      cases hx
      rfl
  | crashed hg _ hx => exact .closed hg (.inr ⟨_, rfl, (External.recompile_error hx).1⟩) (hclosed _ _)
  | stopped hg hp hst =>
    exact .closed hg (.inl ⟨rfl, hst, by obtain hp | hp := hp <;> rw [hp] <;> exact nofun⟩) (hclosed _ _)
  | interrupted hg _ hf => exact .closed hg (.inr ⟨_, rfl, hf⟩) (hclosed _ _)

/-- A watch build in any run of it. From the start of the watcher on the loop goes round: each signal that is taken was given
since the last was taken, the loop then looks for a stop, and if there is none it starts the compiler, once, before it takes
another. So there are as many compilations as signals that were taken and the first one, but for the last signal if the loop
has not come to it or was left before. Signals that are given are there until they are taken, all at once; while no stop is
requested the loop can go on to compile for them, and a compilation that could not be started, or that was not content,
comes to its end like any other. -/
theorem watchBuild_rounds (hr : Runs (Step x manifest o) (start h) es w) :
    (∀ f h', x.compile manifest o h = (.error f, h') → x.watchBuild manifest o h = (.error f, h')) ∧
    (∀ c h' ws, x.compile manifest o h = (.ok c, h') → Watching.start h'.disk manifest x.pollInterval x.debounce = .ok ws →
      (x.watchBuild manifest o h).2.stopped = true ∧ ∀ b, (x.watchBuild manifest o h).1 = .ok b → b = true) ∧
    ((∀ g, w.stage ≠ .guarding g) → es.filter Event.isLoop = []) ∧
    (∀ xs ys, es = xs ++ .take :: ys → Signals xs) ∧
    (∀ xs ys, es = xs ++ .compile :: ys → h.stopped = false ∧ .stop ∉ xs) ∧
    (∀ g, w.stage = .guarding g →
      (∃ p, Rounds es p g.phase ∧ compilations es + p.owes = 1 + es.countP Event.isTake) ∧
      (g.watching.rebuild = true ↔ Signals es) ∧
      (g.phase = .waiting → Signals es → w.host.stopped = false →
        ∃ v, Runs (Step x manifest o) w [.wake, .take, .compile] v) ∧
      (g.phase = .compiling → ∀ r h', x.compile manifest o w.host = (r, h') →
        (∀ f, r = .error f → f.kind = .own .compile) → ∃ v, Step x manifest o w .finish v)) ∧
    ∀ r v, Leaves x manifest o w r v → Ends x manifest o es w r v := by
  have hturns := Turns.run hr
  refine ⟨fun f h' hx => Action.bind_of_error hx, fun c h' ws hx hs => ?_, hturns.unguarded, ?_, ?_,
    fun g hg => ⟨?_, ?_, ?_, ?_⟩, fun r v hl => hl.ends hr⟩
  · obtain ⟨f, h₁, hx', -⟩ | ⟨_, h₁, hx', ⟨f, hs', -⟩ | ⟨_, -, hend⟩⟩ := x.watchBuild_cases manifest o h
    · cases hx.symm.trans hx'
    · cases hx.symm.trans hx'
      cases hs.symm.trans hs'
    · exact hend
  · rintro xs ys rfl
    exact signals_of_take hr
  · rintro xs ys rfl
    exact unstopped_of_compile hr
  · rw [hg] at hturns
    obtain ⟨p, hp⟩ := hturns
    refine ⟨p, hp, ?_⟩
    rw [hp.countP_take, compilations, Nat.add_assoc]
  · rw [← signalled_iff hr, signalled_of_guarding hg]
  · intro hp hs hst
    rw [← signalled_iff hr, signalled_of_guarding hg] at hs
    have hwake : Guard.Step w.host g .wake _ := .wake hp hs
    exact ⟨_, run_guard hg (((Runs.one hwake).more (.take rfl)).more (.compile rfl hst))⟩
  · intro hp r h' hx hf
    obtain ⟨h'', hx'⟩ := External.recompile_ok hx hf
    exact ⟨_, .finish hg hp hx'⟩

/-- A manifest that is written while the loop waits is compiled once, and after a stop the build ends well. -/
theorem watchBuild_rounds_of_edit :
    ∃ (o : CompileOptions) (es : List Event) (w v : Vigil), Runs (Step munc manifestPath o) (start .bare) es w ∧
      Leaves munc manifestPath o w (.ok true) v ∧ es.countP Event.isTake = 1 ∧ compilations es = 2 ∧ Closed v := by
  let o : CompileOptions := ⟨⟨"x86_64-unknown-linux-gnu"⟩, .default, none, .auto⟩
  obtain ⟨h, hx, hl⟩ := munc.compile_of_no_launches manifestPath o (h := .bare) rfl
  obtain ⟨hdisk, hstop⟩ := External.compile_same hx
  have hstart := run_start hx snapshot_bare [Host.bare.disk]
  have hwrite := hdisk.symm ▸ writeFile_manifest
  have hedit := hstart.more (step_of_writeFile List.mem_cons_self hwrite fresh_manifest)
  obtain ⟨h', hx'⟩ := munc.recompile_of_no_launches manifestPath o (h := { h with disk := written }) hl
  obtain ⟨u, hrest, hst, g, hg, hrests⟩ := run_rebuilt ((sound_start _).run hedit) rfl (Guard.rests_start rfl rfl) rfl hstop
    finite_munc snapshot_written (List.cons_ne_nil _ _) hx'
  have hr : Runs (Step munc manifestPath o) (start .bare) _ _ := (hedit.trans hrest).more .stop
  have hleave : Leaves munc manifestPath o { u with host := { u.host with stopped := true } } (.ok true) _ :=
    .stopped hg (.inl hrests.waiting) rfl
  obtain ⟨-, -, -, -, -, hloop, hends⟩ := watchBuild_rounds hr
  obtain ⟨⟨p, hp, hcount⟩, -⟩ := hloop g hg
  refine ⟨o, _, _, _, hr, hleave, rfl, rfl, ?_⟩
  cases hends _ _ hleave with
  | unguarded he => cases he
  | closed _ _ hc => exact hc [] _ .none

/-- A name of so many letters. -/
def longName (n : Nat) : String :=
  String.ofList (List.replicate n 'm')

theorem look_longName {n : Nat} (hn : nameLimit < n) (hp : n + 2 < pathLimit) (d : Disk) :
    d.look ⟨true, false⟩ ⟨.rooted, [longName n]⟩ =
      .error (.system .nameTooLong (Path.toString ⟨.rooted, [longName n]⟩)) :=
  Disk.oversized_of_name hn hp d .rooted

/-- A manifest with a name that no file can have. -/
def longManifest : Path :=
  ⟨.rooted, [longName 300]⟩

/-- If the first listing fails, no stop is requested in the end. A signal that was taken while no stop was requested is not
compiled for if a stop is requested before the loop looks for one. -/
theorem watchBuild_rounds_fails :
    (∃ (o : CompileOptions) (es : List Event) (w v : Vigil) (f : Failure),
      Runs (Step munc longManifest o) (start .bare) es w ∧ .compiled ∈ es ∧
        Leaves munc longManifest o w (.error f) v ∧ f.kind ≠ .own .compile ∧ v.host.stopped = false) ∧
    ∃ (o : CompileOptions) (xs ys : List Event) (w v : Vigil),
      Runs (Step munc manifestPath o) (start .bare) (xs ++ .take :: ys) w ∧ .stop ∉ xs ∧
        Leaves munc manifestPath o w (.ok true) v ∧ compilations (xs ++ .take :: ys) = 1 := by
  let o : CompileOptions := ⟨⟨"x86_64-unknown-linux-gnu"⟩, .default, none, .auto⟩
  refine ⟨⟨o, ?_⟩, o, ?_⟩
  · obtain ⟨h, hx, -⟩ := munc.compile_of_no_launches longManifest o (h := .bare) rfl
    obtain ⟨hdisk, hstop⟩ := External.compile_same hx
    have hcompiled : Runs (Step munc longManifest o) (start .bare) [.compiled] _ := .one (.compiled rfl hx)
    obtain ⟨f, hf, hlisting⟩ : ∃ f : Failure, f.kind ≠ .own .compile ∧
        h.disk.snapshot (External.watchPaths longManifest) = .error f :=
      have hkind (s : String) : (Failure.system .nameTooLong s).kind ≠ .own .compile := nofun
      ⟨_, hkind _, Disk.snapshot_of_error (look_longName (by decide) (by decide) h.disk) rfl⟩
    have hunwatched : Watching.start h.disk longManifest munc.pollInterval munc.debounce = .error f := by
      rw [Watching.start, Watcher.start, hlisting]
      rfl
    exact ⟨_, _, _, f, hcompiled, List.mem_singleton_self _, .unwatched rfl hunwatched, hf, hstop⟩
  · obtain ⟨h, hx, -⟩ := munc.compile_of_no_launches manifestPath o (h := .bare) rfl
    obtain ⟨hdisk, hstop⟩ := External.compile_same hx
    have hstart := run_start hx snapshot_bare [Host.bare.disk]
    have hwrite := hdisk.symm ▸ writeFile_manifest
    have hedit := hstart.more (step_of_writeFile List.mem_cons_self hwrite fresh_manifest)
    let ws : Watching := ⟨⟨External.watchPaths manifestPath, [], munc.pollInterval⟩, .new munc.debounce, false⟩
    obtain ⟨g, hready, hphase, -⟩ := Guard.run_ready (h := { h with disk := written }) (g := .start ws)
      (Guard.rests_start rfl rfl) rfl rfl finite_munc snapshot_written (List.cons_ne_nil _ _)
    have hr : Runs (Step munc manifestPath o) (start .bare) _ _ := (hedit.trans (run_guard rfl hready)).more .stop
    exact ⟨[.compiled, .watch, .edit manifestPath 1, .poll true, .notice, .deliver true, .signal, .wake], [.stop], _, _, hr,
      by simp, .stopped rfl (.inr hphase) rfl, rfl⟩

end Vigil

end Hotload
